import MiraDriver.Cycle

/-!
# Lifecycle events over a run

A run is any number of poll cycles of one runner. What its baselines hold is always what
the last cycle that returned has seen, so a cycle that fails is as good as none, and a
snapshot's events tell the changes since the snapshot before.
-/
namespace MiraDriver.Lifecycle

open MiraDriver.Text MiraDriver.Mapping MiraDriver.Base MiraDriver.Program MiraDriver.Runner
  MiraDriver.Cycle

variable {σ : Type}

/-- A call of `run_once`: what it met, and how it ended. -/
structure PollCycle (σ : Type) where
  trace : List (Exchange (Env σ))
  outcome : Except Exn DriverSnapshot

def PollCycle.succeeded (c : PollCycle σ) : Bool := c.outcome.isOk

/-- The snapshots of a sequence of cycles. -/
def snapshots (cs : List (PollCycle σ)) : List DriverSnapshot :=
  cs.filterMap fun c => c.outcome.toOption

/-- Cycles that lead from one state of the runner to another. -/
inductive Run : DriverRunner σ → List (PollCycle σ) → DriverRunner σ → Prop
  | nil (r : DriverRunner σ) : Run r [] r
  | cons {r r' r'' : DriverRunner σ} {c : PollCycle σ} {cs : List (PollCycle σ)} :
      (runOnce r).Exec c.trace (.ok (c.outcome, r')) → Run r' cs r'' → Run r (c :: cs) r''

theorem Run.append {r r' r'' : DriverRunner σ} {cs cs' : List (PollCycle σ)} (h : Run r cs r')
    (h' : Run r' cs' r'') : Run r (cs ++ cs') r'' := by
  induction h with
  | nil _ => exact h'
  | cons hstep _ ih => exact .cons hstep (ih h')

/-- What is assumed of a cycle: no address is listed twice, what is described carries the
address it was described by, and what is raised for good comes from the driver. -/
structure PollCycle.Regular (c : PollCycle σ) : Prop where
  distinct : ∀ resources, .ok resources ∈ listings c.trace →
    (resources.map DriverResource.uri).Nodup
  addressed : ∀ d ∈ returned (describes c.trace), d.2.resource.uri = d.1
  contained : ∀ x ∈ c.trace, Contained x

/-- The container has stopped since. -/
def Died (before now : DriverResourceDetails) : Prop :=
  now.finishedAt ≠ none ∧ now.finishedAt ≠ before.finishedAt

instance (before now : DriverResourceDetails) : Decidable (Died before now) :=
  inferInstanceAs (Decidable (_ ∧ _))

/-- The container has been restarted since. -/
def Grew (before now : DriverResourceDetails) : Prop :=
  ∃ m ∈ before.restartCount, ∃ n ∈ now.restartCount, m.toInt < n.toInt

instance (before now : DriverResourceDetails) : Decidable (Grew before now) :=
  inferInstanceAs (Decidable (∃ m ∈ before.restartCount, ∃ n ∈ now.restartCount, m.toInt < n.toInt))

def kindOf (before now : DriverResourceDetails) : EventKind :=
  if now.oomKilled = some true then .oomKilled
  else if Grew before now then .restarted
  else .exited

/-- The events of a snapshot that concern one container. -/
def eventsOf (s : DriverSnapshot) (uri : Str) : List DriverEvent := s.events.filter (·.uri = uri)

/-- Both snapshots have observed the container, and it has changed in between. -/
def Changed (s s' : DriverSnapshot) (uri : Str) : Prop :=
  ∃ a ∈ s.containers, ∃ b ∈ s'.containers, a.details.resource.uri = uri ∧
    b.details.resource.uri = uri ∧ (Died a.details b.details ∨ Grew a.details b.details)

/-- The later snapshot has one event for each container that has changed, of the kind of
the change, and no other. -/
def EventsFollow (s s' : DriverSnapshot) : Prop :=
  (∀ a ∈ s.containers, ∀ b ∈ s'.containers, a.details.resource.uri = b.details.resource.uri →
    Died a.details b.details ∨ Grew a.details b.details →
    ∃ e, eventsOf s' b.details.resource.uri = [e] ∧ e.kind = kindOf a.details b.details) ∧
  ∀ uri, ¬ Changed s s' uri → eventsOf s' uri = []

theorem died_iff (before now : DriverResourceDetails) (stats : Option DriverContainerStats) :
    died ⟨before.restartCount, before.finishedAt, stats⟩ now = true ↔ Died before now := by
  simp [died, Died]

theorem restarted_iff (before now : DriverResourceDetails) (stats : Option DriverContainerStats) :
    restarted ⟨before.restartCount, before.finishedAt, stats⟩ now = true ↔ Grew before now := by
  unfold restarted Grew
  cases now.restartCount <;> cases before.restartCount <;> simp

/-- The detection in the runner decides what the two observations say. -/
theorem eventKind_eq (before now : DriverResourceDetails) (stats : Option DriverContainerStats) :
    eventKind (some ⟨before.restartCount, before.finishedAt, stats⟩) now =
      if Died before now ∨ Grew before now then some (kindOf before now) else none := by
  simp only [eventKind, kindOf, ← died_iff before now stats, ← restarted_iff before now stats]
  generalize died _ now = d
  generalize restarted _ now = g
  cases d <;> cases g <;> by_cases hoom : now.oomKilled = some true <;> simp [hoom]

/-- The baselines are those of the containers of a snapshot. -/
def Remembers (r : DriverRunner σ) (s : DriverSnapshot) : Prop :=
  (∀ o ∈ s.containers, r.baselines.get? o.details.resource.uri =
    some ⟨o.details.restartCount, o.details.finishedAt, o.stats⟩) ∧
  ∀ uri, (∀ o ∈ s.containers, o.details.resource.uri ≠ uri) → r.baselines.get? uri = none

theorem filter_eq_singleton {α β : Type} [DecidableEq β] (f : α → β) (l : List α)
    (hl : (l.map f).Nodup) {a : α} (ha : a ∈ l) : l.filter (fun b => f b = f a) = [a] := by
  induction l with
  | nil => cases ha
  | cons b l ih =>
    obtain ⟨hb, hl⟩ := List.nodup_cons.mp hl
    cases List.mem_cons.mp ha with
    | inl h =>
      subst h
      have hnone : l.filter (fun b => f b = f a) = [] := by
        apply List.filter_eq_nil_iff.mpr
        intro c hc he
        exact hb (List.mem_map.mpr ⟨c, hc, by simpa using he⟩)
      simp [hnone]
    | inr h =>
      have hne : f b ≠ f a := fun he => hb (List.mem_map.mpr ⟨a, h, he.symm⟩)
      simp [hne, ih hl h]

theorem returned_sublist (ds : List (Str × Except Exn DriverResourceDetails)) :
    List.Sublist ((returned ds).map Prod.fst) (ds.map Prod.fst) := by
  induction ds with
  | nil => exact .slnil
  | cons d ds ih =>
    obtain ⟨uri, reply⟩ := d
    cases reply with
    | error e => exact ih.cons uri
    | ok details => exact ih.cons_cons uri

section Visits

variable {baselines : Dict Str Baseline} {resources : List DriverResource}
  {ds : List (Str × Except Exn DriverResourceDetails)} {visits : List Visit}

/-- A survey of distinct addresses visits each of them at most once. -/
theorem nodup_visits (h : Survey baselines resources ds visits)
    (hd : (resources.map DriverResource.uri).Nodup) : (visits.map Visit.uri).Nodup := by
  have heq : visits.map Visit.uri = (returned ds).map Prod.fst := by
    rw [← h.visited, List.map_map]
    rfl
  rw [heq]
  exact (returned_sublist ds).nodup (h.described ▸ hd)

theorem uri_details (h : Survey baselines resources ds visits)
    (ha : ∀ d ∈ returned ds, d.2.resource.uri = d.1) {v : Visit} (hv : v ∈ visits) :
    v.details.resource.uri = v.uri :=
  ha (v.uri, v.details) (h.visited ▸ List.mem_map_of_mem hv)

/-- The new baselines are those of the snapshot. -/
theorem remembers_after {r : DriverRunner σ} (collectedAt : Str) (hostMetrics : List MetricSample)
    (h : Survey r.baselines resources ds visits) (hd : (resources.map DriverResource.uri).Nodup)
    (ha : ∀ d ∈ returned ds, d.2.resource.uri = d.1) :
    Remembers (after r visits) (snapshotOf r collectedAt visits hostMetrics) := by
  have hkeys : (visits.map fun v => (v.uri, v.baseline)).map Prod.fst = visits.map Visit.uri := by
    rw [List.map_map]
    rfl
  constructor
  · intro o ho
    obtain ⟨v, hv, rfl⟩ := List.mem_map.mp ho
    have huri : v.observation.details.resource.uri = v.uri := uri_details h ha hv
    rw [huri]
    apply Dict.get?_ofList_eq_some
    · rw [hkeys]
      exact nodup_visits h hd
    · exact List.mem_map.mpr ⟨v, hv, rfl⟩
  · intro uri hnone
    apply Dict.get?_ofList_eq_none
    rw [hkeys]
    intro hmem
    obtain ⟨v, hv, rfl⟩ := List.mem_map.mp hmem
    exact hnone v.observation (List.mem_map_of_mem hv) (uri_details h ha hv)

/-- The events about a container are those of its visit. -/
theorem eventsOf_visit {r : DriverRunner σ} (collectedAt : Str) (hostMetrics : List MetricSample)
    (h : Survey r.baselines resources ds visits)
    (ha : ∀ d ∈ returned ds, d.2.resource.uri = d.1) (uri : Str) :
    eventsOf (snapshotOf r collectedAt visits hostMetrics) uri =
      (visits.filter (fun v => v.uri = uri)).filterMap (Visit.event r.baselines collectedAt) := by
  have hevent (v : Visit) (hv : v ∈ visits) :
      ∀ e ∈ v.event r.baselines collectedAt, e.uri = v.uri := by
    intro e he
    obtain ⟨kind, -, rfl⟩ := Option.map_eq_some_iff.mp he
    exact uri_details h ha hv
  unfold eventsOf snapshotOf
  clear h ha
  induction visits with
  | nil => rfl
  | cons v vs ih =>
    have hv := hevent v List.mem_cons_self
    have ih := ih fun w hw => hevent w (List.mem_cons_of_mem _ hw)
    cases he : v.event r.baselines collectedAt with
    | none => by_cases hu : v.uri = uri <;> simp [he, hu, ih]
    | some e =>
      have heu : e.uri = v.uri := hv e he
      by_cases hu : v.uri = uri <;> simp [he, hu, heu, ih]

/-- A survey made with the baselines of one snapshot finds the changes since. -/
theorem eventsFollow_snapshotOf {r : DriverRunner σ} {s : DriverSnapshot} (collectedAt : Str)
    (hostMetrics : List MetricSample) (hr : Remembers r s)
    (h : Survey r.baselines resources ds visits) (hd : (resources.map DriverResource.uri).Nodup)
    (ha : ∀ d ∈ returned ds, d.2.resource.uri = d.1) :
    EventsFollow s (snapshotOf r collectedAt visits hostMetrics) := by
  have hnodup := nodup_visits h hd
  constructor
  · intro a haobs b hb hab hchanged
    obtain ⟨v, hv, rfl⟩ := List.mem_map.mp hb
    have huri : v.observation.details.resource.uri = v.uri := uri_details h ha hv
    have hbase : r.baselines.get? v.uri = some ⟨a.details.restartCount, a.details.finishedAt, a.stats⟩ := by
      rw [← huri, ← hab]
      exact hr.1 a haobs
    refine ⟨⟨kindOf a.details v.details, v.details.resource.uri, collectedAt, v.details.exitCode,
      v.logTail⟩, ?_, rfl⟩
    rw [eventsOf_visit collectedAt hostMetrics h ha, huri, filter_eq_singleton Visit.uri visits hnodup hv]
    have hkind : eventKind (r.baselines.get? v.uri) v.details = some (kindOf a.details v.details) := by
      rw [hbase, eventKind_eq]
      exact if_pos hchanged
    simp [Visit.event, hkind]
  · intro uri hsame
    rw [eventsOf_visit collectedAt hostMetrics h ha]
    apply List.filterMap_eq_nil_iff.mpr
    intro v hmem
    obtain ⟨hv, huri⟩ := List.mem_filter.mp hmem
    obtain rfl : v.uri = uri := of_decide_eq_true huri
    have hvuri := uri_details h ha hv
    suffices hkind : eventKind (r.baselines.get? v.uri) v.details = none by simp [Visit.event, hkind]
    by_cases hseen : ∃ a ∈ s.containers, a.details.resource.uri = v.uri
    · obtain ⟨a, haobs, hauri⟩ := hseen
      rw [← hauri, hr.1 a haobs, eventKind_eq]
      apply if_neg
      intro hchanged
      exact hsame ⟨a, haobs, v.observation, List.mem_map_of_mem hv, hauri, hvuri, hchanged⟩
    · rw [hr.2 v.uri fun o ho he => hseen ⟨o, ho, he⟩]
      rfl

end Visits

variable {r r' : DriverRunner σ} {c : PollCycle σ} {cs : List (PollCycle σ)}

/-- One step: a cycle that fails changes nothing. -/
theorem step_failed (h : (runOnce r).Exec c.trace (.ok (c.outcome, r')))
    (hc : ∀ x ∈ c.trace, Contained x) (hfail : c.succeeded = false) : r' = r := by
  cases exec_runOnce h hc with
  | inl hdone => exact hdone.choose_spec.2.2
  | inr hdone =>
    obtain ⟨_, _, _, _, -, -, hout, -, -⟩ := hdone
    rw [PollCycle.succeeded, hout] at hfail
    cases hfail

/-- One step: a cycle that returns leaves behind the baselines of its snapshot, and reports
the changes since the snapshot whose baselines it found. -/
theorem step_succeeded {s : DriverSnapshot} (h : (runOnce r).Exec c.trace (.ok (c.outcome, r')))
    (hc : c.Regular) (hs : c.outcome = .ok s) :
    Remembers r' s ∧ ∀ before, Remembers r before → EventsFollow before s := by
  cases exec_runOnce h hc.contained with
  | inl hfail =>
    obtain ⟨e, he, -⟩ := hfail
    rw [hs] at he
    cases he
  | inr hdone =>
    obtain ⟨collectedAt, resources, visits, hostMetrics, hlist, hsurvey, hout, rfl, -⟩ := hdone
    obtain rfl := Except.ok.inj (hs.symm.trans hout)
    have hnodup := hc.distinct resources (by simp [hlist])
    refine ⟨remembers_after collectedAt hostMetrics hsurvey hnodup hc.addressed, ?_⟩
    intro before hbefore
    exact eventsFollow_snapshotOf collectedAt hostMetrics hbefore hsurvey hnodup hc.addressed

namespace Run

theorem split {ds : List (PollCycle σ)} (h : Run r (cs ++ ds) r') :
    ∃ q, Run r cs q ∧ Run q ds r' := by
  induction cs generalizing r with
  | nil => exact ⟨r, .nil r, h⟩
  | cons c cs ih =>
    cases h with
    | cons hstep hrest =>
      obtain ⟨q, hq, hq'⟩ := ih hrest
      exact ⟨q, .cons hstep hq, hq'⟩

theorem exists_step (h : Run r cs r') (hc : c ∈ cs) :
    ∃ q q', (runOnce q).Exec c.trace (.ok (c.outcome, q')) := by
  induction h with
  | nil r => cases hc
  | cons hstep hrest ih =>
    cases List.mem_cons.mp hc with
    | inl hc => exact ⟨_, _, hc ▸ hstep⟩
    | inr hc => exact ih hc

/-- A run of failures changes nothing. -/
theorem failed (h : Run r cs r') (hc : ∀ c ∈ cs, ∀ x ∈ c.trace, Contained x)
    (hfail : ∀ c ∈ cs, c.succeeded = false) : r' = r := by
  induction h with
  | nil r => rfl
  | cons hstep hrest ih =>
    rw [ih (fun c hm => hc c (List.mem_cons_of_mem _ hm)) fun c hm => hfail c (List.mem_cons_of_mem _ hm)]
    exact step_failed hstep (hc _ List.mem_cons_self) (hfail _ List.mem_cons_self)

/-- The cycles that failed can be left out of a run. -/
theorem filter_succeeded (h : Run r cs r') (hc : ∀ c ∈ cs, ∀ x ∈ c.trace, Contained x) :
    Run r (cs.filter PollCycle.succeeded) r' := by
  induction h with
  | nil r => exact .nil r
  | @cons r q r' c cs hstep hrest ih =>
    have ih := ih fun c hm => hc c (List.mem_cons_of_mem _ hm)
    cases hs : c.succeeded with
    | true =>
      rw [List.filter_cons_of_pos hs]
      exact .cons hstep ih
    | false =>
      obtain rfl := step_failed hstep (hc c List.mem_cons_self) hs
      rwa [List.filter_cons_of_neg (by simp [hs])]

/-- The replies determine a run. -/
theorem unique {q : DriverRunner σ} {ds : List (PollCycle σ)} (h : Run r cs r') (h' : Run r ds q)
    (ht : ds.map PollCycle.trace = cs.map PollCycle.trace) : ds = cs ∧ q = r' := by
  induction h generalizing ds with
  | nil r =>
    obtain rfl := List.map_eq_nil_iff.mp ht
    cases h'
    exact ⟨rfl, rfl⟩
  | @cons r p r' c cs hstep hrest ih =>
    cases h' with
    | nil => cases ht
    | @cons _ p' _ d ds hstep' hrest' =>
      obtain ⟨htrace, ht⟩ := List.cons.inj ht
      have heq := Prog.exec_unique (htrace ▸ hstep') hstep
      obtain ⟨hout, rfl⟩ := Prod.mk.inj (Except.ok.inj heq)
      obtain ⟨rfl, rfl⟩ := ih hrest' ht
      cases c
      cases d
      simp_all

end Run

theorem snapshots_filter (cs : List (PollCycle σ)) :
    snapshots (cs.filter PollCycle.succeeded) = snapshots cs := by
  induction cs with
  | nil => rfl
  | cons c cs ih =>
    unfold snapshots at ih ⊢
    cases hout : c.outcome with
    | ok s =>
      have hs : c.succeeded = true := by simp [PollCycle.succeeded, hout, Except.isOk, Except.toBool]
      rw [List.filter_cons_of_pos hs, List.filterMap_cons, List.filterMap_cons, ih]
    | error e =>
      have hs : ¬ c.succeeded = true := by simp [PollCycle.succeeded, hout, Except.isOk, Except.toBool]
      rw [List.filter_cons_of_neg hs, List.filterMap_cons_none (by rw [hout]; rfl), ih]

/-- The cycles that failed make no difference: met with the replies of the others alone, the
runner produces the same snapshots, and the events of a snapshot tell the changes since
the last one, however many cycles failed in between. -/
def EventsSurvive (r : DriverRunner σ) (cs : List (PollCycle σ)) : Prop :=
  (∃ q, Run r (cs.filter PollCycle.succeeded) q) ∧
  (∀ ds q, Run r ds q → ds.map PollCycle.trace = (cs.filter PollCycle.succeeded).map PollCycle.trace →
    snapshots ds = snapshots cs) ∧
  ∀ first ci failed cj rest si sj, cs = first ++ ci :: (failed ++ cj :: rest) →
    ci.outcome = .ok si → cj.outcome = .ok sj → (∀ c ∈ failed, c.succeeded = false) →
    EventsFollow si sj

/-- A container is running, the daemon fails once, and then the container is dead. -/
def deathRun : List (PollCycle Bool) :=
  let alive := plainDetails ['a']
  let dead := { alive with finishedAt := some ['t'] }
  let before : DriverSnapshot := ⟨[], [], [⟨alive, none, none, none⟩], [], []⟩
  let later : DriverSnapshot :=
    ⟨[], [], [⟨dead, none, none, none⟩], [], [⟨.exited, ['a'], [], none, []⟩]⟩
  let listed : List (Exchange (Env Bool)) :=
    [⟨.now, []⟩, ⟨.query (.all .container), .ok [plainContainer ['a']]⟩]
  let failure := Exn.driverUnavailable []
  [⟨listed ++ [⟨.describe ['a'], .ok alive⟩, ⟨.publish true before, .ok ()⟩,
      ⟨.publish false before, .ok ()⟩], .ok before⟩,
    ⟨listed ++ [⟨.describe ['a'], .error failure⟩], .error failure⟩,
    ⟨listed ++ [⟨.describe ['a'], .ok dead⟩, ⟨.logs ['a'] 50, .ok ⟨[], false⟩⟩,
      ⟨.publish true later, .ok ()⟩, ⟨.publish false later, .ok ()⟩], .ok later⟩]

end MiraDriver.Lifecycle
