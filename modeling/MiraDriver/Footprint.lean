import MiraDriver.Bounds
import MiraDriver.Isolation
import MiraDriver.Reporter

/-!
# The footprint of the reporter

What the report loop keeps from one cycle to the next, and what it hands to a sink, does not
grow with the time it runs, nor with what a daemon answers.
-/
namespace MiraDriver.Footprint

open MiraDriver.Text MiraDriver.Mapping MiraDriver.Base MiraDriver.Program MiraDriver.Document
  MiraDriver.Inventory MiraDriver.Http MiraDriver.Runner MiraDriver.Cycle MiraDriver.Lifecycle
  MiraDriver.Reporter MiraDriver.Bounds

variable {σ : Type}

/-- What a driver replies is the outcome of one of its operations, whatever a daemon answers it.
Nothing is assumed of the rest. -/
def OverDriver [Python] [Loads] (reference : Str) : Exchange (Env σ) → Prop
  | ⟨.query q, reply⟩ => ∃ t, (Docker.query reference q).Exec t reply
  | ⟨.describe uri, reply⟩ => ∃ t, (Docker.describe reference uri).Exec t reply
  | ⟨.stats uri, reply⟩ => ∃ t, (Docker.stats reference uri).Exec t reply
  | ⟨.revision uri, reply⟩ => ∃ t, (Docker.revision reference uri).Exec t reply
  | ⟨.logs uri tail, reply⟩ => ∃ t, (Docker.logs reference uri tail).Exec t reply
  | _ => True

/-! ## The limits -/

structure LimitedObservation (reference : Str) (o : ContainerObservation) : Prop where
  details : LimitedDetails reference o.details
  stats : ∀ s ∈ o.stats, LimitedStats s.uri s
  revision : ∀ s ∈ o.revision, s.length = 40 ∨ s.length = 64

structure LimitedEvent (reference : Str) (tail : Int) (e : DriverEvent) : Prop where
  uri : e.uri.length ≤ reference.length + 1200
  logTail : e.logTail.length ≤ tail.toNat
  line : ∀ line ∈ e.logTail, line.length ≤ 1000

structure LimitedBaseline (b : Baseline) : Prop where
  finishedAt : ∀ s ∈ b.finishedAt, s.length ≤ 128
  stats : ∀ s ∈ b.stats, LimitedStats s.uri s

/-- At most so many baselines, each within its limits. -/
structure LimitedBaselines (reference : Str) (n : Nat) (baselines : Dict Str Baseline) : Prop where
  count : baselines.entries.length ≤ n
  uri : ∀ e ∈ baselines.entries, e.1.length ≤ reference.length + 1200
  baseline : ∀ e ∈ baselines.entries, LimitedBaseline e.2

/-- The containers that were observed, by their addresses. -/
def addresses (observations : List ContainerObservation) : List Str :=
  observations.map fun o => o.details.resource.uri

/-- There is one event for a container at the most, in the order of the containers. -/
structure LimitedSnapshot (reference : Str) (tail : Int) (s : DriverSnapshot) : Prop where
  containers : s.containers.length ≤ maxContainers
  observation : ∀ o ∈ s.containers, LimitedObservation reference o
  events : (s.events.map DriverEvent.uri).Sublist (addresses s.containers)
  event : ∀ e ∈ s.events, LimitedEvent reference tail e

/-- What the loop over the resources has gathered after some of them. -/
structure LimitedProgress (reference : Str) (tail : Int) (n : Nat) (p : Progress) : Prop where
  observations : p.observations.length ≤ n
  observation : ∀ o ∈ p.observations, LimitedObservation reference o
  events : (p.events.map DriverEvent.uri).Sublist (addresses p.observations)
  event : ∀ e ∈ p.events, LimitedEvent reference tail e
  baselines : LimitedBaselines reference n p.newBaselines

theorem LimitedBaselines.set {reference : Str} {n : Nat} {baselines : Dict Str Baseline}
    (h : LimitedBaselines reference n baselines) {uri : Str} (huri : uri.length ≤ reference.length + 1200)
    {b : Baseline} (hb : LimitedBaseline b) :
    LimitedBaselines reference (n + 1) (baselines.set uri b) := by
  refine ⟨?_, ?_, ?_⟩
  · have hput := length_put_le uri b baselines.entries
    have hcount := h.count
    change (put uri b baselines.entries).length ≤ n + 1
    omega
  · intro e he
    cases mem_put he with
    | inl hnew => exact hnew ▸ huri
    | inr hold => exact h.uri e hold
  · intro e he
    cases mem_put he with
    | inl hnew => exact hnew ▸ hb
    | inr hold => exact h.baseline e hold

theorem LimitedBaselines.mono {reference : Str} {m n : Nat} {baselines : Dict Str Baseline}
    (h : LimitedBaselines reference m baselines) (hmn : m ≤ n) : LimitedBaselines reference n baselines :=
  ⟨h.count.trans hmn, h.uri, h.baseline⟩

/-! ## One cycle -/

section Cycle

variable [Python] [Loads] {reference : Str} {r : DriverRunner σ} {t : List (Exchange (Env σ))}

theorem limited_of_exec_sampleStats {uri : Str} {stats : Option DriverContainerStats}
    (h : (sampleStats r uri).Exec t (.ok stats)) (ht : ∀ x ∈ t, OverDriver reference x) :
    ∀ s ∈ stats, LimitedStats s.uri s := by
  unfold sampleStats at h
  split at h
  · obtain ⟨reply, u, rfl, hrest⟩ := exec_call_bind.mp h
    obtain ⟨rfl, hstats⟩ := (Prog.exec_ofExcept _ _ _).mp hrest
    obtain ⟨v, hv⟩ := ht _ List.mem_cons_self
    cases reply with
    | ok s =>
      obtain rfl := Except.ok.inj hstats
      rintro _ ⟨⟩
      have hs := limited_of_exec_stats hv
      exact ⟨rfl, hs.readAt, hs.counters⟩
    | error e =>
      simp only [Except.map, tolerate] at hstats
      split at hstats
      · obtain rfl := Except.ok.inj hstats
        simp
      · cases hstats
  · obtain rfl := Except.ok.inj h.2
    simp

theorem limited_of_exec_sampleRevision {uri : Str} {revision : Option Str}
    (h : (sampleRevision r uri).Exec t (.ok revision)) (ht : ∀ x ∈ t, OverDriver reference x) :
    ∀ s ∈ revision, s.length = 40 ∨ s.length = 64 := by
  unfold sampleRevision at h
  split at h
  · obtain ⟨reply, u, rfl, hrest⟩ := exec_call_bind.mp h
    obtain ⟨rfl, hrevision⟩ := (Prog.exec_ofExcept _ _ _).mp hrest
    obtain ⟨v, hv⟩ := ht _ List.mem_cons_self
    cases reply with
    | ok s =>
      obtain rfl := Except.ok.inj hrevision
      exact limited_of_exec_revision hv
    | error e =>
      simp only [tolerate] at hrevision
      split at hrevision
      · obtain rfl := Except.ok.inj hrevision
        simp
      · cases hrevision
  · obtain rfl := Except.ok.inj h.2
    simp

/-- The tail of an event has no more lines than it may, and they are cut. -/
theorem limited_of_exec_postmortem {uri : Str} {lines : List Str}
    (h : (postmortem r uri).Exec t (.ok lines)) (ht : ∀ x ∈ t, OverDriver reference x) :
    lines.length ≤ r.postmortemTail.toNat ∧ ∀ line ∈ lines, line.length ≤ 1000 := by
  obtain ⟨reply, u, rfl, hrest⟩ := exec_call_bind.mp h
  obtain ⟨rfl, hlines⟩ := (Prog.exec_ofExcept _ _ _).mp hrest
  obtain ⟨v, hv⟩ := ht _ List.mem_cons_self
  cases reply with
  | ok result =>
    obtain rfl := Except.ok.inj hlines
    have hentries := (limited_of_exec_logs hv).entries
    refine ⟨by rw [List.length_map]; omega, ?_⟩
    intro line hline
    obtain ⟨entry, -, rfl⟩ := List.mem_map.mp hline
    exact List.length_take_le _ _
  | error e =>
    simp only [postmortemLines, Except.map, tolerate] at hlines
    split at hlines
    · obtain rfl := Except.ok.inj hlines
      simp
    · cases hlines

theorem limited_of_exec_detectEvent {previous : Option Baseline} {details : DriverResourceDetails}
    {occurredAt : Str} {event : Option DriverEvent}
    (h : (detectEvent r previous details occurredAt).Exec t (.ok event))
    (hd : LimitedDetails reference details) (ht : ∀ x ∈ t, OverDriver reference x) :
    ∀ e ∈ event, LimitedEvent reference r.postmortemTail e := by
  unfold detectEvent at h
  split at h
  · obtain rfl := Except.ok.inj h.2
    simp
  · obtain ⟨t₁, t₂, lines, rfl, hpostmortem, hend⟩ := Prog.exec_bind_ok.mp h
    obtain rfl := Except.ok.inj hend.2
    obtain ⟨hcount, hline⟩ := limited_of_exec_postmortem hpostmortem
      fun x hx => ht x (List.mem_append_left _ hx)
    rintro _ ⟨⟩
    exact ⟨hd.resource.uri, hcount, hline⟩

/-- The loop body adds one observation at the most. -/
theorem limited_of_exec_observe {collectedAt : Str} {n : Nat} {p p' : Progress}
    {resource : DriverResource} (h : (observe r collectedAt p resource).Exec t (.ok p'))
    (hp : LimitedProgress reference r.postmortemTail n p) (hr : LimitedResource reference resource)
    (ht : ∀ x ∈ t, OverDriver reference x) : LimitedProgress reference r.postmortemTail (n + 1) p' := by
  obtain ⟨described, t, rfl, hbody⟩ := exec_call_bind.mp h
  cases described with
  | error e =>
    by_cases he : e.isResourceNotFound = true
    · simp only [he, if_true] at hbody
      obtain rfl := Except.ok.inj hbody.2
      exact ⟨hp.observations.trans (Nat.le_succ n), hp.observation, hp.events, hp.event,
        hp.baselines.mono (Nat.le_succ n)⟩
    · simp only [he] at hbody
      cases hbody.2
  | ok details =>
    obtain ⟨v, hv⟩ := ht _ List.mem_cons_self
    have hdetails := limited_of_exec_describe hv
    obtain ⟨t₁, t, stats, rfl, hstats, hbody⟩ := Prog.exec_bind_ok.mp hbody
    obtain ⟨t₂, t, revision, rfl, hrevision, hbody⟩ := Prog.exec_bind_ok.mp hbody
    obtain ⟨t₃, t, cpu, rfl, -, hbody⟩ := Prog.exec_bind_ok.mp hbody
    obtain ⟨t₄, t, event, rfl, hevent, hend⟩ := Prog.exec_bind_ok.mp hbody
    obtain rfl := Except.ok.inj hend.2
    have hstats := limited_of_exec_sampleStats hstats fun x hx => ht x (by simp [hx])
    have hrevision := limited_of_exec_sampleRevision hrevision fun x hx => ht x (by simp [hx])
    have hone : (event.toList.map DriverEvent.uri).Sublist [details.resource.uri] := by
      obtain ⟨logTail, rfl⟩ := exec_detectEvent_ok hevent
      cases eventKind (r.baselines.get? resource.uri) details <;> simp
    have hevent := limited_of_exec_detectEvent hevent hdetails fun x hx => ht x (by simp [hx])
    have hcount := hp.observations
    refine ⟨?_, ?_, ?_, ?_, hp.baselines.set hr.uri ⟨hdetails.finishedAt, hstats⟩⟩
    · rw [List.length_append, List.length_singleton]
      omega
    · intro o ho
      cases List.mem_append.mp ho with
      | inl ho => exact hp.observation o ho
      | inr ho =>
        obtain rfl := List.mem_singleton.mp ho
        exact ⟨hdetails, hstats, hrevision⟩
    · rw [List.map_append, addresses, List.map_append]
      exact hp.events.append hone
    · intro e he
      cases List.mem_append.mp he with
      | inl he => exact hp.event e he
      | inr he => exact hevent e (Option.mem_toList.mp he)

theorem limited_of_exec_observeAll {collectedAt : Str} {n : Nat} {p p' : Progress}
    {resources : List DriverResource} (h : (observeAll r collectedAt p resources).Exec t (.ok p'))
    (hp : LimitedProgress reference r.postmortemTail n p)
    (hr : ∀ resource ∈ resources, LimitedResource reference resource)
    (ht : ∀ x ∈ t, OverDriver reference x) :
    LimitedProgress reference r.postmortemTail (n + resources.length) p' := by
  induction resources generalizing p n t with
  | nil =>
    obtain rfl := Except.ok.inj h.2
    exact hp
  | cons resource rest ih =>
    obtain ⟨t₁, t₂, q, rfl, hone, hrest⟩ := Prog.exec_bind_ok.mp h
    have hq := limited_of_exec_observe hone hp (hr resource List.mem_cons_self)
      fun x hx => ht x (List.mem_append_left _ hx)
    have hall := ih hrest hq (fun x hx => hr x (List.mem_cons_of_mem resource hx))
      fun x hx => ht x (List.mem_append_right _ hx)
    rw [List.length_cons, Nat.add_comm rest.length 1, ← Nat.add_assoc]
    exact hall

theorem limited_of_exec_poll {collectedAt : Str} {progress : Progress}
    (h : (poll r).Exec t (.ok (collectedAt, progress))) (ht : ∀ x ∈ t, OverDriver reference x) :
    LimitedProgress reference r.postmortemTail maxContainers progress := by
  obtain ⟨time, t, rfl, hquery⟩ := exec_call_bind.mp h
  obtain ⟨listed, t, rfl, hloop⟩ := exec_call_bind.mp hquery
  obtain ⟨_, t, resources, rfl, hresources, hwalk⟩ := Prog.exec_bind_ok.mp hloop
  obtain ⟨t, _, gathered, rfl, hall, hend⟩ := Prog.exec_bind_ok.mp hwalk
  obtain ⟨rfl, rfl⟩ := (Prog.exec_ofExcept _ _ _).mp hresources
  obtain ⟨rfl, hout⟩ := hend
  obtain ⟨rfl, rfl⟩ := Prod.mk.inj (Except.ok.inj hout)
  obtain ⟨v, hv⟩ := ht ⟨.query (.all .container), .ok resources⟩ (by simp)
  obtain ⟨hcount, hlimited⟩ := limited_of_exec_query hv
  have hempty : LimitedProgress reference r.postmortemTail 0 ⟨[], [], Dict.empty⟩ :=
    ⟨le_refl 0, by simp, List.Sublist.refl [], by simp, ⟨le_refl 0, by simp [Dict.empty], by simp [Dict.empty]⟩⟩
  have hgathered := limited_of_exec_observeAll hall hempty hlimited fun x hx => ht x (by simp [hx])
  have hn : 0 + resources.length ≤ maxContainers := by omega
  exact ⟨hgathered.observations.trans hn, hgathered.observation, hgathered.events, hgathered.event,
    hgathered.baselines.mono hn⟩

theorem limited_of_exec_collect {out : Except Exn DriverSnapshot} {r' : DriverRunner σ}
    (h : (collect r).Exec t (.ok (out, r'))) (hr : LimitedBaselines reference maxContainers r.baselines)
    (ht : ∀ x ∈ t, OverDriver reference x) :
    r'.postmortemTail = r.postmortemTail ∧ LimitedBaselines reference maxContainers r'.baselines ∧
      ∀ s, out = .ok s → LimitedSnapshot reference r.postmortemTail s := by
  obtain ⟨t₁, t₂, polled, rfl, hpoll, hbody⟩ := Prog.exec_attempt_bind.mp h
  cases polled with
  | error e =>
    obtain ⟨rfl, hout⟩ := hbody
    obtain ⟨rfl, rfl⟩ := Prod.mk.inj (Except.ok.inj hout)
    exact ⟨rfl, hr, by simp⟩
  | ok gathered =>
    obtain ⟨collectedAt, progress⟩ := gathered
    obtain ⟨t₃, t₄, host, rfl, hhost, hend⟩ := Prog.exec_attempt_bind.mp hbody
    obtain ⟨rfl, hout⟩ := hend
    obtain ⟨rfl, rfl⟩ := Prod.mk.inj (Except.ok.inj hout)
    have hprogress := limited_of_exec_poll hpoll fun x hx => ht x (by simp [hx])
    refine ⟨rfl, hprogress.baselines, ?_⟩
    intro s hs
    cases host with
    | error e => cases hs
    | ok samples =>
      obtain rfl := Except.ok.inj hs
      exact ⟨hprogress.observations, hprogress.observation, hprogress.events, hprogress.event⟩

omit [Python] [Loads] in
/-- Every sink is handed the snapshot that was collected. -/
theorem published_publishAll {snapshot : DriverSnapshot} {sinks : List σ} {x : Except Exn Unit}
    (h : (publishAll snapshot sinks).Exec t x) : ∀ y ∈ published t, y.2 = snapshot := by
  intro y hy
  obtain ⟨⟨c, reply⟩, hx, hpublished⟩ := List.mem_filterMap.mp hy
  have hcalls := (allCalls_publishAll (P := fun c => ∀ sink s, c = .publish sink s → s = snapshot)
    snapshot sinks (by simp)).of_exec h
  cases c with
  | publish sink s =>
    obtain rfl := Option.some.inj hpublished
    exact hcalls _ hx sink s rfl
  | _ => cases hpublished

theorem limited_of_exec_runOnce {out : Except Exn DriverSnapshot} {r' : DriverRunner σ}
    (h : (runOnce r).Exec t (.ok (out, r'))) (hr : LimitedBaselines reference maxContainers r.baselines)
    (ht : ∀ x ∈ t, OverDriver reference x) :
    r'.postmortemTail = r.postmortemTail ∧ LimitedBaselines reference maxContainers r'.baselines ∧
      ∀ x ∈ published t, LimitedSnapshot reference r.postmortemTail x.2 := by
  obtain ⟨t₁, t₂, collected, rfl, hcollect, hsilent, hcases⟩ := Isolation.exec_runOnce_split h
  obtain ⟨htail, hkept, hsnapshot⟩ := limited_of_exec_collect hcollect hr
    fun x hx => ht x (List.mem_append_left _ hx)
  refine ⟨htail, hkept, ?_⟩
  rw [published_append, hsilent, List.nil_append]
  rcases hcases with ⟨e, -, -, rfl⟩ | ⟨snapshot, result, rfl, hpublish, -⟩
  · intro x hx
    cases hx
  · intro x hx
    exact published_publishAll hpublish x hx ▸ hsnapshot snapshot rfl

end Cycle

/-! ## Runs -/

/-- What a run hands to the sinks, and what it keeps. -/
structure LimitedRun (reference : Str) (tail : Int) (cs : List (PollCycle σ)) (r' : DriverRunner σ) :
    Prop where
  handed : ∀ c ∈ cs, ∀ x ∈ published c.trace, LimitedSnapshot reference tail x.2
  kept : LimitedBaselines reference maxContainers r'.baselines

/-- However long it runs and whatever its daemon answers, a runner stays within its limits. -/
theorem run_limited [Python] [Loads] {reference : Str} {r r' : DriverRunner σ} {cs : List (PollCycle σ)}
    (h : Run r cs r') (hr : LimitedBaselines reference maxContainers r.baselines)
    (hc : ∀ c ∈ cs, ∀ x ∈ c.trace, OverDriver reference x) :
    LimitedRun reference r.postmortemTail cs r' := by
  induction h with
  | nil r => exact ⟨by simp, hr⟩
  | cons hexec _ ih =>
    obtain ⟨htail, hkept, hpublished⟩ := limited_of_exec_runOnce hexec hr (hc _ List.mem_cons_self)
    obtain ⟨hhanded, hlast⟩ := ih hkept fun c hm => hc c (List.mem_cons_of_mem _ hm)
    refine ⟨?_, hlast⟩
    intro c hm
    cases List.mem_cons.mp hm with
    | inl he => exact he ▸ hpublished
    | inr hm => exact htail ▸ hhanded c hm

theorem overDriver_linked [Python] [Loads] (reference : Str) {W : Type}
    (daemon : W → Request → Http.Reply × W) (w : W) (c : Call σ) :
    OverDriver reference (⟨c, (linked reference daemon w c).1⟩ : Exchange (Env σ)) := by
  cases c with
  | query q => exact ⟨_, Prog.exec_serve _ _ _⟩
  | describe uri => exact ⟨_, Prog.exec_serve _ _ _⟩
  | stats uri => exact ⟨_, Prog.exec_serve _ _ _⟩
  | revision uri => exact ⟨_, Prog.exec_serve _ _ _⟩
  | logs uri tail => exact ⟨_, Prog.exec_serve _ _ _⟩
  | _ => trivial

theorem run_limited_overflowing :
    LimitedRun (lit "local") 50 overflowingRun.1 overflowingRun.2 ∧
      overflowingRun.1.map (fun c => (published c.trace).length) = [1, 0] :=
  ⟨@run_limited Unit Python.ascii overflowingLoads (lit "local") _ _ _ run_overflowingRun
    ⟨Nat.zero_le _, by simp [overflowingRunner, Dict.empty], by simp [overflowingRunner, Dict.empty]⟩
    (serveCycles_forall _ (@overDriver_linked Unit Python.ascii overflowingLoads _ _ _) 2 _ 0),
    by decide +kernel⟩

end MiraDriver.Footprint
