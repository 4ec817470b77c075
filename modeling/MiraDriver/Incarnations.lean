import Mathlib.Logic.Relation
import MiraDriver.Reporter

/-!
# CPU figures and incarnations

The runner takes a CPU figure from the counters of two cycles. A container that is
restarted or recreated in between starts to count at zero. This shows in the counters only
if the later one is below the earlier one.
-/
namespace MiraDriver.Incarnations

open MiraDriver.Text MiraDriver.Mapping MiraDriver.Base MiraDriver.Program MiraDriver.Runner
  MiraDriver.Cycle MiraDriver.Lifecycle

open MiraDriver.Reporter (NoStats)

/-- The host behind the daemon: which incarnation of a container is behind an address and
what its CPU counter says, and the system's own counter. -/
structure Host where
  incarnation : Str → Nat
  cpu : Str → Nat
  system : Nat

/-- What may happen on the host at any time. -/
inductive Host.Step : Host → Host → Prop
  /-- The container is restarted, or removed and created again under the same address. -/
  | restart (h : Host) (uri : Str) : Step h
      { h with
        incarnation := Function.update h.incarnation uri (h.incarnation uri + 1)
        cpu := Function.update h.cpu uri 0 }
  | burn (h : Host) (uri : Str) (n : Nat) :
      Step h { h with cpu := Function.update h.cpu uri (h.cpu uri + n) }
  | tick (h : Host) (n : Nat) : Step h { h with system := h.system + n }

/-- Some time later. -/
def Host.Later : Host → Host → Prop := Relation.ReflTransGen Host.Step

/-- In one step an address gets a new incarnation, or its counter does not decrease. -/
theorem Host.Step.counts {h h' : Host} (hs : h.Step h') (uri : Str) :
    h.incarnation uri ≤ h'.incarnation uri ∧
      (h.incarnation uri = h'.incarnation uri → h.cpu uri ≤ h'.cpu uri) := by
  cases hs with
  | restart uri' =>
    by_cases he : uri = uri'
    · subst he
      simp
    · simp [he]
  | burn uri' n =>
    by_cases he : uri = uri'
    · subst he
      simp
    · simp [he]
  | tick n => exact ⟨le_rfl, fun _ => le_rfl⟩

theorem Host.Later.counts {h h' : Host} (hl : h.Later h') (uri : Str) :
    h.incarnation uri ≤ h'.incarnation uri ∧
      (h.incarnation uri = h'.incarnation uri → h.cpu uri ≤ h'.cpu uri) := by
  induction hl with
  | refl => exact ⟨le_rfl, fun _ => le_rfl⟩
  | tail _ hstep ih =>
    obtain ⟨hincarnation, hcpu⟩ := hstep.counts uri
    refine ⟨ih.1.trans hincarnation, ?_⟩
    intro he
    exact (ih.2 (by omega)).trans (hcpu (by omega))

variable {σ : Type}

/-- A call of `run_once`, each exchange with the host as it was then. -/
structure TimedCycle (σ : Type) where
  calls : List (Host × Exchange (Env σ))
  outcome : Except Exn DriverSnapshot

def TimedCycle.cycle (c : TimedCycle σ) : PollCycle σ := ⟨c.calls.map Prod.snd, c.outcome⟩

def TimedCycle.succeeded (c : TimedCycle σ) : Bool := c.cycle.succeeded

/-- A stats reply gives the counters of the moment, or leaves them out. -/
def Fits : Host × Exchange (Env σ) → Prop
  | (h, ⟨.stats uri, .ok stats⟩) =>
    (∀ n, stats.cpuTotalNs = some n → n = h.cpu uri) ∧
      ∀ n, stats.cpuSystemNs = some n → n = h.system
  | _ => True

/-- Time passes from call to call, and on the system's counter from cycle to cycle. -/
structure Timed (cs : List (TimedCycle σ)) : Prop where
  fits : ∀ c ∈ cs, ∀ x ∈ c.calls, Fits x
  within : ∀ c ∈ cs, c.calls.Pairwise fun x y => x.1.Later y.1
  between : cs.Pairwise fun c d => ∀ x ∈ c.calls, ∀ y ∈ d.calls,
    x.1.Later y.1 ∧ x.1.system < y.1.system

/-- The stats of an address were sampled in the cycle. -/
def Sampled (c : TimedCycle σ) (h : Host) (uri : Str) (stats : DriverContainerStats) : Prop :=
  (h, ⟨.stats uri, .ok stats⟩) ∈ c.calls

/-- Two cycles that succeeded, with none in between that did. -/
def Consecutive (cs : List (TimedCycle σ)) (ci cj : TimedCycle σ) : Prop :=
  ∃ first failed rest, cs = first ++ ci :: (failed ++ cj :: rest) ∧ ci.succeeded = true ∧
    cj.succeeded = true ∧ ∀ c ∈ failed, c.succeeded = false

/-- Both samples have both counters. -/
structure Counters (before now : DriverContainerStats) (t₀ s₀ t₁ s₁ : Int) : Prop where
  total₀ : before.cpuTotalNs = some t₀
  system₀ : before.cpuSystemNs = some s₀
  total₁ : now.cpuTotalNs = some t₁
  system₁ : now.cpuSystemNs = some s₁

/-- The increase of the container's counter over that of the system's, for all CPUs, in
percent. -/
def percentage (now : DriverContainerStats) (t₀ s₀ t₁ s₁ : Int) : Rat :=
  ((t₁ - t₀ : Int) : Rat) / ((s₁ - s₀ : Int) : Rat) * cpusOf now * 100

/-- The figure of the later of two samples is of one incarnation: none across a restart, and
the percentage otherwise. -/
def Unmixed (cs : List (TimedCycle σ)) : Prop :=
  ∀ ci cj uri h h' before now s, Consecutive cs ci cj → Sampled ci h uri before →
    Sampled cj h' uri now → cj.outcome = .ok s →
      ∀ o ∈ s.containers, o.details.resource.uri = uri →
        (h.incarnation uri ≠ h'.incarnation uri → o.cpuPercent = none) ∧
          (h.incarnation uri = h'.incarnation uri → ∀ t₀ s₀ t₁ s₁, Counters before now t₀ s₀ t₁ s₁ →
            o.cpuPercent = some (percentage now t₀ s₀ t₁ s₁))

/-- No container is restarted between two samples with both counters such that the later
counter is as high as the earlier one. -/
def RestartsShow (cs : List (TimedCycle σ)) : Prop :=
  ∀ ci cj uri h h' before now, Consecutive cs ci cj → Sampled ci h uri before →
    Sampled cj h' uri now → h.incarnation uri ≠ h'.incarnation uri →
      ∀ t₀ s₀ t₁ s₁, Counters before now t₀ s₀ t₁ s₁ → t₁ < t₀

/-! ## Samples and observations -/

/-- Every sample of an interaction is in one of the observations, with its figure. -/
def Accounted (baselines : Dict Str Baseline) (t : List (Exchange (Env σ)))
    (observations : List ContainerObservation) : Prop :=
  ∀ uri stats, (⟨.stats uri, .ok stats⟩ : Exchange (Env σ)) ∈ t → ∃ details cpu revision,
    (uri, .ok details) ∈ describes t ∧ ⟨details, some stats, cpu, revision⟩ ∈ observations ∧
      cpuPercent ((baselines.get? uri).bind Baseline.stats) (some stats) = .ok cpu

section Samples

variable {baselines : Dict Str Baseline} {observations more : List ContainerObservation}

theorem accounted_of_noStats {t : List (Exchange (Env σ))} (h : ∀ x ∈ t, NoStats x.1) :
    Accounted baselines t observations := by
  intro uri stats hm
  exact absurd rfl (h _ hm uri)

theorem Accounted.mono {t : List (Exchange (Env σ))} (h : Accounted baselines t observations)
    (hsub : observations ⊆ more) : Accounted baselines t more := by
  intro uri stats hm
  obtain ⟨details, cpu, revision, hd, ho, hcpu⟩ := h uri stats hm
  exact ⟨details, cpu, revision, hd, hsub ho, hcpu⟩

theorem Accounted.append {s t : List (Exchange (Env σ))} (hs : Accounted baselines s observations)
    (ht : Accounted baselines t observations) : Accounted baselines (s ++ t) observations := by
  intro uri stats hm
  rw [describes_append]
  cases List.mem_append.mp hm with
  | inl hm =>
    obtain ⟨details, cpu, revision, hd, hrest⟩ := hs uri stats hm
    exact ⟨details, cpu, revision, List.mem_append_left _ hd, hrest⟩
  | inr hm =>
    obtain ⟨details, cpu, revision, hd, hrest⟩ := ht uri stats hm
    exact ⟨details, cpu, revision, List.mem_append_right _ hd, hrest⟩

variable {r r' : DriverRunner σ}

theorem exec_sampleStats {uri : Str} {t : List (Exchange (Env σ))}
    {x : Option DriverContainerStats} (h : (sampleStats r uri).Exec t (.ok x)) {uri' : Str}
    {stats : DriverContainerStats} (hm : (⟨.stats uri', .ok stats⟩ : Exchange (Env σ)) ∈ t) :
    uri' = uri ∧ x = some stats := by
  unfold sampleStats at h
  split at h
  · obtain ⟨reply, s, rfl, hrest⟩ := exec_call_bind.mp h
    obtain ⟨rfl, hx⟩ := (Prog.exec_ofExcept _ _ _).mp hrest
    obtain ⟨rfl, rfl⟩ : uri' = uri ∧ .ok stats = reply := by simpa using hm
    exact ⟨rfl, Except.ok.inj hx⟩
  · obtain ⟨rfl, -⟩ := h
    cases hm

/-- The loop body on a described resource observes what it has sampled. -/
theorem exec_observeDetails {collectedAt : Str} {p p' : Progress} {uri : Str}
    {details : DriverResourceDetails} {t : List (Exchange (Env σ))}
    (h : (observeDetails r collectedAt p uri details).Exec t (.ok p')) {uri' : Str}
    {stats : DriverContainerStats} (hm : (⟨.stats uri', .ok stats⟩ : Exchange (Env σ)) ∈ t) :
    uri' = uri ∧ ∃ cpu revision, ⟨details, some stats, cpu, revision⟩ ∈ p'.observations ∧
      cpuPercent ((r.baselines.get? uri).bind Baseline.stats) (some stats) = .ok cpu := by
  obtain ⟨t₁, t₂, sampled, rfl, hstats, h⟩ := Prog.exec_bind_ok.mp h
  obtain ⟨t₂, t₃, revision, rfl, hrevision, h⟩ := Prog.exec_bind_ok.mp h
  obtain ⟨t₃, t₄, cpu, rfl, hcpu, h⟩ := Prog.exec_bind_ok.mp h
  obtain ⟨t₄, t₅, event, rfl, hevent, hend⟩ := Prog.exec_bind_ok.mp h
  obtain ⟨rfl, hfigure⟩ := (Prog.exec_ofExcept _ _ _).mp hcpu
  obtain ⟨rfl, hout⟩ := hend
  obtain rfl := Except.ok.inj hout
  -- of the parts of the loop body only the first samples anything
  have hrest₂ := (allCalls_sampleRevision (P := NoStats) uri (by simp [NoStats])).of_exec hrevision
  have hrest₄ := (allCalls_detectEvent (P := NoStats) _ details collectedAt
    (by simp [NoStats])).of_exec hevent
  have hm₁ : (⟨.stats uri', .ok stats⟩ : Exchange (Env σ)) ∈ t₁ := by
    simp only [List.nil_append, List.append_nil, List.mem_append] at hm
    rcases hm with hm | hm | hm
    · exact hm
    · exact absurd rfl (hrest₂ _ hm uri')
    · exact absurd rfl (hrest₄ _ hm uri')
  obtain ⟨rfl, rfl⟩ := exec_sampleStats hstats hm₁
  exact ⟨rfl, cpu, revision, by simp, hfigure.symm⟩

theorem exec_observe {collectedAt : Str} {p p' : Progress} {resource : DriverResource}
    {t : List (Exchange (Env σ))} (h : (observe r collectedAt p resource).Exec t (.ok p')) :
    Accounted r.baselines t p'.observations := by
  obtain ⟨described, t, rfl, hbody⟩ := exec_call_bind.mp h
  intro uri stats hm
  cases described with
  | ok details =>
    have hm' : (⟨.stats uri, .ok stats⟩ : Exchange (Env σ)) ∈ t := by simpa using hm
    obtain ⟨rfl, cpu, revision, hobserved, hcpu⟩ := exec_observeDetails hbody hm'
    exact ⟨details, cpu, revision, List.mem_cons_self, hobserved, hcpu⟩
  | error e =>
    by_cases he : e.isResourceNotFound = true
    · simp only [he, if_true] at hbody
      obtain ⟨rfl, -⟩ := hbody
      simp at hm
    · simp only [he] at hbody
      cases hbody.2

theorem exec_observeAll {collectedAt : Str} {resources : List DriverResource} {p p' : Progress}
    {t : List (Exchange (Env σ))} (h : (observeAll r collectedAt p resources).Exec t (.ok p')) :
    Accounted r.baselines t p'.observations := by
  induction resources generalizing p t with
  | nil =>
    obtain ⟨rfl, -⟩ := h
    exact accounted_of_noStats (by simp)
  | cons resource rest ih =>
    obtain ⟨t₁, t₂, q, rfl, hq, hrest⟩ := Prog.exec_bind_ok.mp h
    obtain ⟨-, visits, -, hp'⟩ := exec_observeAll_ok hrest
    have hsub : q.observations ⊆ p'.observations := by
      rw [hp']
      exact List.subset_append_left _ _
    exact ((exec_observe hq).mono hsub).append (ih hrest)

/-- A completed poll accounts for all that was sampled in it. -/
theorem accounted_of_poll {collectedAt : Str} {progress : Progress} {t : List (Exchange (Env σ))}
    (h : (poll r).Exec t (.ok (collectedAt, progress))) :
    Accounted r.baselines t progress.observations := by
  obtain ⟨now, t, rfl, hquery⟩ := exec_call_bind.mp h
  obtain ⟨listed, t, rfl, hloop⟩ := exec_call_bind.mp hquery
  obtain ⟨_, t, resources, rfl, hresources, hwalk⟩ := Prog.exec_bind_ok.mp hloop
  obtain ⟨t, _, gathered, rfl, hall, hend⟩ := Prog.exec_bind_ok.mp hwalk
  obtain ⟨rfl, rfl⟩ := (Prog.exec_ofExcept _ _ _).mp hresources
  obtain ⟨rfl, hout⟩ := hend
  obtain ⟨rfl, rfl⟩ := Prod.mk.inj (Except.ok.inj hout)
  have hfirst : Accounted r.baselines
      [(⟨.now, collectedAt⟩ : Exchange (Env σ)), ⟨.query (.all .container), .ok resources⟩]
      progress.observations := accounted_of_noStats (by simp [NoStats])
  rw [List.nil_append, List.append_nil]
  exact hfirst.append (exec_observeAll hall)

/-- So does a snapshot that is collected, whatever is asked of the host. -/
theorem accounted_of_collect {t : List (Exchange (Env σ))} {s : DriverSnapshot}
    (h : (collect r).Exec t (.ok (.ok s, r'))) : Accounted r.baselines t s.containers := by
  obtain ⟨t₁, t₂, polled, rfl, hpoll, hbody⟩ := Prog.exec_attempt_bind.mp h
  cases polled with
  | error e => cases (Prod.mk.inj (Except.ok.inj hbody.2)).1
  | ok gathered =>
    obtain ⟨collectedAt, progress⟩ := gathered
    obtain ⟨t₃, t₄, host, rfl, hmetrics, hend⟩ := Prog.exec_attempt_bind.mp hbody
    obtain ⟨rfl, hout⟩ := hend
    have hobservations : s.containers = progress.observations := by
      cases host with
      | ok metrics => rw [Except.ok.inj (Prod.mk.inj (Except.ok.inj hout)).1]
      | error e => cases (Prod.mk.inj (Except.ok.inj hout)).1
    have hcollector := (allCalls_collectHost (P := NoStats) (by simp [NoStats])).of_exec hmetrics
    rw [List.append_nil, hobservations]
    exact (accounted_of_poll hpoll).append (accounted_of_noStats hcollector)

/-- The snapshot of a cycle accounts for all that was sampled in it. -/
theorem accounted_of_runOnce {t : List (Exchange (Env σ))} {s : DriverSnapshot}
    (h : (runOnce r).Exec t (.ok (.ok s, r'))) : Accounted r.baselines t s.containers := by
  obtain ⟨t₁, t₂, ⟨collected, q⟩, rfl, hcollect, hrest⟩ := Prog.exec_bind_ok.mp h
  cases collected with
  | error e => cases (Except.ok.inj hrest.2)
  | ok snapshot =>
    obtain ⟨t₃, t₄, result, rfl, hpublish, hend⟩ := Prog.exec_attempt_bind.mp hrest
    obtain ⟨rfl, hout⟩ := hend
    have hsnapshot : snapshot = s := by
      cases result with
      | ok u => exact (Except.ok.inj (Prod.mk.inj (Except.ok.inj hout)).1).symm
      | error e => cases (Prod.mk.inj (Except.ok.inj hout)).1
    subst hsnapshot
    have hsinks := (allCalls_publishAll (P := NoStats) snapshot q.sinks
      (by simp [NoStats])).of_exec hpublish
    rw [List.append_nil]
    exact (accounted_of_collect hcollect).append (accounted_of_noStats hsinks)

end Samples

/-! ## Figures -/

section Figures

variable {before now : DriverContainerStats} {x : Option Rat}

/-- Without all four counters there is no figure. -/
theorem cpuPercent_of_no_counters (h : cpuPercent (some before) (some now) = .ok x)
    (hnone : ∀ t₀ s₀ t₁ s₁, ¬ Counters before now t₀ s₀ t₁ s₁) : x = none := by
  cases ht₀ : before.cpuTotalNs with
  | none => simpa [cpuPercent, ht₀] using h.symm
  | some t₀ =>
    cases hs₀ : before.cpuSystemNs with
    | none => simpa [cpuPercent, ht₀, hs₀] using h.symm
    | some s₀ =>
      cases ht₁ : now.cpuTotalNs with
      | none => simpa [cpuPercent, ht₀, hs₀, ht₁] using h.symm
      | some t₁ =>
        cases hs₁ : now.cpuSystemNs with
        | none => simpa [cpuPercent, ht₀, hs₀, ht₁, hs₁] using h.symm
        | some s₁ => exact absurd ⟨ht₀, hs₀, ht₁, hs₁⟩ (hnone t₀ s₀ t₁ s₁)

/-- With the system's counter increased, the figure depends on the container's: none if it
has decreased, and the percentage otherwise. -/
theorem cpuPercent_of_counters (h : cpuPercent (some before) (some now) = .ok x)
    {t₀ s₀ t₁ s₁ : Int} (hc : Counters before now t₀ s₀ t₁ s₁) (hs : s₀ < s₁) :
    x = if t₁ < t₀ then none else some (percentage now t₀ s₀ t₁ s₁) := by
  simp only [cpuPercent, hc.total₀, hc.system₀, hc.total₁, hc.system₁] at h
  by_cases hreset : t₁ < t₀
  · rw [if_pos (by omega)] at h
    rw [if_pos hreset]
    exact (Except.ok.inj h).symm
  · rw [if_neg (by omega)] at h
    rw [if_neg hreset]
    obtain ⟨ratio, hratio, h⟩ := Base.bind_ok_iff.mp h
    obtain ⟨cpus, hcpus, h⟩ := Base.bind_ok_iff.mp h
    obtain rfl : ((t₁ - t₀ : Int) : Rat) / ((s₁ - s₀ : Int) : Rat) = ratio := by
      unfold trueDivide at hratio
      split at hratio
      · cases hratio
      · exact Except.ok.inj hratio
    obtain rfl : (cpusOf now : Rat) = cpus := by
      unfold toDouble at hcpus
      split at hcpus
      · cases hcpus
      · exact Except.ok.inj hcpus
    exact (Except.ok.inj h).symm

end Figures

section Cycles

variable {r r' : DriverRunner σ} {cs : List (TimedCycle σ)} {c ci cj : TimedCycle σ}
  {s : DriverSnapshot} {uri : Str} {host h h' : Host} {before now : DriverContainerStats}

/-- A snapshot has one observation for an address at most. -/
theorem nodup_uris {c : PollCycle σ} (h : (runOnce r).Exec c.trace (.ok (c.outcome, r')))
    (hc : c.Regular) (hs : c.outcome = .ok s) :
    (s.containers.map fun o => o.details.resource.uri).Nodup := by
  cases exec_runOnce h hc.contained with
  | inl hfail =>
    obtain ⟨e, he, -⟩ := hfail
    rw [hs] at he
    cases he
  | inr hdone =>
    obtain ⟨collectedAt, resources, visits, hostMetrics, hlist, hsurvey, hout, -, -⟩ := hdone
    obtain rfl := Except.ok.inj (hs.symm.trans hout)
    have hnodup := nodup_visits hsurvey (hc.distinct resources (by simp [hlist]))
    have huris : visits.map Visit.uri =
        (visits.map Visit.observation).map fun o => o.details.resource.uri := by
      rw [List.map_map]
      apply List.map_congr_left
      intro v hv
      exact (uri_details hsurvey hc.addressed hv).symm
    exact huris ▸ hnodup

/-- One step: the observation of an address that was sampled has the sample, and the figure
that it makes with the baseline. -/
theorem observation_of_sampled (hstep : (runOnce r).Exec c.cycle.trace (.ok (c.cycle.outcome, r')))
    (hc : c.cycle.Regular) (hs : c.outcome = .ok s) (hsample : Sampled c host uri now) :
    ∃ o ∈ s.containers, o.details.resource.uri = uri ∧ o.stats = some now ∧
      cpuPercent ((r.baselines.get? uri).bind Baseline.stats) (some now) = .ok o.cpuPercent := by
  have hstep' : (runOnce r).Exec c.cycle.trace (.ok (.ok s, r')) := hs ▸ hstep
  have hmem : (⟨.stats uri, .ok now⟩ : Exchange (Env σ)) ∈ c.cycle.trace :=
    List.mem_map.mpr ⟨_, hsample, rfl⟩
  obtain ⟨details, cpu, revision, hdescribed, hobserved, hcpu⟩ :=
    accounted_of_runOnce hstep' uri now hmem
  have hreturned : (uri, details) ∈ returned (describes c.cycle.trace) :=
    List.mem_filterMap.mpr ⟨_, hdescribed, rfl⟩
  exact ⟨_, hobserved, hc.addressed _ hreturned, rfl, hcpu⟩

theorem exists_outcome (h : c.succeeded = true) : ∃ s, c.outcome = .ok s := by
  cases hout : c.outcome with
  | error e =>
    simp [TimedCycle.succeeded, TimedCycle.cycle, PollCycle.succeeded, hout, Except.isOk,
      Except.toBool] at h
  | ok s => exact ⟨s, rfl⟩

/-- Two steps with failures in between: the figure is made of the two samples. -/
theorem cpuPercent_of_consecutive (hrun : Run r (cs.map TimedCycle.cycle) r')
    (hc : ∀ c ∈ cs, c.cycle.Regular) (hcs : Consecutive cs ci cj) (hi : Sampled ci h uri before)
    (hj : Sampled cj h' uri now) (hs : cj.outcome = .ok s) :
    ∃ o ∈ s.containers, o.details.resource.uri = uri ∧
      (∀ p ∈ s.containers, p.details.resource.uri = uri → p = o) ∧
      cpuPercent (some before) (some now) = .ok o.cpuPercent := by
  obtain ⟨first, failed, rest, rfl, hsi, -, hfailed⟩ := hcs
  have hci := hc ci (by simp)
  have hcj := hc cj (by simp)
  rw [List.map_append, List.map_cons, List.map_append, List.map_cons] at hrun
  obtain ⟨_, -, htail⟩ := hrun.split
  cases htail with
  | cons hstepi htail =>
    obtain ⟨_, hmid, htail⟩ := htail.split
    cases htail with
    | cons hstepj _ =>
      -- the baselines that the first cycle leaves outlive the failures
      obtain rfl := hmid.failed
        (by simpa using fun c hm => (hc c (by simp [hm])).contained) (List.forall_mem_map.mpr hfailed)
      obtain ⟨si, hout⟩ := exists_outcome hsi
      obtain ⟨hremembers, -⟩ := step_succeeded hstepi hci hout
      obtain ⟨a, ha, hauri, hastats, -⟩ := observation_of_sampled hstepi hci hout hi
      have hbaseline := hremembers.1 a ha
      obtain ⟨o, ho, houri, -, hcpu⟩ := observation_of_sampled hstepj hcj hs hj
      rw [← hauri, hbaseline, Option.bind_some, hastats] at hcpu
      refine ⟨o, ho, houri, ?_, hcpu⟩
      intro p hp hpuri
      exact List.inj_on_of_nodup_map (nodup_uris hstepj hcj hs) hp ho (hpuri.trans houri.symm)

/-- Time passes between two consecutive cycles. -/
theorem Timed.consecutive (ht : Timed cs) (hcs : Consecutive cs ci cj)
    (hi : Sampled ci h uri before) (hj : Sampled cj h' uri now) :
    h.Later h' ∧ h.system < h'.system := by
  obtain ⟨first, failed, rest, rfl, -, -, -⟩ := hcs
  have hlater : cj ∈ failed ++ cj :: rest := by simp
  exact List.rel_of_pairwise_cons (List.pairwise_append.mp ht.between).2.1 hlater _ hi _ hj

/-- The counters of two consecutive samples are those of the host. -/
theorem Timed.counters (ht : Timed cs) (hcs : Consecutive cs ci cj) (hi : Sampled ci h uri before)
    (hj : Sampled cj h' uri now) {t₀ s₀ t₁ s₁ : Int} (hcounters : Counters before now t₀ s₀ t₁ s₁) :
    s₀ < s₁ ∧ (h.incarnation uri = h'.incarnation uri → t₀ ≤ t₁) := by
  obtain ⟨hlater, hsystem⟩ := ht.consecutive hcs hi hj
  obtain ⟨first, failed, rest, rfl, -, -, -⟩ := hcs
  obtain ⟨htotal₀, hsystem₀⟩ := ht.fits ci (by simp) _ hi
  obtain ⟨htotal₁, hsystem₁⟩ := ht.fits cj (by simp) _ hj
  have hcpu := (hlater.counts uri).2
  have h₁ := htotal₀ _ hcounters.total₀
  have h₂ := hsystem₀ _ hcounters.system₀
  have h₃ := htotal₁ _ hcounters.total₁
  have h₄ := hsystem₁ _ hcounters.system₁
  constructor
  · omega
  · intro he
    have := hcpu he
    omega

end Cycles

/-! ## A restart that does not show -/

def sampledStats (total system : Int) : DriverContainerStats where
  uri := ['a']
  readAt := none
  cpuTotalNs := some total
  cpuSystemNs := some system
  onlineCpus := none
  memoryUsageBytes := none
  memoryLimitBytes := none
  networkRxBytes := none
  networkTxBytes := none
  blockReadBytes := none
  blockWriteBytes := none

def sampledSnapshot (stats : DriverContainerStats) (cpu : Option Rat) : DriverSnapshot :=
  ⟨[], [], [⟨plainDetails ['a'], some stats, cpu, none⟩], [], []⟩

def hostBefore : Host := ⟨fun _ => 0, fun _ => 10, 100⟩

/-- The container is restarted and has then used more than before. -/
def hostAfter : Host where
  incarnation := Function.update hostBefore.incarnation ['a'] 1
  cpu := Function.update (Function.update hostBefore.cpu ['a'] 0) ['a'] 20
  system := 200

theorem someSink : [()] ≠ [] := List.cons_ne_nil () []

def hiddenRunner : DriverRunner Unit := ⟨[()], someSink, [], false, 50, true, false, Dict.empty⟩

/-- One sample of either incarnation, with a figure for both together. -/
def hiddenRun : List (TimedCycle Unit) :=
  [cycle hostBefore (sampledStats 10 100) none, cycle hostAfter (sampledStats 20 200) (some 10)]
where
  cycle (host : Host) (stats : DriverContainerStats) (cpu : Option Rat) : TimedCycle Unit :=
    ⟨[(host, ⟨.now, []⟩), (host, ⟨.query (.all .container), .ok [plainContainer ['a']]⟩),
        (host, ⟨.describe ['a'], .ok (plainDetails ['a'])⟩), (host, ⟨.stats ['a'], .ok stats⟩),
        (host, ⟨.publish () (sampledSnapshot stats cpu), .ok ()⟩)],
      .ok (sampledSnapshot stats cpu)⟩

theorem later_hostAfter : hostBefore.Later hostAfter :=
  ((Relation.ReflTransGen.single (.restart hostBefore ['a'])).tail (.burn _ ['a'] 20)).tail
    (.tick _ 100)

/-- A cycle of the run, for the baselines that it starts from. -/
theorem exec_hiddenRun (baselines : Dict Str Baseline) (host : Host) (stats : DriverContainerStats)
    (cpu : Option Rat)
    (hevent : eventKind (baselines.get? ['a']) (plainDetails ['a']) = none)
    (hcpu : cpuPercent ((baselines.get? ['a']).bind Baseline.stats) (some stats) = .ok cpu) :
    (runOnce { hiddenRunner with baselines := baselines }).Exec
      (hiddenRun.cycle host stats cpu).cycle.trace
      (.ok ((hiddenRun.cycle host stats cpu).cycle.outcome,
        { hiddenRunner with baselines := Dict.ofList [(['a'], ⟨none, none, some stats⟩)] })) := by
  let r : DriverRunner Unit := { hiddenRunner with baselines := baselines }
  let p : Progress := ⟨[⟨plainDetails ['a'], some stats, cpu, none⟩], [],
    Dict.ofList [(['a'], ⟨none, none, some stats⟩)]⟩
  have hdetect : (detectEvent r (baselines.get? ['a']) (plainDetails ['a']) []).Exec [] (.ok none) := by
    unfold detectEvent
    rw [hevent]
    exact ⟨rfl, rfl⟩
  have hdetails : (observeDetails r [] ⟨[], [], Dict.empty⟩ ['a'] (plainDetails ['a'])).Exec
      [⟨.stats ['a'], .ok stats⟩] (.ok p) := by
    have hsample : (sampleStats r ['a']).Exec [⟨.stats ['a'], .ok stats⟩] (.ok (some stats)) :=
      exec_call_bind.mpr ⟨.ok stats, [], rfl, rfl, rfl⟩
    refine Prog.exec_bind_ok.mpr ⟨_, [], some stats, rfl, hsample, ?_⟩
    refine Prog.exec_bind_ok.mpr ⟨[], [], none, rfl, ⟨rfl, rfl⟩, ?_⟩
    refine Prog.exec_bind_ok.mpr ⟨[], [], cpu, rfl, (Prog.exec_ofExcept _ _ _).mpr ⟨rfl, hcpu.symm⟩, ?_⟩
    exact Prog.exec_bind_ok.mpr ⟨[], [], none, rfl, hdetect, rfl, rfl⟩
  have hpoll : (poll r).Exec [⟨.now, []⟩, ⟨.query (.all .container), .ok [plainContainer ['a']]⟩,
      ⟨.describe ['a'], .ok (plainDetails ['a'])⟩, ⟨.stats ['a'], .ok stats⟩] (.ok ([], p)) := by
    refine exec_call_bind.mpr ⟨_, _, rfl, exec_call_bind.mpr ⟨_, _, rfl, ?_⟩⟩
    refine Prog.exec_bind_ok.mpr ⟨[], _, _, rfl, ⟨rfl, rfl⟩, ?_⟩
    refine Prog.exec_bind_ok.mpr ⟨_, [], p, (List.append_nil _).symm, ?_, rfl, rfl⟩
    refine Prog.exec_bind_ok.mpr ⟨_, [], p, (List.append_nil _).symm, ?_, rfl, rfl⟩
    exact exec_call_bind.mpr ⟨_, _, rfl, hdetails⟩
  have hcollect : (collect r).Exec [⟨.now, []⟩, ⟨.query (.all .container), .ok [plainContainer ['a']]⟩,
      ⟨.describe ['a'], .ok (plainDetails ['a'])⟩, ⟨.stats ['a'], .ok stats⟩]
      (.ok (.ok (sampledSnapshot stats cpu), { r with baselines := p.newBaselines })) := by
    refine Prog.exec_attempt_bind.mpr ⟨_, [], .ok ([], p), (List.append_nil _).symm, hpoll, ?_⟩
    exact Prog.exec_bind_ok.mpr ⟨[], [], .ok [], rfl, ⟨rfl, rfl⟩, rfl, rfl⟩
  have hpublish : (publishAll (sampledSnapshot stats cpu) [()]).Exec
      [⟨.publish () (sampledSnapshot stats cpu), .ok ()⟩] (.ok ()) :=
    exec_call_bind.mpr ⟨.ok (), [], rfl, rfl, rfl⟩
  refine Prog.exec_bind_ok.mpr ⟨_, _, _, rfl, hcollect, ?_⟩
  exact Prog.exec_attempt_bind.mpr ⟨_, [], .ok (), rfl, hpublish, rfl, rfl⟩

theorem run_hiddenRun : ∃ r, Run hiddenRunner (hiddenRun.map TimedCycle.cycle) r := by
  have hcpu : cpuPercent (some (sampledStats 10 100)) (some (sampledStats 20 200)) = .ok (some 10) := by
    decide +kernel
  exact ⟨_, .cons (exec_hiddenRun Dict.empty _ _ none rfl rfl)
    (.cons (exec_hiddenRun _ _ _ _ rfl hcpu) (.nil _))⟩

theorem regular_hiddenRun : ∀ c ∈ hiddenRun, c.cycle.Regular := by
  intro c hc
  constructor <;>
    simp only [hiddenRun, List.mem_cons, List.not_mem_nil, or_false] at hc <;>
    obtain rfl | rfl := hc <;>
    simp [hiddenRun.cycle, TimedCycle.cycle, listings, describes, returned, Contained, plainDetails,
      plainContainer, Except.toOption]

theorem host_hiddenRun {host : Host} {stats : DriverContainerStats} {cpu : Option Rat} :
    ∀ x ∈ (hiddenRun.cycle host stats cpu).calls, x.1 = host := by
  simp [hiddenRun.cycle]

theorem timed_hiddenRun : Timed hiddenRun := by
  constructor
  · intro c hc
    simp only [hiddenRun, List.mem_cons, List.not_mem_nil, or_false] at hc
    obtain rfl | rfl := hc <;>
      simp [hiddenRun.cycle, Fits, sampledStats, hostBefore, hostAfter]
  · intro c hc
    simp only [hiddenRun, List.mem_cons, List.not_mem_nil, or_false] at hc
    obtain rfl | rfl := hc <;>
      simp [hiddenRun.cycle, Host.Later, Relation.ReflTransGen.refl]
  · apply List.pairwise_pair.mpr
    intro x hx y hy
    rw [host_hiddenRun x hx, host_hiddenRun y hy]
    exact ⟨later_hostAfter, by simp [hostBefore, hostAfter]⟩

end MiraDriver.Incarnations
