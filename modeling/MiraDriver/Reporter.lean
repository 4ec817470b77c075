import MiraDriver.Lifecycle
import MiraDriver.Failures

/-!
# The reporter over the Docker driver

A run of the report loop in which the driver is a `DockerDriver`: whatever it replies is
the outcome of one of its operations on some exchange with the daemon. Only the CPU
percentage can then end the process.
-/
namespace MiraDriver.Reporter

open MiraDriver.Text MiraDriver.Mapping MiraDriver.Base MiraDriver.Program MiraDriver.Document
  MiraDriver.Http MiraDriver.Runner MiraDriver.Cycle MiraDriver.Lifecycle MiraDriver.Failures

variable {σ : Type}

/-- A call of the runner with its reply, and the exchanges between the Docker driver and the daemon
behind it. The outcome of `revision` is free but for the class of its exceptions. -/
def Serves [Python] [Loads] (reference : Str) : Exchange (Env σ) → List (Exchange http) → Prop
  | ⟨.query q, reply⟩, t => (Docker.query reference q).Exec t reply
  | ⟨.describe uri, reply⟩, t => (Docker.describe reference uri).Exec t reply
  | ⟨.stats uri, reply⟩, t => (Docker.stats reference uri).Exec t reply
  | ⟨.logs uri tail, reply⟩, t => (Docker.logs reference uri tail).Exec t reply
  | ⟨.revision _, reply⟩, t => t = [] ∧ Expected reply
  | x, t => t = [] ∧ Contained x

/-- A reply as the Docker driver gives it, for whatever the daemon answers. -/
def FromDocker [Python] [Loads] (reference : Str) (x : Exchange (Env σ)) : Prop := ∃ t, Serves reference x t

/-- A reply of a driver that raises nothing but `DriverError`s. -/
def Reliable : Exchange (Env σ) → Prop
  | ⟨.query _, reply⟩ => Expected reply
  | ⟨.describe _, reply⟩ => Expected reply
  | ⟨.stats _, reply⟩ => Expected reply
  | ⟨.revision _, reply⟩ => Expected reply
  | ⟨.logs _ _, reply⟩ => Expected reply
  | x => Contained x

/-- The driver is as reliable as the parsers are on what the daemon sends. -/
theorem reliable_iff_of_serves [Python] [Loads] {reference : Str} {x : Exchange (Env σ)}
    {t : List (Exchange http)} (h : Serves reference x t) : Reliable x ↔ ∀ y ∈ t, Parses y := by
  have hidle {good : Prop} (h : t = [] ∧ good) : good ↔ ∀ y ∈ t, Parses y :=
    iff_of_true h.2 (by simp [h.1])
  obtain ⟨c, reply⟩ := x
  cases c with
  | query q => exact safe_query reference q t reply h
  | describe uri => exact safe_describe reference uri t reply h
  | stats uri => exact safe_stats reference uri t reply h
  | logs uri tail => exact safe_logs reference uri tail t reply h
  | revision uri => exact hidle h
  | now => exact hidle h
  | collect => exact hidle h
  | publish sink snapshot => exact hidle h

theorem contained_of_reliable {x : Exchange (Env σ)} (h : Reliable x) : Contained x := by
  obtain ⟨c, reply⟩ := x
  cases c <;> first | exact h | trivial

theorem contained_of_serves [Python] [Loads] {reference : Str} {x : Exchange (Env σ)}
    {t : List (Exchange http)} (h : Serves reference x t) : Contained x := by
  obtain ⟨c, reply⟩ := x
  cases c <;> first | exact h.2 | trivial

/-- The quotient of the increases of the two counters, and the number of CPUs, are within
the range of a double, or are not needed. -/
def Fits (previous : Option DriverContainerStats) (current : DriverContainerStats) : Prop :=
  ∀ p ∈ previous, ∀ total ∈ p.cpuTotalNs, ∀ system ∈ p.cpuSystemNs,
    ∀ total' ∈ current.cpuTotalNs, ∀ system' ∈ current.cpuSystemNs,
    total ≤ total' → system < system' →
    total' - total < doubleLimit * (system' - system) ∧ (cpusOf current).natAbs < doubleLimit

theorem trueDivide_eq {a b : Int} (ha : 0 ≤ a) (hb : 0 < b) :
    trueDivide a b = if a < doubleLimit * b then .ok (a / b) else .error .overflowError := by
  have hlimit : a.natAbs ≥ doubleLimit * b.natAbs ↔ ¬ a < doubleLimit * b := by
    rw [not_lt, ge_iff_le, ← Int.ofNat_le, Int.natCast_mul, Int.natAbs_of_nonneg ha,
      Int.natAbs_of_nonneg hb.le]
  by_cases h : a < doubleLimit * b
  · rw [if_pos h]
    exact if_neg fun hge => hlimit.mp hge h
  · rw [if_neg h]
    exact if_pos (hlimit.mpr h)

theorem not_expected_overflowError {α : Type} : ¬ Expected (.error .overflowError : Except Exn α) := by
  intro h
  cases h _ rfl

/-- The CPU percentage raises exactly where a number does not fit. -/
theorem expected_cpuPercent_iff (previous : Option DriverContainerStats)
    (current : DriverContainerStats) :
    Expected (cpuPercent previous (some current)) ↔ Fits previous current := by
  cases previous with
  | none => simp [cpuPercent, Fits, expected_ok]
  | some p =>
    simp only [cpuPercent, Fits, Option.mem_def, Option.some.injEq, forall_eq']
    cases p.cpuTotalNs with
    | none => simp [expected_ok]
    | some total =>
      cases p.cpuSystemNs with
      | none => simp [expected_ok]
      | some system =>
        cases current.cpuTotalNs with
        | none => simp [expected_ok]
        | some total' =>
          cases current.cpuSystemNs with
          | none => simp [expected_ok]
          | some system' =>
            simp only [Option.some.injEq, forall_eq']
            by_cases hreset : total' - total < 0 ∨ system' - system ≤ 0
            · rw [if_pos hreset]
              constructor
              · intro _ htotal hsystem
                omega
              · intro _
                exact expected_ok none
            · have htotal : 0 ≤ total' - total := by omega
              have hsystem : 0 < system' - system := by omega
              rw [if_neg hreset, trueDivide_eq htotal hsystem, toDouble]
              by_cases hratio : total' - total < doubleLimit * (system' - system)
              · by_cases hcpus : (cpusOf current).natAbs < doubleLimit
                · rw [if_pos hratio, if_neg (not_le.mpr hcpus)]
                  exact ⟨fun _ _ _ => ⟨hratio, hcpus⟩, fun _ => expected_ok _⟩
                · rw [if_pos hratio, if_pos (not_lt.mp hcpus)]
                  constructor
                  · intro h
                    exact (not_expected_overflowError h).elim
                  · intro h
                    exact (hcpus (h (by omega) (by omega)).2).elim
              · rw [if_neg hratio]
                constructor
                · intro h
                  exact (not_expected_overflowError h).elim
                · intro h
                  exact (hratio (h (by omega) (by omega)).1).elim

/-- Every sample of an interaction fits what the baselines hold. -/
def CountersFit (baselines : Dict Str Baseline) (t : List (Exchange (Env σ))) : Prop :=
  ∀ uri stats, (⟨.stats uri, .ok stats⟩ : Exchange (Env σ)) ∈ t →
    Fits ((baselines.get? uri).bind Baseline.stats) stats

variable {baselines : Dict Str Baseline}

theorem countersFit_append {s t : List (Exchange (Env σ))} :
    CountersFit baselines (s ++ t) ↔ CountersFit baselines s ∧ CountersFit baselines t := by
  constructor
  · intro h
    exact ⟨fun uri stats hm => h uri stats (List.mem_append_left _ hm),
      fun uri stats hm => h uri stats (List.mem_append_right _ hm)⟩
  · intro h uri stats hm
    cases List.mem_append.mp hm with
    | inl hm => exact h.1 uri stats hm
    | inr hm => exact h.2 uri stats hm

/-- Calls that sample no statistics. -/
def NoStats (c : Call σ) : Prop := ∀ uri, c ≠ .stats uri

theorem countersFit_of_noStats {t : List (Exchange (Env σ))} (h : ∀ x ∈ t, NoStats x.1) :
    CountersFit baselines t := by
  intro uri stats hm
  exact absurd rfl (h _ hm uri)

/-- The samples of an interaction fit, and the driver raises nothing but `DriverError`s in it. -/
structure Sound (baselines : Dict Str Baseline) (t : List (Exchange (Env σ))) : Prop where
  fits : CountersFit baselines t
  reliable : ∀ x ∈ t, Reliable x

theorem sound_nil : Sound baselines ([] : List (Exchange (Env σ))) :=
  ⟨countersFit_of_noStats (by simp), by simp⟩

theorem sound_append {s t : List (Exchange (Env σ))} :
    Sound baselines (s ++ t) ↔ Sound baselines s ∧ Sound baselines t := by
  constructor
  · rintro ⟨hfits, hreliable⟩
    obtain ⟨hs, ht⟩ := countersFit_append.mp hfits
    obtain ⟨hs', ht'⟩ := List.forall_mem_append.mp hreliable
    exact ⟨⟨hs, hs'⟩, ht, ht'⟩
  · rintro ⟨⟨hs, hs'⟩, ht, ht'⟩
    exact ⟨countersFit_append.mpr ⟨hs, ht⟩, List.forall_mem_append.mpr ⟨hs', ht'⟩⟩

theorem sound_cons_iff {x : Exchange (Env σ)} {t : List (Exchange (Env σ))} (hx : NoStats x.1) :
    Sound baselines (x :: t) ↔ Reliable x ∧ Sound baselines t := by
  rw [← List.singleton_append, sound_append]
  refine and_congr_left fun _ => ?_
  constructor
  · intro h
    exact h.reliable x List.mem_cons_self
  · intro h
    exact ⟨countersFit_of_noStats (by simpa using hx), by simpa using h⟩

/-- A part of a cycle in which nothing is asked of the driver. -/
theorem sound_of_idle {t : List (Exchange (Env σ))} (hc : ∀ x ∈ t, Contained x)
    (h : ∀ x ∈ t, x.1 = .collect ∨ ∃ sink snapshot, x.1 = .publish sink snapshot) : Sound baselines t := by
  constructor
  · apply countersFit_of_noStats
    intro x hx uri hcall
    rcases h x hx with hcollect | ⟨sink, snapshot, hpublish⟩
    · cases hcollect.symm.trans hcall
    · cases hpublish.symm.trans hcall
  · rintro ⟨c, reply⟩ hx
    rcases h _ hx with rfl | ⟨sink, snapshot, rfl⟩
    · exact hc _ hx
    · exact hc _ hx

/-- There is a value where things are as they should be, and else an exception that ends the
process. -/
def Tolerates {α : Type} (good : Prop) (x : Except Exn α) : Prop :=
  (∃ a, x = .ok a ∧ good) ∨ ∃ e, x = .error e ∧ e.isDriverError = false ∧ ¬ good

theorem tolerates_tolerate {α : Type} (fallback : α) (reply : Except Exn α) :
    Tolerates (Expected reply) (tolerate fallback reply) := by
  cases reply with
  | ok a => exact .inl ⟨a, rfl, expected_ok a⟩
  | error e =>
    cases he : e.isDriverError with
    | true => exact .inl ⟨fallback, if_pos he, expected_error he⟩
    | false =>
      refine .inr ⟨e, if_neg (by rw [he]; exact Bool.false_ne_true), he, ?_⟩
      intro h
      rw [h e rfl] at he
      cases he

theorem not_expected_error {α : Type} {e : Exn} (h : e.isDriverError = false) :
    ¬ Expected (.error e : Except Exn α) := by
  intro he
  rw [he e rfl] at h
  cases h

theorem expected_map_iff {α β : Type} {x : Except Exn α} (f : α → β) : Expected (x.map f) ↔ Expected x := by
  cases x with
  | ok a => exact iff_of_true (expected_ok _) (expected_ok a)
  | error e => exact ⟨fun h => expected_error (h e rfl), fun h => expected_error (h e rfl)⟩

variable {r : DriverRunner σ} {t : List (Exchange (Env σ))}

/-- A reply that is tolerated is sound if its call samples no statistics. -/
theorem tolerates_of_exec {α : Type} {c : Call σ} {f : Runner.Reply c → Except Exn α} {fallback : α} {x : Except Exn α}
    (hc : NoStats c) (hreply : ∀ reply, Expected (f reply) ↔ Reliable (⟨c, reply⟩ : Exchange (Env σ)))
    (h : (call c >>= fun reply => Prog.ofExcept (tolerate fallback (f reply))).Exec t x) :
    Tolerates (Sound baselines t) x := by
  obtain ⟨reply, s, rfl, hrest⟩ := exec_call_bind.mp h
  obtain ⟨rfl, rfl⟩ := (Prog.exec_ofExcept _ _ _).mp hrest
  have hsound : Sound baselines [(⟨c, reply⟩ : Exchange (Env σ))] ↔ Expected (f reply) :=
    (sound_cons_iff hc).trans ((and_iff_left sound_nil).trans (hreply reply).symm)
  rw [hsound]
  exact tolerates_tolerate fallback (f reply)

/-- What statistics are sampled, the percentage is computed of. -/
theorem exec_sampleStats (baselines : Dict Str Baseline) {uri : Str} {x : Except Exn (Option DriverContainerStats)}
    (h : (sampleStats r uri).Exec t x) :
    (∃ e, x = .error e ∧ e.isDriverError = false ∧ ¬ Sound baselines t) ∨
      ∃ stats, x = .ok stats ∧ (Sound baselines t ↔
        Expected (cpuPercent ((baselines.get? uri).bind Baseline.stats) stats)) := by
  have hnone (previous : Option DriverContainerStats) : Expected (cpuPercent previous none) := by
    cases previous <;> exact expected_ok none
  unfold sampleStats at h
  split at h
  · obtain ⟨reply, s, rfl, hrest⟩ := exec_call_bind.mp h
    obtain ⟨rfl, rfl⟩ := (Prog.exec_ofExcept _ _ _).mp hrest
    cases reply with
    | ok stats =>
      refine .inr ⟨some stats, rfl, ?_⟩
      rw [expected_cpuPercent_iff]
      constructor
      · intro hsound
        exact hsound.fits uri stats List.mem_cons_self
      · intro hfit
        refine ⟨?_, List.forall_mem_singleton.mpr (expected_ok stats)⟩
        intro uri' stats' hm
        obtain ⟨rfl, rfl⟩ : uri' = uri ∧ stats' = stats := by simpa using hm
        exact hfit
    | error e =>
      cases he : e.isDriverError with
      | true =>
        refine .inr ⟨none, by simp [tolerate, Except.map, he], iff_of_true ⟨?_, ?_⟩ (hnone _)⟩
        · intro uri' stats' hm
          simp at hm
        · exact List.forall_mem_singleton.mpr (expected_error he)
      | false =>
        refine .inl ⟨e, by simp [tolerate, Except.map, he], he, ?_⟩
        intro hsound
        exact not_expected_error he (hsound.reliable _ List.mem_cons_self)
  · obtain ⟨rfl, rfl⟩ := h
    exact .inr ⟨none, rfl, iff_of_true sound_nil (hnone _)⟩

theorem tolerates_sampleRevision {uri : Str} {x : Except Exn (Option Str)} (h : (sampleRevision r uri).Exec t x) :
    Tolerates (Sound baselines t) x := by
  unfold sampleRevision at h
  split at h
  · exact tolerates_of_exec (c := .revision uri) (f := fun reply => reply) nofun (fun _ => Iff.rfl) h
  · obtain ⟨rfl, rfl⟩ := h
    exact .inl ⟨none, rfl, sound_nil⟩

theorem tolerates_detectEvent {previous : Option Baseline} {details : DriverResourceDetails} {occurredAt : Str}
    {x : Except Exn (Option DriverEvent)} (h : (detectEvent r previous details occurredAt).Exec t x) :
    Tolerates (Sound baselines t) x := by
  unfold detectEvent at h
  split at h
  · obtain ⟨rfl, rfl⟩ := h
    exact .inl ⟨none, rfl, sound_nil⟩
  · obtain ⟨t₁, t₂, logTail, rfl, htail, hrest⟩ := Prog.exec_bind_outcome h
    have hlines : Tolerates (Sound baselines t₁) logTail :=
      tolerates_of_exec (c := .logs details.resource.uri r.postmortemTail)
        (f := fun reply => reply.map fun result => result.entries.map logLine) nofun
        (fun _ => expected_map_iff _) htail
    rcases hlines with ⟨lines, rfl, hsound⟩ | ⟨e, rfl, he, hsound⟩
    · obtain ⟨rfl, rfl⟩ := hrest
      exact .inl ⟨_, rfl, by rwa [List.append_nil]⟩
    · obtain ⟨rfl, rfl⟩ := hrest
      exact .inr ⟨e, rfl, he, by rwa [List.append_nil]⟩

/-- The loop body on a described resource ends as its CPU percentage does, unless it is ended before. -/
theorem exec_observeDetails {collectedAt : Str} {p : Progress} {uri : Str}
    {details : DriverResourceDetails} {x : Except Exn Progress}
    (h : (observeDetails r collectedAt p uri details).Exec t x) : Expected x ↔ Sound r.baselines t := by
  obtain ⟨t₁, t, _, rfl, hstats, hrest⟩ := Prog.exec_bind_outcome h
  rw [sound_append]
  rcases exec_sampleStats r.baselines hstats with ⟨e, rfl, he, hunsound⟩ | ⟨stats, rfl, hcpu⟩
  · obtain ⟨rfl, rfl⟩ := hrest
    exact iff_of_false (not_expected_error he) fun hsound => hunsound hsound.1
  obtain ⟨t₂, t, _, rfl, hrevision, hrest⟩ := Prog.exec_bind_outcome hrest
  rw [sound_append]
  rcases tolerates_sampleRevision hrevision with ⟨revision, rfl, hsound₂⟩ |
    ⟨e, rfl, he, hunsound⟩
  case inr =>
    obtain ⟨rfl, rfl⟩ := hrest
    exact iff_of_false (not_expected_error he) fun hsound => hunsound hsound.2.1
  obtain ⟨t₃, t, _, rfl, hpercent, hrest⟩ := Prog.exec_bind_outcome hrest
  obtain ⟨rfl, rfl⟩ := (Prog.exec_ofExcept _ _ _).mp hpercent
  rw [List.nil_append, hcpu]
  cases hx : cpuPercent ((r.baselines.get? uri).bind Baseline.stats) stats with
  | error e =>
    rw [hx] at hrest
    obtain ⟨rfl, rfl⟩ := hrest
    constructor
    · intro he
      exact ⟨expected_error (he e rfl), hsound₂, sound_nil⟩
    · intro he
      exact expected_error (he.1 e rfl)
  | ok cpu =>
    rw [hx] at hrest
    obtain ⟨t₄, t₅, _, rfl, hevent, hend⟩ := Prog.exec_bind_outcome hrest
    rcases tolerates_detectEvent hevent with ⟨event, rfl, hsound₄⟩ |
      ⟨e, rfl, he, hunsound⟩
    · obtain ⟨rfl, rfl⟩ := hend
      rw [List.append_nil]
      exact iff_of_true (expected_ok _) ⟨expected_ok cpu, hsound₂, hsound₄⟩
    · obtain ⟨rfl, rfl⟩ := hend
      rw [List.append_nil]
      exact iff_of_false (not_expected_error he) fun hsound => hunsound hsound.2.2

theorem exec_observe {collectedAt : Str} {p : Progress} {resource : DriverResource} {x : Except Exn Progress}
    (h : (observe r collectedAt p resource).Exec t x) : Expected x ↔ Sound r.baselines t := by
  obtain ⟨described, t, rfl, hbody⟩ := exec_call_bind.mp h
  rw [sound_cons_iff (by simp [NoStats])]
  change _ ↔ Expected described ∧ _
  cases described with
  | ok details => exact (exec_observeDetails hbody).trans (and_iff_right (expected_ok details)).symm
  | error e =>
    by_cases hgone : e.isResourceNotFound = true
    · simp only [hgone, if_true] at hbody
      obtain ⟨rfl, rfl⟩ := hbody
      have he : e.isDriverError = true := by
        cases e <;> first | rfl | cases hgone
      exact iff_of_true (expected_ok p) ⟨expected_error he, sound_nil⟩
    · simp only [hgone] at hbody
      obtain ⟨rfl, rfl⟩ := hbody
      constructor
      · intro he
        exact ⟨expected_error (he e rfl), sound_nil⟩
      · intro he
        exact expected_error (he.1 e rfl)

theorem exec_observeAll {collectedAt : Str} {p : Progress} {resources : List DriverResource}
    {x : Except Exn Progress} (h : (observeAll r collectedAt p resources).Exec t x) :
    Expected x ↔ Sound r.baselines t := by
  induction resources generalizing p t with
  | nil =>
    obtain ⟨rfl, rfl⟩ := h
    exact iff_of_true (expected_ok p) sound_nil
  | cons resource rest ih =>
    obtain ⟨t₁, t₂, y, rfl, hone, hrest⟩ := Prog.exec_bind_outcome h
    rw [sound_append, ← exec_observe hone]
    cases y with
    | ok q =>
      rw [← ih hrest]
      exact (and_iff_right (expected_ok q)).symm
    | error e =>
      obtain ⟨rfl, rfl⟩ := hrest
      constructor
      · intro he
        exact ⟨expected_error (he e rfl), sound_nil⟩
      · intro he
        exact expected_error (he.1 e rfl)

theorem exec_poll {x : Except Exn (Str × Progress)} (h : (poll r).Exec t x) :
    Expected x ↔ Sound r.baselines t := by
  obtain ⟨collectedAt, t, rfl, hquery⟩ := exec_call_bind.mp h
  obtain ⟨listed, t, rfl, hloop⟩ := exec_call_bind.mp hquery
  rw [sound_cons_iff (by simp [NoStats]), sound_cons_iff (by simp [NoStats])]
  change _ ↔ True ∧ Expected listed ∧ _
  rw [true_and]
  cases listed with
  | error e =>
    obtain ⟨rfl, rfl⟩ := hloop
    constructor
    · intro he
      exact ⟨expected_error (he e rfl), sound_nil⟩
    · intro he
      exact expected_error (he.1 e rfl)
  | ok resources =>
    have hwalk : (observeAll r collectedAt ⟨[], [], Dict.empty⟩ resources >>= fun progress =>
        pure (collectedAt, progress)).Exec t x := hloop
    obtain ⟨t₁, t₂, y, rfl, hall, hend⟩ := Prog.exec_bind_outcome hwalk
    rw [and_iff_right (expected_ok resources)]
    cases y with
    | ok progress =>
      obtain ⟨rfl, rfl⟩ := hend
      rw [List.append_nil, ← exec_observeAll hall]
      exact iff_of_true (expected_ok _) (expected_ok _)
    | error e =>
      obtain ⟨rfl, rfl⟩ := hend
      rw [List.append_nil, ← exec_observeAll hall]
      exact ⟨fun he => expected_error (he e rfl), fun he => expected_error (he e rfl)⟩

/-- A cycle ends in a snapshot or a `DriverError` exactly if every sample fits and the driver raises
nothing else. -/
theorem exec_runOnce_expected {out : Except Exn DriverSnapshot} {r' : DriverRunner σ}
    (h : (runOnce r).Exec t (.ok (out, r'))) (hc : ∀ y ∈ t, Contained y) :
    Expected out ↔ Sound r.baselines t := by
  obtain ⟨t₁, t₂, ⟨collected, q⟩, rfl, hcollect, hrest⟩ := Prog.exec_bind_ok.mp h
  obtain ⟨t₃, t₄, polled, rfl, hpoll, hbody⟩ := Prog.exec_attempt_bind.mp hcollect
  have hpolled := exec_poll hpoll
  cases polled with
  | error e =>
    obtain ⟨rfl, hout⟩ := hbody
    obtain ⟨rfl, rfl⟩ := Prod.mk.inj (Except.ok.inj hout)
    obtain ⟨rfl, hout⟩ := hrest
    obtain ⟨rfl, rfl⟩ := Prod.mk.inj (Except.ok.inj hout)
    rw [List.append_nil, List.append_nil, ← hpolled]
    exact ⟨fun he => expected_error (he e rfl), fun he => expected_error (he e rfl)⟩
  | ok gathered =>
    obtain ⟨collectedAt, progress⟩ := gathered
    obtain ⟨t₅, t₆, host, rfl, hmetrics, hend⟩ := Prog.exec_attempt_bind.mp hbody
    obtain ⟨rfl, hout⟩ := hend
    obtain ⟨rfl, rfl⟩ := Prod.mk.inj (Except.ok.inj hout)
    obtain ⟨samples, rfl⟩ := exec_collectHost hmetrics fun y hy => hc y (by simp [hy])
    have hsound₅ : Sound r.baselines t₅ := by
      apply sound_of_idle fun y hy => hc y (by simp [hy])
      exact (allCalls_collectHost (P := fun c => c = .collect ∨ ∃ sink snapshot, c = .publish sink snapshot)
        (.inl rfl)).of_exec hmetrics
    obtain ⟨t₇, t₈, result, rfl, hpublish, hend⟩ := Prog.exec_attempt_bind.mp hrest
    obtain ⟨rfl, -⟩ := exec_publishAll hpublish fun y hy => hc y (by simp [hy])
    obtain ⟨rfl, hout⟩ := hend
    obtain ⟨rfl, rfl⟩ := Prod.mk.inj (Except.ok.inj hout)
    have hsound₇ : Sound r.baselines t₇ := by
      apply sound_of_idle fun y hy => hc y (by simp [hy])
      exact (allCalls_publishAll (P := fun c => c = .collect ∨ ∃ sink snapshot, c = .publish sink snapshot) _ _
        fun sink => .inr ⟨sink, _, rfl⟩).of_exec hpublish
    simp only [sound_append, ← hpolled, List.append_nil, hsound₅, hsound₇, and_true]
    exact iff_of_true (expected_ok _) (expected_ok _)

/-- `run_forever` goes on to the next cycle: it catches `DriverError` and nothing else. -/
def goesOn (c : PollCycle σ) : Bool :=
  match c.outcome with
  | .ok _ => true
  | .error e => e.isDriverError

theorem goesOn_iff (c : PollCycle σ) : goesOn c = true ↔ Expected c.outcome := by
  unfold goesOn
  split
  · rename_i s hs
    rw [hs]
    exact iff_of_true rfl (expected_ok s)
  · rename_i e he
    rw [he]
    exact ⟨fun h => expected_error h, fun h => h e rfl⟩

/-- At every step of a run the samples fit the baselines that the step starts from. -/
def CountersFitThroughout (r : DriverRunner σ) (cs : List (PollCycle σ)) : Prop :=
  ∀ first c rest q, cs = first ++ c :: rest → Run r first q → CountersFit q.baselines c.trace

theorem countersFitThroughout_cons_iff {r' : DriverRunner σ} {c : PollCycle σ}
    {cs : List (PollCycle σ)} (h : (runOnce r).Exec c.trace (.ok (c.outcome, r'))) :
    CountersFitThroughout r (c :: cs) ↔
      CountersFit r.baselines c.trace ∧ CountersFitThroughout r' cs := by
  constructor
  · intro hfit
    refine ⟨hfit [] c cs r rfl (.nil r), ?_⟩
    intro first d rest q hcs hrun
    exact hfit (c :: first) d rest q (by rw [hcs]; rfl) (.cons h hrun)
  · intro hfit first d rest q hcs hrun
    cases hrun with
    | nil =>
      obtain ⟨rfl, -⟩ := List.cons.inj hcs
      exact hfit.1
    | @cons _ p _ b bs hstep hrest =>
      obtain ⟨rfl, htail⟩ := List.cons.inj hcs
      obtain ⟨-, rfl⟩ := Prod.mk.inj (Except.ok.inj (Prog.exec_unique hstep h))
      exact hfit.2 bs d rest q htail hrest

/-- The same of a run: by induction, from what one cycle comes to. -/
theorem goesOn_iff_of_run {r' : DriverRunner σ} {cs : List (PollCycle σ)} (h : Run r cs r')
    (hc : ∀ c ∈ cs, ∀ x ∈ c.trace, Contained x) :
    (∀ c ∈ cs, goesOn c = true) ↔ CountersFitThroughout r cs ∧ ∀ c ∈ cs, ∀ x ∈ c.trace, Reliable x := by
  induction h with
  | nil r =>
    refine iff_of_true (by simp) ⟨?_, by simp⟩
    intro first c rest q hcs
    cases first <;> cases hcs
  | @cons r q r' c cs hstep hrest ih =>
    obtain ⟨hone, hmany⟩ := List.forall_mem_cons.mp hc
    have hcycle : goesOn c = true ↔ CountersFit r.baselines c.trace ∧ ∀ x ∈ c.trace, Reliable x := by
      rw [goesOn_iff, exec_runOnce_expected hstep hone]
      exact ⟨fun hsound => ⟨hsound.fits, hsound.reliable⟩, fun hsound => ⟨hsound.1, hsound.2⟩⟩
    rw [List.forall_mem_cons, List.forall_mem_cons, countersFitThroughout_cons_iff hstep, hcycle, ih hmany]
    exact and_and_and_comm

/-- A cycle, with the exchanges between driver and daemon behind each of its calls. -/
structure ServedCycle (σ : Type) extends PollCycle σ where
  daemon : List (List (Exchange http))

/-- The Docker driver has replied to each call. -/
def ServedCycle.FromDocker [Python] [Loads] (reference : Str) (c : ServedCycle σ) : Prop :=
  List.Forall₂ (Serves reference) c.trace c.daemon

/-- Nothing that the daemon sends makes a parser raise what is not caught. -/
def ServedCycle.ParsesAll [Python] [Loads] (c : ServedCycle σ) : Prop := ∀ t ∈ c.daemon, ∀ y ∈ t, Parses y

theorem reliable_iff_of_fromDocker [Python] [Loads] {reference : Str} {t : List (Exchange (Env σ))}
    {daemon : List (List (Exchange http))} (h : List.Forall₂ (Serves reference) t daemon) :
    (∀ x ∈ t, Reliable x) ↔ ∀ u ∈ daemon, ∀ y ∈ u, Parses y := by
  induction h with
  | nil => simp
  | cons hserves _ ih => rw [List.forall_mem_cons, List.forall_mem_cons, ih, reliable_iff_of_serves hserves]

/-- The reporter lives through a run exactly if the counters fit throughout, and what the daemon sends
can be parsed or is refused. -/
theorem run_goesOn_iff [Python] [Loads] (reference : Str) (r r' : DriverRunner σ)
    (cs : List (ServedCycle σ)) (h : Run r (cs.map ServedCycle.toPollCycle) r')
    (hd : ∀ c ∈ cs, c.FromDocker reference) :
    (∀ c ∈ cs, goesOn c.toPollCycle = true) ↔
      CountersFitThroughout r (cs.map ServedCycle.toPollCycle) ∧ ∀ c ∈ cs, c.ParsesAll := by
  have hcontained : ∀ c ∈ cs.map ServedCycle.toPollCycle, ∀ x ∈ c.trace, Contained x := by
    rw [List.forall_mem_map]
    intro c hc x hx
    obtain ⟨u, -, hserves⟩ := exists_of_mem_left (hd c hc) hx
    exact contained_of_serves hserves
  have hrun := goesOn_iff_of_run h hcontained
  rw [List.forall_mem_map, List.forall_mem_map] at hrun
  rw [hrun]
  exact and_congr_right fun _ => forall₂_congr fun c hc => reliable_iff_of_fromDocker (hd c hc)

/-! ## A daemon that answers -/

section Serve

variable {W : Type} (answer : W → (c : Call σ) → Runner.Reply c × W)

/-- A number of cycles against a world that answers the runner. -/
def serveCycles : Nat → DriverRunner σ → W → List (PollCycle σ) × DriverRunner σ
  | 0, r, _ => ([], r)
  | n + 1, r, w =>
    let out := (runOnce r).serve (I := Env σ) answer w
    match out.1 with
    | .ok (outcome, r') =>
      let rest := serveCycles n r' out.2.2
      (⟨out.2.1, outcome⟩ :: rest.1, rest.2)
    | .error e => nomatch e

theorem run_serveCycles (n : Nat) (r : DriverRunner σ) (w : W) :
    Run r (serveCycles answer n r w).1 (serveCycles answer n r w).2 := by
  induction n generalizing r w with
  | zero => exact .nil r
  | succ n ih =>
    have hexec := Prog.exec_serve (I := Env σ) answer (runOnce r) w
    unfold serveCycles
    dsimp only
    split
    · rename_i outcome r' hout
      rw [hout] at hexec
      exact .cons hexec (ih r' _)
    · rename_i e _
      exact nomatch e

theorem serveCycles_forall {Q : Exchange (Env σ) → Prop} (hQ : ∀ w c, Q ⟨c, (answer w c).1⟩) (n : Nat)
    (r : DriverRunner σ) (w : W) : ∀ c ∈ (serveCycles answer n r w).1, ∀ x ∈ c.trace, Q x := by
  induction n generalizing r w with
  | zero => simp [serveCycles]
  | succ n ih =>
    have htrace := Prog.serve_forall (I := Env σ) answer hQ (runOnce r) w
    unfold serveCycles
    dsimp only
    split
    · intro c hc
      cases List.mem_cons.mp hc with
      | inl hc => exact hc ▸ htrace
      | inr hc => exact ih _ _ c hc
    · rename_i e _
      exact nomatch e

end Serve

section Linked

variable [Python] [Loads] (reference : Str) {W : Type} (daemon : W → Request → Http.Reply × W)

/-- The answers of a Docker driver in front of a daemon; every sink is up. -/
def linked (w : W) : (c : Call σ) → Runner.Reply c × W
  | .now => ([], w)
  | .query q => outcome ((Docker.query reference q).serve daemon w)
  | .describe uri => outcome ((Docker.describe reference uri).serve daemon w)
  | .stats uri => outcome ((Docker.stats reference uri).serve daemon w)
  | .revision uri => outcome ((Docker.revision reference uri).serve daemon w)
  | .logs uri tail => outcome ((Docker.logs reference uri tail).serve daemon w)
  | .collect => (.ok [], w)
  | .publish _ _ => (.ok (), w)
where
  outcome {α : Type} (out : Except Exn α × List (Exchange http) × W) : Except Exn α × W :=
    (out.1, out.2.2)

/-- What has gone between driver and daemon for an answer. -/
def behind (w : W) : Call σ → List (Exchange http)
  | .query q => ((Docker.query reference q).serve daemon w).2.1
  | .describe uri => ((Docker.describe reference uri).serve daemon w).2.1
  | .stats uri => ((Docker.stats reference uri).serve daemon w).2.1
  | .logs uri tail => ((Docker.logs reference uri tail).serve daemon w).2.1
  | _ => []

def behindAll : W → List (Exchange (Env σ)) → List (List (Exchange http))
  | _, [] => []
  | w, x :: t => behind reference daemon w x.1 :: behindAll (linked reference daemon w x.1).2 t

def served : W → List (PollCycle σ) → List (ServedCycle σ)
  | _, [] => []
  | w, c :: cs => ⟨c, behindAll reference daemon w c.trace⟩ ::
    served (c.trace.foldl (fun w x => (linked reference daemon w x.1).2) w) cs

variable {reference} (htame : Tame)

include htame

theorem serves_linked (w : W) (c : Call σ) :
    Serves reference (⟨c, (linked reference daemon w c).1⟩ : Exchange (Env σ)) (behind reference daemon w c) := by
  cases c with
  | query q => exact Prog.exec_serve (I := http) _ _ _
  | describe uri => exact Prog.exec_serve (I := http) _ _ _
  | stats uri => exact Prog.exec_serve (I := http) _ _ _
  | logs uri tail => exact Prog.exec_serve (I := http) _ _ _
  | revision uri =>
    refine ⟨rfl, (safe_revision reference uri _ _ (Prog.exec_serve (I := http) daemon _ w)).mpr ?_⟩
    exact fun y _ => parses_of_tame htame y
  | now => exact ⟨rfl, trivial⟩
  | collect => exact ⟨rfl, fun e he => nomatch he⟩
  | publish sink snapshot => exact ⟨rfl, fun e he => nomatch he⟩

theorem fromDocker_linked (w : W) (c : Call σ) :
    FromDocker reference (⟨c, (linked reference daemon w c).1⟩ : Exchange (Env σ)) :=
  ⟨_, serves_linked daemon htame w c⟩

theorem serves_behindAll {w w' : W} {t : List (Exchange (Env σ))}
    (h : Prog.Follows (I := Env σ) (linked reference daemon) w t w') :
    List.Forall₂ (Serves reference) t (behindAll reference daemon w t) ∧
      w' = t.foldl (fun w x => (linked reference daemon w x.1).2) w := by
  induction t generalizing w with
  | nil => exact ⟨.nil, h⟩
  | cons x t ih =>
    obtain ⟨c, reply⟩ := x
    obtain ⟨rfl, hrest⟩ := h
    obtain ⟨hserves, hlast⟩ := ih hrest
    exact ⟨.cons (serves_linked daemon htame w c) hserves, hlast⟩

theorem fromDocker_served (n : Nat) (r : DriverRunner σ) (w : W) :
    ∀ c ∈ served reference daemon w (serveCycles (linked reference daemon) n r w).1, c.FromDocker reference := by
  induction n generalizing r w with
  | zero => simp [serveCycles, served]
  | succ n ih =>
    have hfollows := Prog.serve_follows (I := Env σ) (linked reference daemon) (runOnce r) w
    obtain ⟨hserves, hlast⟩ := serves_behindAll daemon htame hfollows
    unfold serveCycles
    dsimp only
    split
    · rename_i outcome r' hout
      rw [served, List.forall_mem_cons, ← hlast]
      exact ⟨hserves, ih r' _⟩
    · rename_i e _
      exact nomatch e

omit htame

theorem map_served (w : W) (cs : List (PollCycle σ)) :
    (served reference daemon w cs).map ServedCycle.toPollCycle = cs := by
  induction cs generalizing w with
  | nil => rfl
  | cons c cs ih => rw [served, List.map_cons, ih]

end Linked

section Overflowing

/-- One running container, in the list and inspected. -/
def listText : Str :=
  lit "[\x7b\"Id\":\"0123456789ab\",\"Names\":[\"/web\"],\"Labels\":\x7b\x7d\x7d]"

def inspectText : Str :=
  lit "\x7b\"Id\":\"0123456789ab\",\"Name\":\"/web\",\"Config\":\x7b\"Labels\":\x7b\x7d\x7d\x7d"

def statsText (total system : Str) : Str :=
  lit "\x7b\"cpu_stats\":\x7b\"cpu_usage\":\x7b\"total_usage\":" ++ total ++
    lit "\x7d,\"system_cpu_usage\":" ++ system ++ lit "\x7d\x7d"

def statsJson (total system : Int) : Json :=
  .obj [(lit "cpu_stats", .obj [(lit "cpu_usage", .obj [(lit "total_usage", .int total)]),
    (lit "system_cpu_usage", .int system)])]

/-- Ten to the power of 400. -/
def hugeText : Str := '1' :: List.replicate 400 '0'

/-- The texts that are decoded here, with their values. -/
def documents : List (Str × Json) :=
  [(listText, .arr [.obj [(lit "Id", .str (lit "0123456789ab")), (lit "Names", .arr [.str (lit "/web")]),
      (lit "Labels", .obj [])]]),
    (inspectText, .obj [(lit "Id", .str (lit "0123456789ab")), (lit "Name", .str (lit "/web")),
      (lit "Config", .obj [(lit "Labels", .obj [])])]),
    (statsText ['0'] ['0'], statsJson 0 0), (statsText hugeText ['1'], statsJson (10 ^ 400 : Nat) 1)]

abbrev overflowingLoads : Loads := Loads.known (documents.map fun d => (Utf8.encode d.1, d.2))

/-- The second sample of the CPU counter is huge. The state is the number of samples. -/
def overflowingDaemon (n : Nat) (q : Request) : Http.Reply × Nat :=
  let answer (text : Str) : Http.Reply := .response 200 [Utf8.encode text] true
  if q.path = lit "containers/json" then (answer listText, n)
  else if q.path = lit "containers/web/json" then (answer inspectText, n)
  else if q.path = lit "containers/web/stats" then
    (answer (if n = 0 then statsText ['0'] ['0'] else statsText hugeText ['1']), n + 1)
  else (.response 404 [] true, n)

def overflowingRunner : DriverRunner Unit :=
  ⟨[()], by simp, lit "local", false, 50, true, true, Dict.empty⟩

def overflowingRun : List (PollCycle Unit) × DriverRunner Unit :=
  serveCycles (@linked Unit Python.ascii overflowingLoads (lit "local") Nat overflowingDaemon) 2
    overflowingRunner 0

theorem overflowingRun_goesOn : overflowingRun.1.map goesOn = [true, false] := by
  decide +kernel

theorem run_overflowingRun : Run overflowingRunner overflowingRun.1 overflowingRun.2 :=
  run_serveCycles _ 2 _ 0

/-- The run with the exchanges behind it. -/
def overflowingCycles : List (ServedCycle Unit) :=
  @served Unit Python.ascii overflowingLoads (lit "local") Nat overflowingDaemon 0 overflowingRun.1

theorem fromDocker_overflowing : ∀ c ∈ overflowingCycles,
    @ServedCycle.FromDocker Unit Python.ascii overflowingLoads (lit "local") c :=
  @fromDocker_served Unit Python.ascii overflowingLoads (lit "local") Nat overflowingDaemon
    (tame_known _) 2 overflowingRunner 0

theorem map_overflowingCycles : overflowingCycles.map ServedCycle.toPollCycle = overflowingRun.1 :=
  @map_served Unit Python.ascii overflowingLoads (lit "local") Nat overflowingDaemon 0 overflowingRun.1

theorem run_overflowing :
    Run overflowingRunner (overflowingCycles.map ServedCycle.toPollCycle) overflowingRun.2 :=
  map_overflowingCycles ▸ run_overflowingRun

theorem run_goesOn_iff_overflowing : (∀ c ∈ overflowingCycles, goesOn c.toPollCycle = true) ↔
    CountersFitThroughout overflowingRunner (overflowingCycles.map ServedCycle.toPollCycle) ∧
      ∀ c ∈ overflowingCycles, @ServedCycle.ParsesAll Unit Python.ascii overflowingLoads c :=
  @run_goesOn_iff Unit Python.ascii overflowingLoads (lit "local") _ _ _ run_overflowing
    fromDocker_overflowing

/-- The second cycle ends the process. -/
theorem not_goesOn_overflowing : Uri.validTargetReference (lit "local") = true ∧
    Run overflowingRunner (overflowingCycles.map ServedCycle.toPollCycle) overflowingRun.2 ∧
    (∀ c ∈ overflowingCycles, @ServedCycle.FromDocker Unit Python.ascii overflowingLoads (lit "local") c) ∧
    ¬ ∀ c ∈ overflowingCycles, goesOn c.toPollCycle = true := by
  refine ⟨Uri.validTargetReference_local, run_overflowing, fromDocker_overflowing, ?_⟩
  intro h
  have hall : ∀ b ∈ overflowingRun.1.map goesOn, b = true := by
    intro b hb
    rw [← map_overflowingCycles, List.map_map] at hb
    obtain ⟨c, hc, rfl⟩ := List.mem_map.mp hb
    exact h c hc
  rw [overflowingRun_goesOn] at hall
  simp at hall

end Overflowing

end MiraDriver.Reporter
