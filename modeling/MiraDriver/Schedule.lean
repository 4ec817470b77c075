import MiraDriver.Pacing
import MiraDriver.Process
import MiraDriver.Lifecycle

/-!
# The loop of the process

`run_forever` and `main`. Besides what a cycle calls, the loop reads a clock and waits on an
event that a signal sets. Clock readings and waiting times are exact.
-/
namespace MiraDriver.Schedule

open MiraDriver.Text MiraDriver.Mapping MiraDriver.Base MiraDriver.Program MiraDriver.Pacing
  MiraDriver.Numerals MiraDriver.Runner MiraDriver.Cycle MiraDriver.Lifecycle MiraDriver.Drivers
  MiraDriver.Config

variable {σ : Type}

/-- What the loop calls: `stop_event.is_set`, `time.monotonic` and `stop_event.wait`. -/
inductive TimerCall where
  | isSet
  | monotonic
  | wait (seconds : Rat)
  deriving DecidableEq, Repr

/-- A wait is answered with whether the event is set, or with none if it is longer than
`threading.TIMEOUT_MAX`, which is an `OverflowError`. -/
abbrev TimerReply : TimerCall → Type
  | .isSet => Bool
  | .monotonic => Rat
  | .wait _ => Option Bool

abbrev timer : Interface := ⟨TimerCall, TimerReply⟩

abbrev Loop (σ : Type) : Interface := (Env σ).sum timer

def timed {ε : Type} (c : TimerCall) : Prog (Loop σ) ε (TimerReply c) :=
  Prog.askRight (I := Env σ) (J := timer) c

/-- The rest of the body, after a cycle that it survives. -/
def finish (interval started : Rat) (r : DriverRunner σ) : Prog (Loop σ) Exn (Option (DriverRunner σ)) := do
  let ended ← timed .monotonic
  let woken ← timed (.wait (max 0 (interval - (ended - started))))
  match woken with
  | some _ => pure (some r)
  | none => throw .overflowError

/-- The body of the loop: none where the event is set. -/
def pass (interval : Rat) (r : DriverRunner σ) : Prog (Loop σ) Exn (Option (DriverRunner σ)) := do
  let set ← timed .isSet
  if set then pure none
  else do
    let started ← timed .monotonic
    let polled ← (runOnce r).inl.attempt
    match polled with
    | .error e => nomatch e
    | .ok (outcome, r') =>
      match outcome with
      | .ok _ => finish interval started r'
      | .error e => if e.isDriverError then finish interval started r' else throw e

/-- `run_forever`, for as many passes as are given: the runner if the loop has not ended by
then. -/
def runForever (interval : Rat) : Nat → DriverRunner σ → Prog (Loop σ) Exn (Option (DriverRunner σ))
  | 0, r => pure (some r)
  | n + 1, r => do
    let next ← pass interval r
    match next with
    | none => pure none
    | some r' => runForever interval n r'

/-- What comes out of `main`. -/
inductive ProcessEnd (σ : Type) where
  | exit (status : Nat)
  | startupError (error : ProcessError)
  | pollError (error : Exn)
  | going (runner : DriverRunner σ)

/-- What comes out once the loop has ended, or has been left to go on. -/
def ProcessEnd.ofLoop : Except Exn (Option (DriverRunner σ)) → ProcessEnd σ
  | .ok none => .exit 0
  | .ok (some r) => .going r
  | .error e => .pollError e

/-- `main`. The handlers of the signals only set the event. -/
def main [Python] [Digits] (passes : Nat) (hostname : Str) (environ : Dict Str Str) :
    Prog (Loop Process.Sink) Empty (ProcessEnd Process.Sink) :=
  match Process.main hostname environ with
  | .exit status _ => pure (.exit status)
  | .raised e => pure (.startupError e)
  | .polling process => do
    let ended ← (runForever process.interval passes process.runner).attempt
    pure (.ofLoop ended)

/-! ## Passes -/

/-- A pass that goes on to the next one. -/
structure Pass (σ : Type) where
  started : Rat
  cycle : PollCycle σ
  ended : Rat
  woken : Bool

/-- The first exchanges of a pass. -/
def opening (started : Rat) : List (Exchange (Loop σ)) :=
  [.inr ⟨.isSet, false⟩, .inr ⟨.monotonic, started⟩]

/-- The last exchanges of a pass. -/
def closing (interval started ended : Rat) (woken : Option Bool) : List (Exchange (Loop σ)) :=
  [.inr ⟨.monotonic, ended⟩, .inr ⟨.wait (max 0 (interval - (ended - started))), woken⟩]

def Pass.trace (interval : Rat) (p : Pass σ) : List (Exchange (Loop σ)) :=
  opening p.started ++ (p.cycle.trace.map .inl ++ closing interval p.started p.ended (some p.woken))

def traceOf (interval : Rat) (passes : List (Pass σ)) : List (Exchange (Loop σ)) :=
  passes.flatMap (Pass.trace interval)

/-- The loop goes on after the cycle. -/
def Survived (c : PollCycle σ) : Prop := ∀ e, c.outcome = .error e → e.isDriverError = true

/-- How a pass raises, after its cycle. -/
inductive Breaks (interval started : Rat) (c : PollCycle σ) : List (Exchange (Loop σ)) → Exn → Prop
  /-- The cycle has raised what the loop does not catch. -/
  | cycle {e : Exn} : c.outcome = .error e → e.isDriverError = false → Breaks interval started c [] e
  /-- The wait is too long. -/
  | wait {ended : Rat} : Survived c → Breaks interval started c (closing interval started ended none) .overflowError

theorem Breaks.not_driverError {interval started : Rat} {c : PollCycle σ} {rest : List (Exchange (Loop σ))} {e : Exn}
    (h : Breaks interval started c rest e) : e.isDriverError = false := by
  cases h with
  | cycle _ he => exact he
  | wait _ => rfl

/-- How an interaction of the loop ends after some passes, out of at most so many: with the cycle
that is still begun, if there is one. -/
inductive Ending (interval : Rat) (n : Nat) (r : DriverRunner σ) (passes : List (Pass σ)) :
    List (PollCycle σ) → List (Exchange (Loop σ)) → Except Exn (Option (DriverRunner σ)) → Prop
  /-- No more passes are asked for. -/
  | going : passes.length = n → Ending interval n r passes [] [] (.ok (some r))
  /-- The event is set. -/
  | stopped : passes.length < n → Ending interval n r passes [] [.inr ⟨.isSet, true⟩] (.ok none)
  | raised {started : Rat} {c : PollCycle σ} {rest : List (Exchange (Loop σ))} {e : Exn} {r' : DriverRunner σ} :
    passes.length < n → (runOnce r).Exec c.trace (.ok (c.outcome, r')) → Breaks interval started c rest e →
      Ending interval n r passes [c] (opening started ++ (c.trace.map .inl ++ rest)) (.error e)

section Ending

variable {interval : Rat} {n : Nat} {r : DriverRunner σ} {passes : List (Pass σ)} {begun : List (PollCycle σ)}
  {last : List (Exchange (Loop σ))} {x : Except Exn (Option (DriverRunner σ))}

/-- The cycle that is still begun continues the run. -/
theorem Ending.run (h : Ending interval n r passes begun last x) : ∃ r', Run r begun r' := by
  cases h with
  | going _ => exact ⟨r, .nil r⟩
  | stopped _ => exact ⟨r, .nil r⟩
  | raised _ hstep _ => exact ⟨_, .cons hstep (.nil _)⟩

theorem Ending.mem_last (h : Ending interval n r passes begun last x) :
    ∀ c ∈ begun, ∀ y ∈ c.trace, Exchange.inl y ∈ last := by
  cases h with
  | going _ => simp
  | stopped _ => simp
  | raised _ _ _ =>
    intro d hd y hy
    obtain rfl := List.mem_singleton.mp hd
    exact List.mem_append_right _ (List.mem_append_left _ (List.mem_map_of_mem hy))

end Ending

section Exec

variable {interval : Rat} {r : DriverRunner σ} {t : List (Exchange (Loop σ))}

theorem exec_timed_bind {ε α : Type} {c : TimerCall} {f : TimerReply c → Prog (Loop σ) ε α}
    {x : Except ε α} : (timed c >>= f).Exec t x ↔
      ∃ (y : TimerReply c) (s : _), t = Exchange.inr ⟨c, y⟩ :: s ∧ (f y).Exec s x := Iff.rfl

theorem exec_finish {started : Rat} {x : Except Exn (Option (DriverRunner σ))}
    (h : (finish interval started r).Exec t x) :
    ∃ ended, (∃ woken, t = closing interval started ended (some woken) ∧ x = .ok (some r)) ∨
      (t = closing interval started ended none ∧ x = .error .overflowError) := by
  obtain ⟨ended, t, rfl, hwait⟩ := exec_timed_bind.mp h
  obtain ⟨woken, t, rfl, hend⟩ := exec_timed_bind.mp hwait
  refine ⟨ended, ?_⟩
  cases woken with
  | some woken =>
    obtain ⟨rfl, rfl⟩ := hend
    exact .inl ⟨woken, rfl, rfl⟩
  | none =>
    obtain ⟨rfl, rfl⟩ := hend
    exact .inr ⟨rfl, rfl⟩

/-- A pass after its first check of the event: it goes on, or raises. -/
def Proceeds (interval : Rat) (r : DriverRunner σ) (t : List (Exchange (Loop σ)))
    (x : Except Exn (Option (DriverRunner σ))) : Prop :=
  (∃ (p : Pass σ) (r' : DriverRunner σ), (runOnce r).Exec p.cycle.trace (.ok (p.cycle.outcome, r')) ∧
      Survived p.cycle ∧ t = p.trace interval ∧ x = .ok (some r')) ∨
    ∃ (started : Rat) (c : PollCycle σ) (rest : List (Exchange (Loop σ))) (e : Exn) (r' : DriverRunner σ),
      (runOnce r).Exec c.trace (.ok (c.outcome, r')) ∧ Breaks interval started c rest e ∧
      t = opening started ++ (c.trace.map .inl ++ rest) ∧ x = .error e

theorem proceeds_of_survived {started : Rat} {c : PollCycle σ} {r' : DriverRunner σ}
    {x : Except Exn (Option (DriverRunner σ))} (hstep : (runOnce r).Exec c.trace (.ok (c.outcome, r')))
    (hs : Survived c) (h : (finish interval started r').Exec t x) :
    Proceeds interval r (opening started ++ (c.trace.map .inl ++ t)) x := by
  obtain ⟨ended, ⟨woken, rfl, rfl⟩ | ⟨rfl, rfl⟩⟩ := exec_finish h
  · exact .inl ⟨⟨started, c, ended, woken⟩, r', hstep, hs, rfl, rfl⟩
  · exact .inr ⟨started, c, _, _, r', hstep, .wait hs, rfl, rfl⟩

/-- What a pass amounts to. -/
theorem exec_pass {x : Except Exn (Option (DriverRunner σ))} (h : (pass interval r).Exec t x) :
    (t = [.inr ⟨.isSet, true⟩] ∧ x = .ok none) ∨ Proceeds interval r t x := by
  obtain ⟨set, t, rfl, hpass⟩ := exec_timed_bind.mp h
  clear h
  cases set with
  | true =>
    obtain ⟨rfl, rfl⟩ := hpass
    exact .inl ⟨rfl, rfl⟩
  | false =>
    obtain ⟨started, t, rfl, hbody⟩ := exec_timed_bind.mp hpass
    obtain ⟨t₁, t₂, polled, rfl, hcycle, hend⟩ := Prog.exec_attempt_bind.mp hbody
    obtain ⟨u, rfl, hstep⟩ := Prog.exec_inl.mp hcycle
    clear hpass hbody
    refine .inr ?_
    cases polled with
    | error e => exact nomatch e
    | ok gathered =>
      obtain ⟨outcome, r'⟩ := gathered
      cases outcome with
      | ok snapshot =>
        refine proceeds_of_survived (c := ⟨u, .ok snapshot⟩) hstep ?_ hend
        intro e he
        cases he
      | error e =>
        cases he : e.isDriverError with
        | true =>
          simp only [he, if_true] at hend
          refine proceeds_of_survived (c := ⟨u, .error e⟩) hstep ?_ hend
          intro e' he'
          obtain rfl := Except.error.inj he'
          exact he
        | false =>
          simp only [he] at hend
          obtain ⟨rfl, rfl⟩ := hend
          exact .inr ⟨started, ⟨u, .error e⟩, [], e, r', hstep, .cycle rfl he, rfl, rfl⟩

/-- A cycle that the loop survives makes a pass. -/
theorem exec_pass_of_step {p : Pass σ} {r' : DriverRunner σ}
    (hstep : (runOnce r).Exec p.cycle.trace (.ok (p.cycle.outcome, r'))) (hs : Survived p.cycle) :
    (pass interval r).Exec (p.trace interval) (.ok (some r')) := by
  obtain ⟨started, ⟨u, outcome⟩, ended, woken⟩ := p
  refine exec_timed_bind.mpr ⟨false, _, rfl, exec_timed_bind.mpr ⟨started, _, rfl, ?_⟩⟩
  refine Prog.exec_attempt_bind.mpr ⟨u.map .inl,
    closing interval started ended (some woken), .ok (outcome, r'), rfl,
    Prog.exec_inl.mpr ⟨u, rfl, hstep⟩, ?_⟩
  cases outcome with
  | ok snapshot => exact ⟨ended, _, rfl, some woken, _, rfl, rfl, rfl⟩
  | error e =>
    have he : e.isDriverError = true := hs e rfl
    simp only [he, if_true]
    exact ⟨ended, _, rfl, some woken, _, rfl, rfl, rfl⟩

/-- The loop makes passes, whose cycles are a run of the runner, until it ends. -/
theorem exec_runForever {n : Nat} {x : Except Exn (Option (DriverRunner σ))}
    (h : (runForever interval n r).Exec t x) :
    ∃ passes begun last r', Run r (passes.map Pass.cycle) r' ∧ (∀ p ∈ passes, Survived p.cycle) ∧
      t = traceOf interval passes ++ last ∧ Ending interval n r' passes begun last x := by
  induction n generalizing r t with
  | zero =>
    obtain ⟨rfl, rfl⟩ := h
    exact ⟨[], [], [], r, .nil r, by simp, rfl, .going rfl⟩
  | succ n ih =>
    obtain ⟨t₁, t₂, y, rfl, hpass, hrest⟩ := Prog.exec_bind_outcome h
    rcases exec_pass hpass with ⟨rfl, rfl⟩ | ⟨p, q, hstep, hsurvived, rfl, rfl⟩ |
      ⟨started, c, rest, e, q, hstep, hbreaks, rfl, rfl⟩
    · obtain ⟨rfl, rfl⟩ := hrest
      exact ⟨[], [], _, r, .nil r, by simp, rfl, .stopped (Nat.succ_pos n)⟩
    · obtain ⟨passes, begun, last, r', hrun, hall, rfl, hending⟩ := ih hrest
      refine ⟨p :: passes, begun, last, r', .cons hstep hrun, List.forall_mem_cons.mpr ⟨hsurvived, hall⟩,
        by simp [traceOf], ?_⟩
      cases hending with
      | going hlength => exact .going (congrArg Nat.succ hlength)
      | stopped hlength => exact .stopped (Nat.succ_lt_succ hlength)
      | raised hlength hstep hbreaks => exact .raised (Nat.succ_lt_succ hlength) hstep hbreaks
    · obtain ⟨rfl, rfl⟩ := hrest
      exact ⟨[], [c], opening started ++ (c.trace.map .inl ++ rest), r, .nil r, by simp, by simp [traceOf],
        .raised (Nat.succ_pos n) hstep hbreaks⟩

end Exec

/-! ## Time -/

/-- The readings of the clock. -/
def readings : List (Exchange (Loop σ)) → List Rat
  | [] => []
  | ⟨.inr .monotonic, reading⟩ :: t => (reading : Rat) :: readings t
  | _ :: t => readings t

/-- The requests for the inventory, each with the last reading before it. -/
def listingTimes : Rat → List (Exchange (Loop σ)) → List Rat
  | _, [] => []
  | _, ⟨.inr .monotonic, reading⟩ :: t => listingTimes reading t
  | now, ⟨.inl (.query _), _⟩ :: t => now :: listingTimes now t
  | now, _ :: t => listingTimes now t

/-- The event was seen to be set. -/
def Signals : Exchange (Loop σ) → Prop
  | ⟨.inr .isSet, reply⟩ => reply = true
  | ⟨.inr (.wait _), reply⟩ => reply = some true
  | _ => False

/-- What the clock and the event are relied on for: the clock does not go back, a wait that has
not been woken lasts as long as it was told to, and an event stays set. -/
structure Timely (t : List (Exchange (Loop σ))) : Prop where
  monotone : (readings t).Pairwise (· ≤ ·)
  lasts : ∀ before seconds after, t = before ++ .inr ⟨.wait seconds, some false⟩ :: after →
    ∀ a ∈ readings before, ∀ b ∈ readings after, a + seconds ≤ b
  latched : ∀ before x after, t = before ++ x :: after → Signals x →
    (.inr ⟨.isSet, false⟩ : Exchange (Loop σ)) ∉ after

@[simp] theorem readings_nil : readings ([] : List (Exchange (Loop σ))) = [] := rfl

@[simp] theorem listingTimes_nil (now : Rat) : listingTimes now ([] : List (Exchange (Loop σ))) = [] := rfl

@[simp] theorem readings_opening (started : Rat) (t : List (Exchange (Loop σ))) :
    readings (opening started ++ t) = started :: readings t := rfl

@[simp] theorem listingTimes_opening (now started : Rat) (t : List (Exchange (Loop σ))) :
    listingTimes now (opening started ++ t) = listingTimes started t := rfl

theorem mem_opening (started : Rat) (t : List (Exchange (Loop σ))) :
    .inr ⟨.isSet, false⟩ ∈ opening started ++ t ∧ started ∈ readings (opening started ++ t) :=
  ⟨List.mem_cons_self, List.mem_cons_self⟩

theorem readings_append (s t : List (Exchange (Loop σ))) : readings (s ++ t) = readings s ++ readings t := by
  induction s with
  | nil => rfl
  | cons x s ih =>
    obtain ⟨c, reply⟩ := x
    cases c with
    | inl c => exact ih
    | inr c =>
      cases c with
      | monotonic => exact congrArg (reply :: ·) ih
      | _ => exact ih

theorem Timely.of_append {s t : List (Exchange (Loop σ))} (h : Timely (s ++ t)) : Timely t := by
  constructor
  · have hmonotone := h.monotone
    rw [readings_append] at hmonotone
    exact (List.pairwise_append.mp hmonotone).2.1
  · rintro before seconds after rfl a ha b hb
    refine h.lasts (s ++ before) seconds after (by simp) a ?_ b hb
    rw [readings_append]
    exact List.mem_append_right _ ha
  · rintro before x after rfl hx
    exact h.latched (s ++ before) x after (by simp) hx

/-- If the event is not set after a pass, the pass has waited for the rest of the interval. -/
theorem Timely.interval_le {interval b : Rat} {p : Pass σ} {t : List (Exchange (Loop σ))}
    (h : Timely (p.trace interval ++ t)) (hset : .inr ⟨.isSet, false⟩ ∈ t) (hread : b ∈ readings t) :
    p.started + interval ≤ b := by
  have hsplit : p.trace interval ++ t = (opening p.started ++ (p.cycle.trace.map .inl ++
      [.inr ⟨.monotonic, p.ended⟩])) ++
      .inr ⟨.wait (max 0 (interval - (p.ended - p.started))), some p.woken⟩ :: t := by
    simp [Pass.trace, closing]
  -- the event was not set, so that the wait has lasted
  have hwoken : p.woken = false := by
    cases hw : p.woken with
    | false => rfl
    | true => exact absurd hset (h.latched _ _ _ hsplit (congrArg some hw))
  rw [hwoken] at hsplit
  have hended : p.ended ∈ readings (opening p.started ++ (p.cycle.trace.map .inl ++
      [.inr ⟨.monotonic, p.ended⟩])) := by
    rw [readings_opening, readings_append]
    exact List.mem_cons_of_mem _ (List.mem_append_right _ List.mem_cons_self)
  have hlasted := h.lasts _ _ _ hsplit p.ended hended b hread
  have hdelay : interval - (p.ended - p.started) ≤ max 0 (interval - (p.ended - p.started)) := le_max_right _ _
  linarith

/-- The requests for the inventory in a cycle. -/
def IsListing : Call σ → Prop
  | .query _ => True
  | _ => False

theorem listingTimes_of_quiet (now : Rat) {s : List (Exchange (Env σ))} (h : ∀ x ∈ s, ¬ IsListing x.1)
    (t : List (Exchange (Loop σ))) : listingTimes now (s.map .inl ++ t) = listingTimes now t := by
  induction s with
  | nil => rfl
  | cons x s ih =>
    obtain ⟨hx, hs⟩ := List.forall_mem_cons.mp h
    obtain ⟨c, reply⟩ := x
    cases c with
    | query q => exact absurd trivial hx
    | _ => exact ih hs

/-- A cycle makes one request for the inventory. -/
theorem exec_runOnce_listing {r r' : DriverRunner σ} {t : List (Exchange (Env σ))}
    {out : Except Exn DriverSnapshot} (h : (runOnce r).Exec t (.ok (out, r'))) :
    ∃ time listed s, t = ⟨.now, time⟩ :: ⟨.query (.all .container), listed⟩ :: s ∧
      ∀ x ∈ s, ¬ IsListing x.1 := by
  obtain ⟨t₁, t₂, ⟨collected, q⟩, rfl, hcollect, hrest⟩ := Prog.exec_bind_ok.mp h
  obtain ⟨t₃, t₄, polled, rfl, hpoll, hbody⟩ := Prog.exec_attempt_bind.mp hcollect
  obtain ⟨time, t₃, rfl, hquery⟩ := exec_call_bind.mp hpoll
  obtain ⟨listed, t₃, rfl, hwalk⟩ := exec_call_bind.mp hquery
  refine ⟨time, listed, t₃ ++ t₄ ++ t₂, by simp, ?_⟩
  have hquiet₃ : ∀ x ∈ t₃, ¬ IsListing x.1 := by
    refine Prog.AllCalls.of_exec (P := fun c => ¬ IsListing c) ?_ hwalk
    apply Prog.allCalls_bind (Prog.allCalls_ofExcept _)
    intro resources
    apply Prog.allCalls_bind
    · apply allCalls_observeAll <;> simp [IsListing]
    · intro progress
      apply Prog.allCalls_pure
  have hquiet₄ : ∀ x ∈ t₄, ¬ IsListing x.1 := by
    cases polled with
    | error e => simp [hbody.1]
    | ok gathered =>
      refine Prog.AllCalls.of_exec (P := fun c => ¬ IsListing c) ?_ hbody
      apply Prog.allCalls_bind
      · exact Prog.allCalls_attempt (allCalls_collectHost (by simp [IsListing]))
      · intro hostMetrics
        apply Prog.allCalls_pure
  have hquiet₂ : ∀ x ∈ t₂, ¬ IsListing x.1 := by
    cases collected with
    | error e => simp [hrest.1]
    | ok snapshot =>
      refine Prog.AllCalls.of_exec (P := fun c => ¬ IsListing c) ?_ hrest
      apply Prog.allCalls_bind
      · exact Prog.allCalls_attempt (allCalls_publishAll snapshot _ (by simp [IsListing]))
      · intro published
        apply Prog.allCalls_pure
  intro x hx
  simp only [List.mem_append] at hx
  rcases hx with (hx | hx) | hx
  · exact hquiet₃ x hx
  · exact hquiet₄ x hx
  · exact hquiet₂ x hx

/-- The request of a cycle is made at the reading before it. -/
theorem listingTimes_cycle {r r' : DriverRunner σ} {s : List (Exchange (Env σ))}
    {out : Except Exn DriverSnapshot} (h : (runOnce r).Exec s (.ok (out, r'))) (now : Rat)
    (t : List (Exchange (Loop σ))) :
    listingTimes now (s.map .inl ++ t) = now :: listingTimes now t := by
  obtain ⟨time, listed, s, rfl, hquiet⟩ := exec_runOnce_listing h
  exact congrArg (now :: ·) (listingTimes_of_quiet now hquiet t)

/-- Two passes in a row are started at least an interval apart: by induction on the passes. -/
theorem spaced_listingTimes {interval : Rat} (hi : 0 ≤ interval) {n : Nat} {r : DriverRunner σ}
    {t : List (Exchange (Loop σ))} {x : Except Exn (Option (DriverRunner σ))}
    (h : (runForever interval n r).Exec t x) (ht : Timely t) (now : Rat) :
    Spaced interval (listingTimes now t) ∧
      ∀ b ∈ (listingTimes now t).head?, .inr ⟨.isSet, false⟩ ∈ t ∧ b ∈ readings t := by
  induction n generalizing r t now with
  | zero =>
    obtain ⟨rfl, -⟩ := h
    simp [Spaced]
  | succ n ih =>
    obtain ⟨t₁, t₂, y, rfl, hpass, hrest⟩ := Prog.exec_bind_outcome h
    rcases exec_pass hpass with ⟨rfl, rfl⟩ | ⟨p, q, hstep, -, rfl, rfl⟩ |
      ⟨started, c, rest, e, q, hstep, hbreaks, rfl, rfl⟩
    · obtain ⟨rfl, -⟩ := hrest
      exact ⟨List.Pairwise.nil, nofun⟩
    · have hlater := ih hrest ht.of_append p.ended
      have htimes : listingTimes now (p.trace interval ++ t₂) = p.started :: listingTimes p.ended t₂ := by
        rw [Pass.trace, List.append_assoc, List.append_assoc, listingTimes_opening,
          listingTimes_cycle hstep]
        rfl
      rw [htimes]
      refine ⟨spaced_cons hi hlater.1 ?_, ?_⟩
      · intro b hb
        obtain ⟨hset, hread⟩ := hlater.2 b hb
        exact ht.interval_le hset hread
      · intro b hb
        obtain rfl := Option.some.inj hb
        rw [Pass.trace, List.append_assoc]
        exact mem_opening p.started _
    · obtain ⟨rfl, -⟩ := hrest
      have htimes : listingTimes now (opening started ++ (c.trace.map .inl ++ rest) ++ []) = [started] := by
        rw [List.append_nil, listingTimes_opening, listingTimes_cycle hstep]
        cases hbreaks <;> rfl
      rw [htimes]
      refine ⟨List.pairwise_singleton _ _, ?_⟩
      intro b hb
      obtain rfl := Option.some.inj hb
      rw [List.append_assoc]
      exact mem_opening started _

/-! ## The event -/

/-- A request for the inventory. -/
def lists : Exchange (Loop σ) → Bool
  | ⟨.inl (.query _), _⟩ => true
  | _ => false

/-- The beginning of a pass: the event is not set. -/
def begins : Exchange (Loop σ) → Bool
  | ⟨.inr .isSet, reply⟩ => !reply
  | _ => false

/-- From here on the event is set. The handler of the signal has returned: it has not interrupted
`wait`, or another handler, where that holds the lock of the event, which `set` would wait for. -/
def StaysSet (t : List (Exchange (Loop σ))) : Prop :=
  ∀ x ∈ t, match x with
    | ⟨.inr .isSet, reply⟩ => reply = true
    | ⟨.inr (.wait _), reply⟩ => reply = some true
    | _ => True

theorem countP_begins_of_staysSet {t : List (Exchange (Loop σ))} (h : StaysSet t) : t.countP begins = 0 := by
  rw [List.countP_eq_zero]
  intro x hx hbegins
  have hset := h x hx
  obtain ⟨c, reply⟩ := x
  cases c with
  | inl c => cases hbegins
  | inr c =>
    cases c with
    | isSet =>
      obtain rfl : reply = true := hset
      cases hbegins
    | _ => cases hbegins

theorem countP_begins_cycle (s : List (Exchange (Env σ))) :
    (s.map Exchange.inl : List (Exchange (Loop σ))).countP begins = 0 := by
  rw [List.countP_map, List.countP_eq_zero]
  exact fun x _ => Bool.false_ne_true

theorem countP_lists_cycle {r r' : DriverRunner σ} {s : List (Exchange (Env σ))}
    {out : Except Exn DriverSnapshot} (h : (runOnce r).Exec s (.ok (out, r'))) :
    (s.map Exchange.inl : List (Exchange (Loop σ))).countP lists = 1 := by
  obtain ⟨time, listed, s, rfl, hquiet⟩ := exec_runOnce_listing h
  have hnone : (s.map Exchange.inl : List (Exchange (Loop σ))).countP lists = 0 := by
    rw [List.countP_map, List.countP_eq_zero]
    intro x hx
    have hx := hquiet x hx
    obtain ⟨c, reply⟩ := x
    cases c with
    | query q => exact absurd trivial hx
    | _ => exact Bool.false_ne_true
  rw [List.map_cons, List.map_cons, List.countP_cons_of_neg Bool.false_ne_true,
    List.countP_cons_of_pos rfl, hnone]

section Count

variable {interval : Rat} {n : Nat} {r : DriverRunner σ} {t u : List (Exchange (Loop σ))}
  {x : Except Exn (Option (DriverRunner σ))}

theorem countP_trace (interval : Rat) {p : Pass σ} {r' : DriverRunner σ}
    (h : (runOnce r).Exec p.cycle.trace (.ok (p.cycle.outcome, r'))) :
    (p.trace interval).countP lists = 1 ∧ (p.trace interval).countP begins = 1 := by
  simp only [Pass.trace, List.countP_append, countP_lists_cycle h, countP_begins_cycle]
  exact ⟨rfl, rfl⟩

theorem countP_broken {c : PollCycle σ} {r' : DriverRunner σ} {started : Rat} {rest : List (Exchange (Loop σ))}
    {e : Exn} (h : (runOnce r).Exec c.trace (.ok (c.outcome, r'))) (hbreaks : Breaks interval started c rest e) :
    (opening started ++ (c.trace.map Exchange.inl ++ rest)).countP lists = 1 ∧
      (opening started ++ (c.trace.map Exchange.inl ++ rest)).countP begins = 1 := by
  simp only [List.countP_append, countP_lists_cycle h, countP_begins_cycle]
  cases hbreaks <;> exact ⟨rfl, rfl⟩

/-- The inventory is requested once in a pass, so that not more than one request follows that
belongs to a pass begun before: by induction on the passes, for every end of an interaction. -/
theorem countP_of_exec (h : (runForever interval n r).Exec t x) :
    t.countP lists = t.countP begins ∧ ∀ u, u <:+ t → u.countP lists ≤ u.countP begins + 1 := by
  induction n generalizing r t with
  | zero =>
    obtain ⟨rfl, -⟩ := h
    refine ⟨rfl, ?_⟩
    intro u hu
    simp [List.suffix_nil.mp hu]
  | succ n ih =>
    -- the end of a pass holds one request at most
    have hpart {v s : List (Exchange (Loop σ))} (hs : s.countP lists = 1) (hv : v <:+ s) :
        v.countP lists ≤ 1 := hs ▸ hv.sublist.countP_le
    obtain ⟨t₁, t₂, y, rfl, hpass, hrest⟩ := Prog.exec_bind_outcome h
    rcases exec_pass hpass with ⟨rfl, rfl⟩ | ⟨p, q, hstep, -, rfl, rfl⟩ |
      ⟨started, c, rest, e, q, hstep, hbreaks, rfl, rfl⟩
    · obtain ⟨rfl, -⟩ := hrest
      refine ⟨rfl, ?_⟩
      intro u hu
      have hle := hu.sublist.countP_le (p := lists)
      have hzero : ([.inr ⟨.isSet, true⟩] ++ [] : List (Exchange (Loop σ))).countP lists = 0 := rfl
      omega
    · obtain ⟨hlists, hbegins⟩ := countP_trace interval hstep
      obtain ⟨heq, hsuffix⟩ := ih hrest
      refine ⟨by rw [List.countP_append, List.countP_append, hlists, hbegins, heq], ?_⟩
      rintro u ⟨s, hs⟩
      rcases List.append_eq_append_iff.mp hs with ⟨v, hv, rfl⟩ | ⟨v, rfl, hv⟩
      · have hone := hpart hlists ⟨s, hv.symm⟩
        rw [List.countP_append, List.countP_append]
        omega
      · exact hsuffix u ⟨v, hv.symm⟩
    · obtain ⟨rfl, -⟩ := hrest
      obtain ⟨hlists, hbegins⟩ := countP_broken hstep hbreaks
      rw [List.append_nil]
      refine ⟨hlists.trans hbegins.symm, ?_⟩
      intro u hu
      have hone := hpart hlists hu
      omega

theorem countP_begins_traceOf {r' : DriverRunner σ} {passes : List (Pass σ)}
    (h : Run r (passes.map Pass.cycle) r') : (traceOf interval passes).countP begins = passes.length := by
  induction passes generalizing r with
  | nil => rfl
  | cons p passes ih =>
    cases h with
    | cons hstep hrest =>
      have hone := (countP_trace interval hstep).2
      have hrest := ih hrest
      rw [traceOf, List.flatMap_cons, List.countP_append, hone, List.length_cons, Nat.add_comm]
      exact congrArg Nat.succ hrest

end Count

/-! ## The process -/

/-- What `main` does: it refuses the environment or fails to make a runner, without a call, or
it makes passes at the interval of the configuration, whose cycles are a run of the runner. -/
inductive Behaves [Python] [Digits] (n : Nat) (hostname : Str) (environ : Dict Str Str) :
    List (Exchange (Loop Process.Sink)) → ProcessEnd Process.Sink → Prop
  | refused {m : Str} : fromEnviron environ hostname = .error (.driverConfigError m) →
    Behaves n hostname environ [] (.exit 2)
  | unbuilt {config : DriverProcessConfig} {e : ProcessError} :
    fromEnviron environ hostname = .ok config → Process.buildRunner config = .error e →
      Behaves n hostname environ [] (.startupError e)
  | polled {config : DriverProcessConfig} {process : Process.DriverProcess}
    {passes : List (Pass Process.Sink)} {begun : List (PollCycle Process.Sink)}
    {last : List (Exchange (Loop Process.Sink))} {r : DriverRunner Process.Sink} {x : Except Exn (Option (DriverRunner Process.Sink))} :
    fromEnviron environ hostname = .ok config → Process.buildRunner config = .ok process →
      Run process.runner (passes.map Pass.cycle) r → (∀ p ∈ passes, Survived p.cycle) →
      Ending config.intervalSeconds n r passes begun last x →
      Behaves n hostname environ (traceOf config.intervalSeconds passes ++ last) (.ofLoop x)

theorem interval_of_buildRunner {config : DriverProcessConfig} {process : Process.DriverProcess}
    (h : Process.buildRunner config = .ok process) : process.interval = config.intervalSeconds := by
  obtain ⟨driver, -, hcreate⟩ := bind_ok_iff.mp h
  unfold Process.DriverProcess.create at hcreate
  dsimp only at hcreate
  split at hcreate
  · cases hcreate
  · obtain rfl := Except.ok.inj hcreate
    rfl

section Main

variable [Python] [Digits] {n : Nat} {hostname : Str} {environ : Dict Str Str}
  {t : List (Exchange (Loop Process.Sink))} {x : ProcessEnd Process.Sink}

/-- The loop that `main` runs, if it does. -/
theorem exec_main (h : (main n hostname environ).Exec t (.ok x)) :
    (t = [] ∧ Behaves n hostname environ t x ∧ (x = .exit 2 ∨ ∃ e, x = .startupError e)) ∨
    ∃ config process y,
      fromEnviron environ hostname = .ok config ∧ Process.buildRunner config = .ok process ∧
      (runForever config.intervalSeconds n process.runner).Exec t y ∧
      x = .ofLoop y := by
  unfold main Process.main at h
  cases hconfig : fromEnviron environ hostname with
  | error e =>
    obtain ⟨m, rfl⟩ := refusing_fromEnviron hostname e hconfig
    simp only [hconfig] at h
    obtain ⟨rfl, hx⟩ := h
    obtain rfl := Except.ok.inj hx
    exact .inl ⟨rfl, .refused hconfig, .inl rfl⟩
  | ok config =>
    cases hbuilt : Process.buildRunner config with
    | error e =>
      simp only [hconfig, hbuilt] at h
      obtain ⟨rfl, hx⟩ := h
      obtain rfl := Except.ok.inj hx
      exact .inl ⟨rfl, .unbuilt hconfig hbuilt, .inr ⟨e, rfl⟩⟩
    | ok process =>
      simp only [hconfig, hbuilt] at h
      obtain ⟨t₁, t₂, y, rfl, hloop, hend⟩ := Prog.exec_attempt_bind.mp h
      rw [interval_of_buildRunner hbuilt] at hloop
      obtain ⟨rfl, hx⟩ := hend
      rw [List.append_nil]
      exact .inr ⟨config, process, y, rfl, hbuilt, hloop, Except.ok.inj hx⟩

/-- The status is 0 only for an event that is set, and 2 for an environment that is refused. -/
theorem main_behaves (h : (main n hostname environ).Exec t (.ok x)) : Behaves n hostname environ t x := by
  rcases exec_main h with ⟨-, hbehaves, -⟩ | ⟨config, process, y, hconfig, hbuilt, hloop, rfl⟩
  · exact hbehaves
  · obtain ⟨passes, begun, last, r, hrun, hsurvived, rfl, hending⟩ := exec_runForever hloop
    exact .polled hconfig hbuilt hrun hsurvived hending

/-- The inventory is not asked for more often than configured, and with no configuration more
often than every five seconds, whatever fails. -/
structure Paced (hostname : Str) (environ : Dict Str Str) (times : List Rat) : Prop where
  spaced : ∀ config, fromEnviron environ hostname = .ok config → Spaced config.intervalSeconds times
  few : ∀ first last : Rat, first ≤ last →
    ((times.filter fun a => first ≤ a ∧ a ≤ last).length : Rat) ≤ (last - first) / 5 + 1

theorem main_paced (h : (main n hostname environ).Exec t (.ok x)) (ht : Timely t) (now : Rat) :
    Paced hostname environ (listingTimes now t) := by
  rcases exec_main h with ⟨rfl, -, -⟩ | ⟨config, process, y, hconfig, hbuilt, hloop, rfl⟩
  · refine ⟨fun _ _ => List.Pairwise.nil, ?_⟩
    intro first last hle
    have hpos : 0 ≤ (last - first) / 5 := div_nonneg (sub_nonneg.mpr hle) (by norm_num)
    simp only [listingTimes_nil, List.filter_nil, List.length_nil, Nat.cast_zero]
    linarith
  · have hfive := five_le_intervalSeconds hconfig
    have hspaced := (spaced_listingTimes (by linarith) hloop ht now).1
    constructor
    · intro config' hconfig'
      obtain rfl := Except.ok.inj (hconfig.symm.trans hconfig')
      exact hspaced
    · intro first last hle
      refine length_filter_of_spaced (hspaced.imp ?_) (by norm_num) hle
      intro a b hab
      linarith

/-- After the signal: no cycle is begun, one request for the inventory is made at the most, of the
cycle in progress, and the process does not go on. -/
structure Stops (n : Nat) (before after : List (Exchange (Loop Process.Sink)))
    (x : ProcessEnd Process.Sink) : Prop where
  lists : after.countP lists ≤ 1
  ends : before.countP begins < n → x = .exit 0 ∨ x = .exit 2 ∨ (∃ e, x = .startupError e) ∨
    ∃ e, x = .pollError e ∧ e.isDriverError = false

/-- Whenever the event is set by a signal, within a cycle or between two of them. -/
theorem main_stops {before after : List (Exchange (Loop Process.Sink))}
    (h : (main n hostname environ).Exec (before ++ after) (.ok x)) (hset : StaysSet after) :
    Stops n before after x := by
  have hafter := countP_begins_of_staysSet hset
  rcases exec_main h with ⟨hnil, -, hend⟩ | ⟨config, process, y, hconfig, hbuilt, hloop, rfl⟩
  · obtain ⟨rfl, rfl⟩ := List.append_eq_nil_iff.mp hnil
    refine ⟨Nat.zero_le _, ?_⟩
    intro _
    rcases hend with rfl | hraised
    · exact .inr (.inl rfl)
    · exact .inr (.inr (.inl hraised))
  · have hsuffix := (countP_of_exec hloop).2 after ⟨before, rfl⟩
    refine ⟨by omega, ?_⟩
    intro hn
    obtain ⟨passes, begun, last, r, hrun, -, ht, hending⟩ := exec_runForever hloop
    have hcount := congrArg (List.countP begins) ht
    rw [List.countP_append, List.countP_append, countP_begins_traceOf hrun, hafter] at hcount
    cases hending with
    | going hlength => omega
    | stopped hlength => exact .inl rfl
    | raised hlength hstep hbreaks => exact .inr (.inr (.inr ⟨_, rfl, hbreaks.not_driverError⟩))

end Main

/-! ## A daemon that is down -/

def downEnviron : Dict Str Str := Dict.ofList [
  (envPrefix ++ lit "TARGET_REFERENCE", lit "vps1"),
  (envPrefix ++ lit "ADMIN_COLLECTOR_URL", lit "https://admin.example/ingest"),
  (envPrefix ++ lit "ADMIN_COLLECTOR_TOKEN", lit "token")]

def downConfig : DriverProcessConfig :=
  { Process.schemelessConfig with
    backend := .docker, portainerUrl := none, portainerEndpointId := none, portainerApiKey := none }

theorem fromEnviron_down :
    @fromEnviron downEnviron Python.ascii Digits.ascii (lit "vps1") = .ok downConfig := by
  decide +kernel

def downProcess : Process.DriverProcess where
  driver := .docker (lit "vps1") (lit "unix:///var/run/docker.sock")
  runner := ⟨Process.adminSinks downConfig, by simp [Process.adminSinks, downConfig, Process.schemelessConfig],
    lit "vps1", true, 50, true, true, Dict.empty⟩
  hostMetrics := some ⟨rstrip '/' (lit "/proc"), Dict.ofList [(lit "/", lit "/")]⟩
  interval := 60

theorem buildRunner_down : Process.buildRunner downConfig = .ok downProcess := rfl

def downCycle : PollCycle Process.Sink :=
  ⟨[⟨.now, []⟩, ⟨.query (.all .container), .error (.driverUnavailable [])⟩],
    .error (.driverUnavailable [])⟩

/-- Two passes, of which the second is ended by a signal. -/
def downPasses : List (Pass Process.Sink) := [⟨0, downCycle, 2, false⟩, ⟨60, downCycle, 61, true⟩]

def downTrace : List (Exchange (Loop Process.Sink)) := traceOf 60 downPasses ++ [.inr ⟨.isSet, true⟩]

theorem exec_downTrace :
    (@main Python.ascii Digits.ascii 3 (lit "vps1") downEnviron).Exec downTrace (.ok (.exit 0)) := by
  have hstep : (runOnce downProcess.runner).Exec downCycle.trace
      (.ok (downCycle.outcome, downProcess.runner)) := ⟨_, _, rfl, _, _, rfl, rfl, rfl⟩
  have hsurvived : Survived downCycle := by
    intro e he
    obtain rfl := Except.error.inj he
    rfl
  have hpass (p : Pass Process.Sink) (hp : p.cycle = downCycle) :
      (pass 60 downProcess.runner).Exec (p.trace 60) (.ok (some downProcess.runner)) :=
    exec_pass_of_step (hp ▸ hstep) (hp ▸ hsurvived)
  have hloop : (runForever 60 3 downProcess.runner).Exec downTrace (.ok none) := by
    let p : Pass Process.Sink := ⟨0, downCycle, 2, false⟩
    let q : Pass Process.Sink := ⟨60, downCycle, 61, true⟩
    refine Prog.exec_bind.mpr (.inr ⟨p.trace 60, q.trace 60 ++ [.inr ⟨.isSet, true⟩], _, rfl,
      hpass p rfl, ?_⟩)
    refine Prog.exec_bind.mpr (.inr ⟨q.trace 60, [.inr ⟨.isSet, true⟩], _, rfl, hpass q rfl, ?_⟩)
    exact ⟨true, _, rfl, rfl, rfl⟩
  unfold main Process.main
  simp only [fromEnviron_down, buildRunner_down]
  exact Prog.exec_attempt_bind.mpr ⟨_, [], _, (List.append_nil _).symm, hloop, rfl, rfl⟩

theorem main_behaves_down :
    @Behaves Python.ascii Digits.ascii 3 (lit "vps1") downEnviron downTrace (.exit 0) :=
  @main_behaves Python.ascii Digits.ascii 3 _ _ _ _ exec_downTrace

/-- The ways to split a list at one of its elements. -/
theorem forall_split_cons {α : Type} {P : List α → α → List α → Prop} {a : α} {l : List α} :
    (∀ before x after, a :: l = before ++ x :: after → P before x after) ↔
      P [] a l ∧ ∀ before x after, l = before ++ x :: after → P (a :: before) x after := by
  constructor
  · intro h
    exact ⟨h [] a l rfl, fun before x after hl => h (a :: before) x after (congrArg (a :: ·) hl)⟩
  · rintro ⟨hnil, hcons⟩ before x after h
    cases before with
    | nil =>
      obtain ⟨rfl, rfl⟩ := List.cons.inj h
      exact hnil
    | cons b before =>
      obtain ⟨rfl, hl⟩ := List.cons.inj h
      exact hcons before x after hl

theorem timely_downTrace : Timely downTrace := by
  constructor
  · change ([0, 2, 60, 61] : List Rat).Pairwise (· ≤ ·)
    norm_num
  · suffices h : ∀ before x after, downTrace = before ++ x :: after → ∀ seconds,
        x = .inr ⟨.wait seconds, some false⟩ → ∀ a ∈ readings before, ∀ b ∈ readings after, a + seconds ≤ b by
      intro before seconds after ht
      exact h before _ after ht seconds rfl
    simp only [downTrace, traceOf, downPasses, Pass.trace, opening, closing, downCycle,
      List.flatMap_cons, List.flatMap_nil, List.cons_append, List.nil_append, List.map_cons, List.map_nil,
      List.append_nil, forall_split_cons]
    simp [Exchange.inr, Exchange.inl, readings]
    and_intros <;>
    · intro seconds hx
      cases hx <;> norm_num
  · simp only [downTrace, traceOf, downPasses, Pass.trace, opening, closing, downCycle,
      List.flatMap_cons, List.flatMap_nil, List.cons_append, List.nil_append, List.map_cons, List.map_nil,
      List.append_nil, forall_split_cons]
    simp [Exchange.inr, Exchange.inl, Signals]
    refine ⟨?_, ?_⟩
    · intro h
      cases h
    · intro _ h
      cases h

theorem main_paced_down : @Paced Python.ascii Digits.ascii (lit "vps1") downEnviron
    (listingTimes 0 downTrace) ∧ listingTimes 0 downTrace = [0, 60] :=
  ⟨@main_paced Python.ascii Digits.ascii 3 _ _ _ _ exec_downTrace timely_downTrace 0, rfl⟩

/-- The signal arrives while the daemon is asked in the second pass. -/
def downAfter : List (Exchange (Loop Process.Sink)) := downTrace.drop 9

theorem main_stops_down : Stops 3 (downTrace.take 9) downAfter (.exit 0) := by
  have hexec := exec_downTrace
  rw [← List.take_append_drop 9 downTrace] at hexec
  apply @main_stops Python.ascii Digits.ascii 3 (lit "vps1") downEnviron _ _ _ hexec
  have hafter : downAfter = [.inl ⟨.query (.all .container), .error (.driverUnavailable [])⟩,
    .inr ⟨.monotonic, 61⟩, .inr ⟨.wait (max 0 (60 - (61 - 60))), some true⟩, .inr ⟨.isSet, true⟩] := rfl
  rw [← downAfter, hafter]
  simp only [StaysSet, List.forall_mem_cons, List.not_mem_nil, false_imp_iff, implies_true, and_true]
  exact ⟨trivial, trivial, rfl, rfl⟩

end MiraDriver.Schedule
