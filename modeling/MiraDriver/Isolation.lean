import MiraDriver.Blind
import MiraDriver.Outage

/-!
# Sinks apart from each other

A sink is called for its effect only. What the others are handed, what a cycle ends in and
what the runner remembers is the same whether a sink is up or down.
-/
namespace MiraDriver.Isolation

open MiraDriver.Text MiraDriver.Mapping MiraDriver.Base MiraDriver.Program MiraDriver.Runner
  MiraDriver.Cycle MiraDriver.Lifecycle MiraDriver.Outage

variable {σ : Type}

def isPublish : (Env σ).Call → Bool
  | .publish _ _ => true
  | _ => false

/-- A sink raises nothing but an `Exception`. -/
def SinkContained : Exchange (Env σ) → Prop
  | ⟨.publish _ _, reply⟩ => ∀ e, reply = .error e → e.isException = true
  | _ => True

/-- The calls of an interaction. -/
def calls (t : List (Exchange (Env σ))) : List (Call σ) := t.map Sigma.fst

/-- What is asked of everything but the sinks, and answered, is the same in both cycles. -/
def SameWorld (c d : PollCycle σ) : Prop := seen isPublish c.trace = seen isPublish d.trace

/-! ## One cycle -/

theorem blind_publishAll (snapshot : DriverSnapshot) (sinks : List σ) :
    (publishAll snapshot sinks).Blind isPublish SinkContained := by
  induction sinks with
  | nil => exact trivial
  | cons sink rest ih =>
    -- after every acceptable reply it is the turn of the rest
    refine Prog.blind_ask_bind (I := Env σ) (c := .publish sink snapshot) ih ?_
    intro reply hreply
    cases reply with
    | ok u => rfl
    | error e => exact if_pos (hreply e rfl)

theorem allCalls_collect (r : DriverRunner σ) :
    (collect r).AllCalls fun c => isPublish c = false := by
  apply Prog.allCalls_bind
  · apply Prog.allCalls_attempt
    apply allCalls_poll <;> simp [isPublish]
  · intro polled
    cases polled with
    | error e => apply Prog.allCalls_pure
    | ok gathered =>
      apply Prog.allCalls_bind
      · apply Prog.allCalls_attempt
        exact allCalls_collectHost rfl
      · intro hostMetrics
        apply Prog.allCalls_pure

/-- A cycle collects, which hands nothing to a sink, and then publishes what it has collected. -/
theorem exec_runOnce_split {r r' : DriverRunner σ} {t : List (Exchange (Env σ))} {out : Except Exn DriverSnapshot}
    (h : (runOnce r).Exec t (.ok (out, r'))) :
    ∃ t₁ t₂ collected, t = t₁ ++ t₂ ∧ (collect r).Exec t₁ (.ok (collected, r')) ∧ published t₁ = [] ∧
      ((∃ e, collected = .error e ∧ out = .error e ∧ t₂ = []) ∨
        ∃ snapshot result, collected = .ok snapshot ∧ (publishAll snapshot r'.sinks).Exec t₂ result ∧
          out = result.map fun _ => snapshot) := by
  obtain ⟨t₁, t₂, ⟨collected, q⟩, rfl, hcollect, hrest⟩ := Prog.exec_bind_ok.mp h
  have hsilent : published t₁ = [] := by
    have hcalls := (allCalls_collect r).of_exec hcollect
    apply List.filterMap_eq_nil_iff.mpr
    intro ⟨c, reply⟩ hx
    have hc := hcalls _ hx
    cases c <;> first | rfl | cases hc
  cases collected with
  | error e =>
    obtain ⟨rfl, hout⟩ := hrest
    obtain ⟨rfl, rfl⟩ := Prod.mk.inj (Except.ok.inj hout)
    exact ⟨t₁, [], .error e, rfl, hcollect, hsilent, .inl ⟨e, rfl, rfl, rfl⟩⟩
  | ok snapshot =>
    obtain ⟨t₂, t₃, result, rfl, hpublish, rfl, hout⟩ := Prog.exec_attempt_bind.mp hrest
    obtain ⟨rfl, rfl⟩ := Prod.mk.inj (Except.ok.inj hout)
    rw [List.append_nil]
    exact ⟨t₁, t₂, .ok snapshot, rfl, hcollect, hsilent, .inr ⟨snapshot, result, rfl, hpublish, rfl⟩⟩

theorem blind_runOnce (r : DriverRunner σ) : (runOnce r).Blind isPublish SinkContained := by
  apply Prog.blind_bind (allCalls_collect r).blind
  rintro ⟨collected, r'⟩
  cases collected with
  | error e => apply Prog.blind_pure
  | ok snapshot =>
    apply Prog.blind_bind
    · exact Prog.blind_attempt (blind_publishAll snapshot r'.sinks)
    · intro published
      apply Prog.blind_pure

/-! ## A run -/

/-- Two runs of a runner, in a world that answers the same but for the sinks, which may be up
in one and down in the other: they make the same calls, with the same snapshots for the
sinks, and leave the same runner behind. -/
theorem run_isolated {r r₁ r₂ : DriverRunner σ} {cs ds : List (PollCycle σ)} (h₁ : Run r cs r₁)
    (h₂ : Run r ds r₂) (hc : ∀ c ∈ cs, ∀ x ∈ c.trace, SinkContained x)
    (hd : ∀ d ∈ ds, ∀ x ∈ d.trace, SinkContained x) (hs : List.Forall₂ SameWorld cs ds) :
    cs.map (fun c => (calls c.trace, c.outcome)) = ds.map (fun d => (calls d.trace, d.outcome)) ∧
      r₁ = r₂ := by
  induction h₁ generalizing ds with
  | nil r =>
    cases hs
    cases h₂
    exact ⟨rfl, rfl⟩
  | @cons r q r₁ c cs hstep hrest ih =>
    cases hs with
    | @cons _ d _ ds hsame hs =>
      cases h₂ with
      | @cons _ q' _ _ _ hstep' hrest' =>
        obtain ⟨hc, hcs⟩ := List.forall_mem_cons.mp hc
        obtain ⟨hd, hds⟩ := List.forall_mem_cons.mp hd
        obtain ⟨hcalls, hout⟩ := (blind_runOnce r).exec_agree hstep hstep' hc hd hsame
        obtain ⟨hsnapshot, rfl⟩ := Prod.mk.inj (Except.ok.inj hout)
        obtain ⟨hmap, rfl⟩ := ih hrest' hcs hds hs
        refine ⟨?_, rfl⟩
        rw [List.map_cons, List.map_cons, hmap, hsnapshot]
        exact congrArg (fun calls => (calls, d.outcome) :: _) hcalls

/-- The run in which a sink is down for a cycle, with that sink up. -/
def undisturbedRun : List (PollCycle Bool) :=
  [outageRun.cycle outageAlive [] [] (.ok ()),
    outageRun.cycle outageDead [⟨.logs ['a'] 50, .ok ⟨[], false⟩⟩] [⟨.exited, ['a'], [], none, []⟩]
      (.ok ()), outageRun.cycle outageDead [] [] (.ok ())]

theorem run_undisturbedRun : ∃ r, Run freshRunner undisturbedRun r := by
  apply Exists.intro
  apply Run.cons
  · exact ⟨_, _, rfl, _, _, rfl, _, _, rfl, _, _, rfl, _, _, rfl, rfl, rfl⟩
  apply Run.cons
  · exact ⟨_, _, rfl, _, _, rfl, _, _, rfl, _, _, rfl, _, _, rfl, _, _, rfl, rfl, rfl⟩
  apply Run.cons
  · exact ⟨_, _, rfl, _, _, rfl, _, _, rfl, _, _, rfl, _, _, rfl, rfl, rfl⟩
  · exact Run.nil _

theorem sinkContained_outageRun : ∀ c ∈ outageRun ++ undisturbedRun, ∀ x ∈ c.trace, SinkContained x := by
  intro c hc
  simp only [outageRun, undisturbedRun, List.cons_append, List.nil_append, List.mem_cons,
    List.not_mem_nil, or_false] at hc
  obtain rfl | rfl | rfl | rfl | rfl | rfl := hc <;>
  simp [outageRun.cycle, SinkContained, Exn.isException]

theorem run_isolated_outage :
    outageRun.map (fun c => (calls c.trace, c.outcome)) =
        undisturbedRun.map (fun c => (calls c.trace, c.outcome)) ∧
      run_outageRun.choose = run_undisturbedRun.choose := by
  apply run_isolated run_outageRun.choose_spec run_undisturbedRun.choose_spec
  · exact fun c hc => sinkContained_outageRun c (List.mem_append_left _ hc)
  · exact fun c hc => sinkContained_outageRun c (List.mem_append_right _ hc)
  · exact .cons rfl (.cons rfl (.cons rfl .nil))

end MiraDriver.Isolation
