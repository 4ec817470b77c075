import Mathlib.Data.List.Basic
import Mathlib.Data.List.Induction

/-!
# Histories

A machine that takes one call after the other, with a register for what the calls read. The
register holds the latest reading, whatever else the calls do.
-/
namespace MiraDriver.History

variable {σ γ β : Type}

/-- The states before and after a sequence of calls. -/
inductive Run (step : σ → γ → σ → Prop) : σ → List γ → σ → Prop
  | nil (s : σ) : Run step s [] s
  | snoc {s s' s'' : σ} {calls : List γ} {call : γ} :
    Run step s calls s' → step s' call s'' → Run step s (calls ++ [call]) s''

/-- What the last of the calls that have read anything has read. -/
def Latest (reads : γ → β → Prop) (calls : List γ) (b : β) : Prop :=
  ∃ before call after, calls = before ++ call :: after ∧ reads call b ∧
    ∀ later ∈ after, ∀ b', ¬ reads later b'

section Latest

variable {reads : γ → β → Prop} {calls : List γ} {call : γ} {b : β}

theorem not_latest_nil : ¬ Latest reads [] b := by
  rintro ⟨before, call, after, hcalls, -, -⟩
  simp at hcalls

/-- One more call: what it reads, or what was the latest reading before. -/
theorem latest_append_iff : Latest reads (calls ++ [call]) b ↔
    reads call b ∨ (∀ b', ¬ reads call b') ∧ Latest reads calls b := by
  constructor
  · rintro ⟨before, reader, after, hcalls, hreads, hafter⟩
    rcases List.eq_nil_or_concat after with rfl | ⟨after, last, rfl⟩
    · obtain ⟨-, hcall⟩ := List.append_inj' hcalls rfl
      obtain rfl : call = reader := List.singleton_inj.mp hcall
      exact .inl hreads
    · rw [List.concat_eq_append] at hcalls hafter
      rw [← List.cons_append, ← List.append_assoc] at hcalls
      obtain ⟨rfl, hcall⟩ := List.append_inj' hcalls rfl
      obtain rfl : call = last := List.singleton_inj.mp hcall
      refine .inr ⟨hafter call (by simp), before, reader, after, rfl, hreads, ?_⟩
      intro later hlater
      exact hafter later (List.mem_append_left _ hlater)
  · rintro (hreads | ⟨hnone, before, reader, after, rfl, hreads, hafter⟩)
    · exact ⟨calls, call, [], rfl, hreads, by simp⟩
    · refine ⟨before, reader, after ++ [call], by simp, hreads, ?_⟩
      intro later hlater
      cases List.mem_append.mp hlater with
      | inl hlater => exact hafter later hlater
      | inr hlater => exact List.mem_singleton.mp hlater ▸ hnone

/-- Some more calls: what they have read last, or what was the latest reading before. -/
theorem latest_append_list_iff {later : List γ} : Latest reads (calls ++ later) b ↔
    Latest reads later b ∨ (∀ call ∈ later, ∀ b', ¬ reads call b') ∧ Latest reads calls b := by
  induction later using List.reverseRecOn generalizing b with
  | nil => simp [not_latest_nil]
  | append_singleton later call ih =>
    rw [← List.append_assoc, latest_append_iff, latest_append_iff, ih, List.forall_mem_append,
      List.forall_mem_singleton]
    tauto

/-- If a call reads one thing at most, there is one latest reading at most. -/
theorem Latest.unique (hreads : ∀ call ∈ calls, ∀ b b', reads call b → reads call b' → b = b') {b b' : β}
    (h : Latest reads calls b) (h' : Latest reads calls b') : b = b' := by
  induction calls using List.reverseRecOn with
  | nil => exact absurd h not_latest_nil
  | append_singleton calls call ih =>
    obtain ⟨hcalls, hcall⟩ := List.forall_mem_append.mp hreads
    rw [latest_append_iff] at h h'
    rcases h with h | ⟨hnone, h⟩
    · rcases h' with h' | ⟨hnone, -⟩
      · exact hcall call List.mem_cons_self b b' h h'
      · exact absurd h (hnone b)
    · rcases h' with h' | ⟨-, h'⟩
      · exact absurd h' (hnone b')
      · exact ih hcalls h h'

end Latest

variable {step : σ → γ → σ → Prop} {s s' : σ} {calls : List γ}

/-- What every step preserves holds after a run. -/
theorem Run.invariant {I : σ → Prop} (h : Run step s calls s')
    (hstep : ∀ s call s', I s → step s call s' → I s') (hs : I s) : I s' := by
  induction h with
  | nil => exact hs
  | snoc _ hlast ih => exact hstep _ _ _ ih hlast

/-- A register takes over what a call reads, and is left alone by a call that reads nothing. -/
structure Register (step : σ → γ → σ → Prop) (I : σ → Prop) (reads : γ → β → Prop)
    (register : σ → Option β) : Prop where
  invariant : ∀ s call s', I s → step s call s' → I s'
  takes : ∀ s call s' b, I s → step s call s' → reads call b → register s' = some b
  keeps : ∀ s call s', I s → step s call s' → (∀ b, ¬ reads call b) → register s' = register s

/-- A register that was empty holds the latest reading: by induction on the calls. -/
theorem Run.register_iff {I : σ → Prop} {reads : γ → β → Prop} {register : σ → Option β}
    (h : Run step s calls s') (hr : Register step I reads register) (hs : I s)
    (hempty : register s = none) (b : β) : register s' = some b ↔ Latest reads calls b := by
  induction h with
  | nil => simp [hempty, not_latest_nil]
  | @snoc q q' calls call hrun hlast ih =>
    have hq : I q := hrun.invariant hr.invariant hs
    rw [latest_append_iff]
    by_cases hreads : ∃ b', reads call b'
    · obtain ⟨b', hb'⟩ := hreads
      have htaken := hr.takes q call q' b' hq hlast hb'
      constructor
      · intro hb
        obtain rfl := Option.some.inj (htaken.symm.trans hb)
        exact .inl hb'
      · rintro (hb | ⟨hnone, -⟩)
        · exact hr.takes q call q' b hq hlast hb
        · exact absurd hb' (hnone b')
    · have hnone : ∀ b', ¬ reads call b' := fun b' hb' => hreads ⟨b', hb'⟩
      rw [hr.keeps q call q' hq hlast hnone, ih]
      constructor
      · intro hlatest
        exact .inr ⟨hnone, hlatest⟩
      · rintro (hb | ⟨-, hlatest⟩)
        · exact absurd hb (hnone b)
        · exact hlatest

end MiraDriver.History
