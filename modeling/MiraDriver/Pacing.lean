import Mathlib.Algebra.Order.Field.Basic
import Mathlib.Data.List.Basic
import Mathlib.Tactic.Linarith
import Mathlib.Tactic.Ring

/-!
# Times that are a gap apart

Only so many of them fit in a window.
-/
namespace MiraDriver.Pacing

variable {K : Type} [Field K] [LinearOrder K] [IsStrictOrderedRing K]

/-- Each time is at least a gap after all times before it. -/
def Spaced (gap : K) (times : List K) : Prop := times.Pairwise fun a b => a + gap ≤ b

variable {gap : K} {times : List K}

theorem spaced_cons {a : K} (hgap : 0 ≤ gap) (h : Spaced gap times)
    (hnext : ∀ b ∈ times.head?, a + gap ≤ b) : Spaced gap (a :: times) := by
  refine List.Pairwise.cons ?_ h
  cases times with
  | nil => simp
  | cons b times =>
    have hab := hnext b rfl
    intro c hc
    cases List.mem_cons.mp hc with
    | inl hc => exact hc ▸ hab
    | inr hc =>
      have hbc := (List.pairwise_cons.mp h).1 c hc
      linarith

/-- From the first to the last of spaced times there is a gap for each but one. -/
theorem length_of_spaced {first last : K} (h : Spaced gap times)
    (hwindow : ∀ a ∈ times, first ≤ a ∧ a ≤ last) (hne : times ≠ []) :
    ((times.length : K) - 1) * gap ≤ last - first := by
  induction times generalizing first with
  | nil => exact absurd rfl hne
  | cons a times ih =>
    obtain ⟨ha, htimes⟩ := List.forall_mem_cons.mp hwindow
    obtain ⟨hnext, h⟩ := List.pairwise_cons.mp h
    by_cases hnil : times = []
    · subst hnil
      simp only [List.length_singleton, Nat.cast_one, sub_self, zero_mul]
      linarith [ha.1, ha.2]
    · have hrest := @ih (a + gap) h (fun b hb => ⟨hnext b hb, (htimes b hb).2⟩) hnil
      have hlength : ((times.length : K) - 1) * gap + gap = (((a :: times).length : K) - 1) * gap := by
        rw [List.length_cons, Nat.cast_succ]
        ring
      linarith [ha.1]

/-- The number of spaced times in a window. -/
theorem length_filter_of_spaced (h : Spaced gap times) (hgap : 0 < gap) {first last : K}
    (hle : first ≤ last) :
    ((times.filter fun a => first ≤ a ∧ a ≤ last).length : K) ≤ (last - first) / gap + 1 := by
  have hfilter : Spaced gap (times.filter fun a => first ≤ a ∧ a ≤ last) := h.filter _
  by_cases hnil : (times.filter fun a => first ≤ a ∧ a ≤ last) = []
  · rw [hnil, List.length_nil, Nat.cast_zero]
    have hpos : 0 ≤ (last - first) / gap := div_nonneg (sub_nonneg.mpr hle) hgap.le
    linarith
  · have hlength := length_of_spaced hfilter (fun a ha => by simpa using (List.mem_filter.mp ha).2) hnil
    rw [← sub_le_iff_le_add]
    exact (le_div_iff₀ hgap).mpr hlength

end MiraDriver.Pacing
