import Mathlib.Algebra.Ring.Nat
import MiraDriver.Link

/-!
# What an interaction costs

Each call has a price. The price of an interaction is the sum over its calls, and a program
spends at most so much if no interaction with it costs more, whatever it is answered.
-/
namespace MiraDriver.Program

variable {I J : Interface} {ε δ α β W : Type}

/-- The price of the calls of an interaction. -/
def cost (price : I.Call → Nat) (t : List (Exchange I)) : Nat := (t.map fun x => price x.1).sum

section Cost

variable (price : I.Call → Nat)

@[simp] theorem cost_nil : cost price ([] : List (Exchange I)) = 0 := rfl

@[simp] theorem cost_cons (x : Exchange I) (t : List (Exchange I)) :
    cost price (x :: t) = price x.1 + cost price t := by
  simp [cost]

@[simp] theorem cost_append (s t : List (Exchange I)) : cost price (s ++ t) = cost price s + cost price t := by
  simp [cost]

theorem cost_scale (a : Nat) (t : List (Exchange I)) : cost (fun c => a * price c) t = a * cost price t := by
  induction t with
  | nil => rfl
  | cons x t ih => rw [cost_cons, cost_cons, ih, Nat.mul_add]

end Cost

namespace Prog

variable {price : I.Call → Nat}

/-- No interaction with the program costs more. -/
def Spends (price : I.Call → Nat) (n : Nat) (p : Prog I ε α) : Prop := ∀ t r, p.Exec t r → cost price t ≤ n

theorem Spends.mono {m n : Nat} {p : Prog I ε α} (h : p.Spends price m) (hmn : m ≤ n) : p.Spends price n := by
  intro t r hexec
  exact Nat.le_trans (h t r hexec) hmn

theorem spends_pure (n : Nat) (a : α) : (pure a : Prog I ε α).Spends price n := by
  rintro t r ⟨rfl, -⟩
  exact Nat.zero_le n

theorem spends_throw (n : Nat) (e : ε) : (throw e : Prog I ε α).Spends price n := by
  rintro t r ⟨rfl, -⟩
  exact Nat.zero_le n

theorem spends_ofExcept (n : Nat) (x : Except ε α) : (ofExcept x : Prog I ε α).Spends price n := by
  intro t r h
  rw [((exec_ofExcept _ _ _).mp h).1]
  exact Nat.zero_le n

theorem spends_ask (c : I.Call) : (ask c : Prog I ε (I.Reply c)).Spends price (price c) := by
  intro t r h
  obtain ⟨x, rfl, -⟩ := (exec_ask c t r).mp h
  simp

theorem spends_bind {m n : Nat} {p : Prog I ε α} {f : α → Prog I ε β} (hp : p.Spends price m)
    (hf : ∀ a, (f a).Spends price n) : (p >>= f).Spends price (m + n) := by
  intro t r h
  obtain ⟨t₁, t₂, x, rfl, hexec, hrest⟩ := exec_bind_outcome h
  have hfirst := hp t₁ x hexec
  rw [cost_append]
  cases x with
  | ok a =>
    have hsecond := hf a t₂ r hrest
    omega
  | error e =>
    rw [hrest.1, cost_nil]
    omega

theorem spends_ofExcept_bind {n : Nat} {x : Except ε α} {f : α → Prog I ε β}
    (hf : ∀ a, (f a).Spends price n) : (ofExcept x >>= f).Spends price n := by
  have h := spends_bind (spends_ofExcept 0 x) hf
  rwa [Nat.zero_add] at h

/-- What follows costs nothing. -/
theorem spends_bind_free {n : Nat} {p : Prog I ε α} {f : α → Prog I ε β} (hp : p.Spends price n)
    (hf : ∀ a, (f a).Spends price 0) : (p >>= f).Spends price n := spends_bind hp hf

theorem spends_attempt {n : Nat} {p : Prog I ε α} (h : p.Spends price n) :
    (p.attempt : Prog I δ (Except ε α)).Spends price n := by
  intro t r hexec
  obtain ⟨x, hx, -⟩ := exec_attempt.mp hexec
  exact h t x hx

/-- Where every call has the price `a` times as high. -/
theorem Spends.scale {n : Nat} {p : Prog I ε α} (h : p.Spends price n) (a : Nat) :
    p.Spends (fun c => a * price c) (a * n) := by
  intro t r hexec
  rw [cost_scale]
  exact Nat.mul_le_mul_left a (h t r hexec)

/-- Handlers that keep to the prices make the linked interaction cost no more. -/
theorem cost_of_linked {h : W → (c : I.Call) → Prog J Empty (I.Reply c × W)} {price' : J.Call → Nat}
    {K : W → Prop} (hspends : ∀ w c, K w → (h w c).Spends price' (price c))
    (hkept : ∀ w c s x w', K w → (h w c).Exec s (.ok (x, w')) → K w')
    {w w' : W} {u : List (Exchange I)} {t : List (Exchange J)} (hlinked : Linked h w u t w') (hw : K w) :
    cost price' t ≤ cost price u := by
  induction hlinked with
  | nil => exact Nat.zero_le _
  | @cons w w₁ w₂ c x u s t hs hrest ih =>
    have hone := hspends w c hw s _ hs
    have hlater := ih (hkept w c s x w₁ hw hs)
    rw [cost_append, cost_cons]
    exact Nat.add_le_add hone hlater

/-- A program that is passed on spends the same below. -/
theorem spends_link_relay {price' : J.Call → Nat} {f : I.Call → J.Call}
    {g : ∀ c, J.Reply (f c) → I.Reply c} (hprice : ∀ c, price' (f c) = price c) {n : Nat} {p : Prog I ε α}
    (hp : p.Spends price n) (w : W) : (p.link (relay f g) w).Spends price' n := by
  intro t r hexec
  cases r with
  | error e => exact nomatch e
  | ok out =>
    obtain ⟨-, u, hcalls, hexec⟩ := exec_link_relay f g hexec
    have hsame : cost price' t = cost price u := by
      calc cost price' t = ((t.map Sigma.fst).map price').sum := by rw [cost, List.map_map]; rfl
        _ = ((u.map fun x => f x.1).map price').sum := by rw [hcalls]
        _ = cost price u := by rw [List.map_map]; exact congrArg List.sum (List.map_congr_left fun x _ => hprice x.1)
    rw [hsame]
    exact hp u _ hexec

end Prog

end MiraDriver.Program
