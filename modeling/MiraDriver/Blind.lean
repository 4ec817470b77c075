import MiraDriver.Program

/-!
# Replies that do not matter

A program may make a call only for its effect. It is blind to such a call if it goes on in
the same way after every reply that is acceptable. Two interactions that are the same but for
these replies then have the same calls and the same outcome.
-/
namespace MiraDriver.Program

variable {I : Interface} {ε δ α β : Type} {unseen : I.Call → Bool} {ok : Exchange I → Prop}

/-- The exchanges other than those of unseen calls. -/
def seen (unseen : I.Call → Bool) (t : List (Exchange I)) : List (Exchange I) :=
  t.filter fun x => !unseen x.1

theorem seen_cons_of_unseen {x : Exchange I} (h : unseen x.1 = true) (t : List (Exchange I)) :
    seen unseen (x :: t) = seen unseen t := by
  simp [seen, h]

theorem seen_cons_of_seen {x : Exchange I} (h : unseen x.1 = false) (t : List (Exchange I)) :
    seen unseen (x :: t) = x :: seen unseen t := by
  simp [seen, h]

namespace Prog

/-- The program goes on in the same way after all acceptable replies to an unseen call. -/
def Blind (unseen : I.Call → Bool) (ok : Exchange I → Prop) : Prog I ε α → Prop
  | .ret _ => True
  | .raise _ => True
  | .call c k => (∀ x, ok ⟨c, x⟩ → (k x).Blind unseen ok) ∧
      (unseen c = true → ∀ x y, ok ⟨c, x⟩ → ok ⟨c, y⟩ → k x = k y)

theorem blind_pure (a : α) : (pure a : Prog I ε α).Blind unseen ok := trivial

/-- A program that makes no unseen call. -/
theorem AllCalls.blind {p : Prog I ε α} (h : p.AllCalls fun c => unseen c = false) : p.Blind unseen ok := by
  induction p with
  | ret a => trivial
  | raise e => trivial
  | call c k ih =>
    refine ⟨fun x _ => ih x (h.2 x), fun hc => ?_⟩
    rw [h.1] at hc
    cases hc

theorem blind_bind {p : Prog I ε α} {f : α → Prog I ε β} (hp : p.Blind unseen ok)
    (hf : ∀ a, (f a).Blind unseen ok) : (p >>= f).Blind unseen ok := by
  change (p.bind f).Blind unseen ok
  induction p with
  | ret a => exact hf a
  | raise e => trivial
  | call c k ih =>
    refine ⟨fun x hx => ih x (hp.1 x hx), ?_⟩
    intro hc x y hx hy
    change (k x).bind f = (k y).bind f
    rw [hp.2 hc x y hx hy]

/-- A call that is followed by one program after every acceptable reply. -/
theorem blind_ask_bind {c : I.Call} {f : I.Reply c → Prog I ε α} {p : Prog I ε α}
    (hp : p.Blind unseen ok) (hf : ∀ x, ok ⟨c, x⟩ → f x = p) :
    (ask c >>= f).Blind unseen ok := by
  refine ⟨?_, ?_⟩
  · intro x hx
    change (f x).Blind unseen ok
    exact hf x hx ▸ hp
  · intro _ x y hx hy
    change f x = f y
    rw [hf x hx, hf y hy]

theorem blind_attempt {p : Prog I ε α} (hp : p.Blind unseen ok) :
    (p.attempt : Prog I δ (Except ε α)).Blind unseen ok := by
  induction p with
  | ret a => trivial
  | raise e => trivial
  | call c k ih =>
    refine ⟨fun x hx => ih x (hp.1 x hx), ?_⟩
    intro hc x y hx hy
    change (k x).attempt = (k y).attempt
    rw [hp.2 hc x y hx hy]

/-- Two interactions that differ in the replies to unseen calls only: by induction on the
program, which goes on in one way in both of them. -/
theorem Blind.exec_agree {p : Prog I ε α} (hp : p.Blind unseen ok) {t u : List (Exchange I)}
    {r s : Except ε α} (hr : p.Exec t r) (hs : p.Exec u s) (ht : ∀ x ∈ t, ok x) (hu : ∀ x ∈ u, ok x)
    (h : seen unseen t = seen unseen u) : t.map Sigma.fst = u.map Sigma.fst ∧ r = s := by
  induction p generalizing t u with
  | ret a =>
    obtain ⟨rfl, rfl⟩ := hr
    obtain ⟨rfl, rfl⟩ := hs
    exact ⟨rfl, rfl⟩
  | raise e =>
    obtain ⟨rfl, rfl⟩ := hr
    obtain ⟨rfl, rfl⟩ := hs
    exact ⟨rfl, rfl⟩
  | call c k ih =>
    obtain ⟨x, t, rfl, hr⟩ := hr
    obtain ⟨y, u, rfl, hs⟩ := hs
    obtain ⟨hx, ht⟩ := List.forall_mem_cons.mp ht
    obtain ⟨hy, hu⟩ := List.forall_mem_cons.mp hu
    have hnext : k x = k y ∧ seen unseen t = seen unseen u := by
      cases hc : unseen c with
      | true =>
        rw [seen_cons_of_unseen hc, seen_cons_of_unseen hc] at h
        exact ⟨hp.2 hc x y hx hy, h⟩
      | false =>
        rw [seen_cons_of_seen hc, seen_cons_of_seen hc] at h
        obtain ⟨hxy, hrest⟩ := List.cons.inj h
        obtain rfl := eq_of_heq (Sigma.mk.inj hxy).2
        exact ⟨rfl, hrest⟩
    obtain ⟨hcalls, hout⟩ := ih x (hp.1 x hx) hr (hnext.1 ▸ hs) ht hu hnext.2
    exact ⟨by rw [List.map_cons, List.map_cons, hcalls], hout⟩

end Prog

end MiraDriver.Program
