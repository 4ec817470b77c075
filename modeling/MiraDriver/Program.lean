import Mathlib.Data.List.Basic

/-!
# Programs that call an environment

A program is a finite tree: it returns, raises, or makes one call and continues
with whatever the environment replies. Nothing is assumed of the environment. A
complete interaction is recorded as the list of calls with their replies, and
`Exec` says which results a recorded interaction produces. Facts proved for every
`Exec` hold for every behaviour of the environment, in every order of replies.
-/
namespace MiraDriver.Program

/-- The calls a program may make, and the type of the reply to each. -/
structure Interface where
  Call : Type
  Reply : Call → Type

inductive Prog (I : Interface) (ε α : Type) where
  | ret : α → Prog I ε α
  | raise : ε → Prog I ε α
  | call : (c : I.Call) → (I.Reply c → Prog I ε α) → Prog I ε α

/-- One call together with the reply it met. -/
abbrev Exchange (I : Interface) := (c : I.Call) × I.Reply c

variable {I : Interface} {ε δ α β : Type}

namespace Prog

def bind : Prog I ε α → (α → Prog I ε β) → Prog I ε β
  | .ret a, f => f a
  | .raise e, _ => .raise e
  | .call c k, f => .call c (fun x => (k x).bind f)

/-- Python's `try`/`except`: a raised exception is handed to the handler. -/
def handle : Prog I ε α → (ε → Prog I ε α) → Prog I ε α
  | .ret a, _ => .ret a
  | .raise e, h => h e
  | .call c k, h => .call c (fun x => (k x).handle h)

instance : Monad (Prog I ε) where
  pure := .ret
  bind := bind

instance : MonadExceptOf ε (Prog I ε) where
  throw := .raise
  tryCatch := handle

/-- Make one call and return its reply. -/
def ask (c : I.Call) : Prog I ε (I.Reply c) := .call c .ret

def ofExcept : Except ε α → Prog I ε α
  | .ok a => .ret a
  | .error e => .raise e

/-- Return the outcome as a value; the result itself never raises. -/
def attempt : Prog I ε α → Prog I δ (Except ε α)
  | .ret a => .ret (.ok a)
  | .raise e => .ret (.error e)
  | .call c k => .call c (fun x => (k x).attempt)

/-- `p.Exec t r`: met with the replies recorded in `t`, the program makes
exactly the calls of `t`, in that order, and ends with `r`. -/
def Exec : Prog I ε α → List (Exchange I) → Except ε α → Prop
  | .ret a, t, r => t = [] ∧ r = .ok a
  | .raise e, t, r => t = [] ∧ r = .error e
  | .call c k, t, r => ∃ x s, t = ⟨c, x⟩ :: s ∧ (k x).Exec s r

@[simp] theorem exec_pure (a : α) (t : List (Exchange I)) (r : Except ε α) :
    (pure a : Prog I ε α).Exec t r ↔ t = [] ∧ r = .ok a := Iff.rfl

@[simp] theorem exec_throw (e : ε) (t : List (Exchange I)) (r : Except ε α) :
    (throw e : Prog I ε α).Exec t r ↔ t = [] ∧ r = .error e := Iff.rfl

@[simp] theorem exec_ofExcept (x : Except ε α) (t : List (Exchange I)) (r : Except ε α) :
    (ofExcept x : Prog I ε α).Exec t r ↔ t = [] ∧ r = x := by
  cases x <;> rfl

@[simp] theorem exec_ask (c : I.Call) (t : List (Exchange I)) (r : Except ε (I.Reply c)) :
    (ask c : Prog I ε (I.Reply c)).Exec t r ↔ ∃ x, t = [⟨c, x⟩] ∧ r = .ok x := by
  simp only [ask, Exec]
  constructor
  · rintro ⟨x, s, rfl, rfl, rfl⟩
    exact ⟨x, rfl, rfl⟩
  · rintro ⟨x, rfl, rfl⟩
    exact ⟨x, [], rfl, rfl, rfl⟩

/-- A sequence either stops at the first part's exception, or continues from its
value with the rest of the interaction. -/
theorem exec_bind {p : Prog I ε α} {f : α → Prog I ε β} {t : List (Exchange I)}
    {r : Except ε β} :
    (p >>= f).Exec t r ↔
      (∃ e, p.Exec t (.error e) ∧ r = .error e) ∨
      ∃ t₁ t₂ a, t = t₁ ++ t₂ ∧ p.Exec t₁ (.ok a) ∧ (f a).Exec t₂ r := by
  change (p.bind f).Exec t r ↔ _
  induction p generalizing t with
  | ret a => simp [bind, Exec]
  | raise e => simp [bind, Exec]
  | call c k ih =>
    simp only [bind, Exec, ih]
    constructor
    · rintro ⟨x, s, rfl, ⟨e, he, rfl⟩ | ⟨t₁, t₂, a, rfl, ha, hf⟩⟩
      · exact .inl ⟨e, ⟨x, s, rfl, he⟩, rfl⟩
      · exact .inr ⟨⟨c, x⟩ :: t₁, t₂, a, rfl, ⟨x, t₁, rfl, ha⟩, hf⟩
    · rintro (⟨e, ⟨x, s, rfl, he⟩, rfl⟩ | ⟨t₁, t₂, a, rfl, ⟨x, s, rfl, ha⟩, hf⟩)
      · exact ⟨x, s, rfl, .inl ⟨e, he, rfl⟩⟩
      · exact ⟨x, s ++ t₂, rfl, .inr ⟨s, t₂, a, rfl, ha, hf⟩⟩

theorem exec_attempt {p : Prog I ε α} {t : List (Exchange I)} {r : Except δ (Except ε α)} :
    (p.attempt : Prog I δ (Except ε α)).Exec t r ↔ ∃ x, p.Exec t x ∧ r = .ok x := by
  induction p generalizing t with
  | ret a => simp [attempt, Exec]
  | raise e => simp [attempt, Exec]
  | call c k ih =>
    simp only [attempt, Exec, ih]
    constructor
    · rintro ⟨x, s, rfl, y, hy, rfl⟩
      exact ⟨y, ⟨x, s, rfl, hy⟩, rfl⟩
    · rintro ⟨y, ⟨x, s, rfl, hy⟩, rfl⟩
      exact ⟨x, s, rfl, y, hy, rfl⟩

/-- Every call the program can make, whatever it is answered, satisfies `P`. -/
def AllCalls (P : I.Call → Prop) : Prog I ε α → Prop
  | .ret _ => True
  | .raise _ => True
  | .call c k => P c ∧ ∀ x, (k x).AllCalls P

variable {P : I.Call → Prop}

@[simp] theorem allCalls_pure (a : α) : (pure a : Prog I ε α).AllCalls P := trivial

@[simp] theorem allCalls_throw (e : ε) : (throw e : Prog I ε α).AllCalls P := trivial

@[simp] theorem allCalls_ofExcept (x : Except ε α) : (ofExcept x : Prog I ε α).AllCalls P := by
  cases x <;> trivial

@[simp] theorem allCalls_ask (c : I.Call) :
    (ask c : Prog I ε (I.Reply c)).AllCalls P ↔ P c := by
  simp [ask, AllCalls]

theorem allCalls_bind {p : Prog I ε α} {f : α → Prog I ε β} (hp : p.AllCalls P)
    (hf : ∀ a, (f a).AllCalls P) : (p >>= f).AllCalls P := by
  change (p.bind f).AllCalls P
  induction p with
  | ret a => exact hf a
  | raise e => trivial
  | call c k ih => exact ⟨hp.1, fun x => ih x (hp.2 x)⟩

theorem AllCalls.left {p : Prog I ε α} {f : α → Prog I ε β} (h : (p >>= f).AllCalls P) :
    p.AllCalls P := by
  change (p.bind f).AllCalls P at h
  induction p with
  | ret a => trivial
  | raise e => trivial
  | call c k ih => exact ⟨h.1, fun x => ih x (h.2 x)⟩

/-- The rest of a sequence needs to be looked at only for values the first part can
return. -/
theorem allCalls_bind_of_exec {p : Prog I ε α} {f : α → Prog I ε β} (hp : p.AllCalls P)
    (hf : ∀ t a, p.Exec t (.ok a) → (f a).AllCalls P) : (p >>= f).AllCalls P := by
  change (p.bind f).AllCalls P
  induction p with
  | ret a => exact hf [] a ⟨rfl, rfl⟩
  | raise e => trivial
  | call c k ih =>
    refine ⟨hp.1, fun x => ih x (hp.2 x) ?_⟩
    intro t a h
    exact hf (⟨c, x⟩ :: t) a ⟨x, t, rfl, h⟩

theorem allCalls_ofExcept_bind {x : Except ε α} {f : α → Prog I ε β}
    (h : ∀ a, x = .ok a → (f a).AllCalls P) : (ofExcept x >>= f).AllCalls P := by
  cases x with
  | ok a => exact h a rfl
  | error e => trivial

theorem allCalls_attempt {p : Prog I ε α} (hp : p.AllCalls P) :
    (p.attempt : Prog I δ (Except ε α)).AllCalls P := by
  induction p with
  | ret a => trivial
  | raise e => trivial
  | call c k ih => exact ⟨hp.1, fun x => ih x (hp.2 x)⟩

/-- A recorded interaction holds only calls the program can make. -/
theorem AllCalls.of_exec {p : Prog I ε α} (hp : p.AllCalls P) {t : List (Exchange I)}
    {r : Except ε α} (h : p.Exec t r) : ∀ x ∈ t, P x.1 := by
  induction p generalizing t with
  | ret a => simp [h.1]
  | raise e => simp [h.1]
  | call c k ih =>
    obtain ⟨x, s, rfl, hs⟩ := h
    intro y hy
    rcases List.mem_cons.mp hy with rfl | hy
    · exact hp.1
    · exact ih x (hp.2 x) hs y hy

/-- A return at the end of a sequence comes from a return of its first part. -/
theorem exec_bind_ok {p : Prog I ε α} {f : α → Prog I ε β} {t : List (Exchange I)} {b : β} :
    (p >>= f).Exec t (.ok b) ↔
      ∃ t₁ t₂ a, t = t₁ ++ t₂ ∧ p.Exec t₁ (.ok a) ∧ (f a).Exec t₂ (.ok b) := by
  rw [exec_bind]
  simp

/-- The two cases of a sequence by the outcome of its first part. -/
theorem exec_bind_outcome {p : Prog I ε α} {f : α → Prog I ε β} {t : List (Exchange I)}
    {r : Except ε β} (h : (p >>= f).Exec t r) :
    ∃ t₁ t₂ x, t = t₁ ++ t₂ ∧ p.Exec t₁ x ∧
      match x with
      | .ok a => (f a).Exec t₂ r
      | .error e => t₂ = [] ∧ r = .error e := by
  cases exec_bind.mp h with
  | inl h =>
    obtain ⟨e, he, rfl⟩ := h
    exact ⟨t, [], .error e, (List.append_nil t).symm, he, rfl, rfl⟩
  | inr h =>
    obtain ⟨t₁, t₂, a, ht, ha, hf⟩ := h
    exact ⟨t₁, t₂, .ok a, ht, ha, hf⟩

/-- What is made of an outcome follows on any outcome. -/
theorem exec_attempt_bind {p : Prog I ε α} {f : Except ε α → Prog I δ β} {t : List (Exchange I)}
    {r : Except δ β} : (p.attempt >>= f).Exec t r ↔
      ∃ t₁ t₂ x, t = t₁ ++ t₂ ∧ p.Exec t₁ x ∧ (f x).Exec t₂ r := by
  rw [exec_bind]
  simp only [exec_attempt]
  constructor
  · rintro (⟨e, ⟨x, -, hx⟩, -⟩ | ⟨t₁, t₂, y, rfl, ⟨x, hx, hy⟩, hf⟩)
    · cases hx
    · obtain rfl := Except.ok.inj hy
      exact ⟨t₁, t₂, y, rfl, hx, hf⟩
  · rintro ⟨t₁, t₂, x, rfl, hx, hf⟩
    exact .inr ⟨t₁, t₂, x, rfl, ⟨x, hx, rfl⟩, hf⟩

/-- The replies determine the outcome. -/
theorem exec_unique {p : Prog I ε α} {t : List (Exchange I)} {r s : Except ε α} (hr : p.Exec t r)
    (hs : p.Exec t s) : r = s := by
  induction p generalizing t with
  | ret a => rw [hr.2, hs.2]
  | raise e => rw [hr.2, hs.2]
  | call c k ih =>
    obtain ⟨x, u, rfl, hr⟩ := hr
    obtain ⟨y, v, he, hs⟩ := hs
    obtain ⟨hxy, rfl⟩ := List.cons.inj he
    obtain rfl := eq_of_heq (Sigma.mk.inj hxy).2
    exact ih x hr hs

section Answer

variable (h : (c : I.Call) → I.Reply c)

/-- Run against a world that answers the same call always the same. -/
def answer : Prog I ε α → Except ε α
  | .ret a => .ok a
  | .raise e => .error e
  | .call c k => (k (h c)).answer

/-- An answer is the end of an interaction with such replies. -/
theorem exec_answer (p : Prog I ε α) : ∃ t, p.Exec t (p.answer h) ∧ ∀ x ∈ t, x.2 = h x.1 := by
  induction p with
  | ret a => exact ⟨[], ⟨rfl, rfl⟩, by simp⟩
  | raise e => exact ⟨[], ⟨rfl, rfl⟩, by simp⟩
  | call c k ih =>
    obtain ⟨t, ht, hx⟩ := ih (h c)
    exact ⟨⟨c, h c⟩ :: t, ⟨h c, t, rfl, ht⟩, by simpa using hx⟩

theorem answer_bind (p : Prog I ε α) (f : α → Prog I ε β) :
    (p >>= f).answer h = (p.answer h >>= fun a => (f a).answer h) := by
  change (p.bind f).answer h = _
  induction p with
  | ret a => rfl
  | raise e => rfl
  | call c k ih => exact ih (h c)

@[simp] theorem answer_ofExcept (x : Except ε α) : (ofExcept x : Prog I ε α).answer h = x := by
  cases x <;> rfl

end Answer

section Serve

variable {W : Type} (h : W → (c : I.Call) → I.Reply c × W)

/-- Run against a world that answers each call and changes with it. -/
def serve : Prog I ε α → W → Except ε α × List (Exchange I) × W
  | .ret a, w => (.ok a, [], w)
  | .raise e, w => (.error e, [], w)
  | .call c k, w =>
    let out := (k (h w c).1).serve (h w c).2
    (out.1, ⟨c, (h w c).1⟩ :: out.2.1, out.2.2)

/-- What a world makes of a program is one of its interactions. -/
theorem exec_serve (p : Prog I ε α) (w : W) : p.Exec (p.serve h w).2.1 (p.serve h w).1 := by
  induction p generalizing w with
  | ret a => exact ⟨rfl, rfl⟩
  | raise e => exact ⟨rfl, rfl⟩
  | call c k ih => exact ⟨(h w c).1, _, rfl, ih _ _⟩

/-- What holds of every answer of a world holds of an interaction with it. -/
theorem serve_forall {Q : Exchange I → Prop} (hQ : ∀ w c, Q ⟨c, (h w c).1⟩) (p : Prog I ε α) (w : W) :
    ∀ x ∈ (p.serve h w).2.1, Q x := by
  induction p generalizing w with
  | ret a => simp [serve]
  | raise e => simp [serve]
  | call c k ih =>
    intro x hx
    cases List.mem_cons.mp hx with
    | inl hx => exact hx ▸ hQ w c
    | inr hx => exact ih _ _ x hx

/-- The interaction is what the world makes of the calls in it, from one state to
another. -/
def Follows : W → List (Exchange I) → W → Prop
  | w, [], w' => w' = w
  | w, ⟨c, x⟩ :: t, w' => x = (h w c).1 ∧ Follows (h w c).2 t w'

theorem serve_follows (p : Prog I ε α) (w : W) :
    Follows h w (p.serve h w).2.1 (p.serve h w).2.2 := by
  induction p generalizing w with
  | ret a => rfl
  | raise e => rfl
  | call c k ih => exact ⟨rfl, ih _ _⟩

end Serve

end Prog

/-! ## Two environments -/

/-- The calls of two interfaces. -/
def Interface.sum (I J : Interface) : Interface := ⟨I.Call ⊕ J.Call, Sum.elim I.Reply J.Reply⟩

section Sum

variable {J : Interface}

/-- An exchange with the first of two environments. -/
def Exchange.inl (x : Exchange I) : Exchange (I.sum J) := ⟨.inl x.1, x.2⟩

/-- An exchange with the second one. -/
def Exchange.inr (y : Exchange J) : Exchange (I.sum J) := ⟨.inr y.1, y.2⟩

namespace Prog

/-- A program that calls only the first of two environments. -/
def inl : Prog I ε α → Prog (I.sum J) ε α
  | .ret a => .ret a
  | .raise e => .raise e
  | .call c k => .call (.inl c) fun x => (k x).inl

/-- Make one call of the second environment. -/
def askRight (c : J.Call) : Prog (I.sum J) ε (J.Reply c) := .call (.inr c) .ret

theorem exec_inl {p : Prog I ε α} {t : List (Exchange (I.sum J))} {r : Except ε α} :
    (p.inl : Prog (I.sum J) ε α).Exec t r ↔ ∃ s, t = s.map Exchange.inl ∧ p.Exec s r := by
  induction p generalizing t with
  | ret a => simp [inl, Exec]
  | raise e => simp [inl, Exec]
  | call c k ih =>
    constructor
    · rintro ⟨x, t, rfl, h⟩
      obtain ⟨s, rfl, hs⟩ := (ih x).mp h
      exact ⟨⟨c, x⟩ :: s, rfl, x, s, rfl, hs⟩
    · rintro ⟨_, rfl, x, s, rfl, hs⟩
      exact ⟨x, _, rfl, (ih x).mpr ⟨s, rfl, hs⟩⟩

end Prog

end Sum

end MiraDriver.Program
