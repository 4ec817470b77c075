import MiraDriver.Link

/-!
# Two programs in step

Two programs are in step if they make calls that correspond, stay in step after replies that
correspond, and end in results that correspond. Where two environments answer them in a
corresponding way, what they do is the same as far as the correspondence goes.
-/
namespace MiraDriver.Program

variable {I J I' J' : Interface} {ε δ α β α' β' W V : Type}

/-- What corresponds between two interfaces. -/
structure Coupling (I J : Interface) where
  call : I.Call → J.Call → Prop
  reply : Exchange I → Exchange J → Prop

/-- Calls that look the same through a function, and replies that are the same. -/
def Coupling.through {A : Type} (view : I.Call → A) : Coupling I I where
  call c d := view c = view d
  reply x y := HEq x.2 y.2

/-- The first part of a coupling of two environments each. -/
def Coupling.left (K : Coupling (I.sum I') (J.sum J')) : Coupling I J where
  call c d := K.call (.inl c) (.inl d)
  reply x y := K.reply x.inl y.inl

/-- Outcomes that correspond: values that do, or one exception. -/
inductive Outcomes (R : α → β → Prop) : Except ε α → Except ε β → Prop
  | ok {a : α} {b : β} : R a b → Outcomes R (.ok a) (.ok b)
  | error (e : ε) : Outcomes R (.error e) (.error e)

theorem outcomes_eq {x y : Except ε α} : Outcomes Eq x y ↔ x = y := by
  constructor
  · rintro (⟨⟨⟩⟩ | e) <;> rfl
  · rintro rfl
    cases x with
    | ok a => exact .ok rfl
    | error e => exact .error e

/-- The replies correspond wherever the calls do. -/
def Answered (K : Coupling I J) (t : List (Exchange I)) (u : List (Exchange J)) : Prop :=
  ∀ z ∈ t.zip u, K.call z.1.1 z.2.1 → K.reply z.1 z.2

theorem answered_cons {K : Coupling I J} {x : Exchange I} {y : Exchange J} {t : List (Exchange I)}
    {u : List (Exchange J)} :
    Answered K (x :: t) (y :: u) ↔ (K.call x.1 y.1 → K.reply x y) ∧ Answered K t u := by
  rw [Answered, List.zip_cons_cons, List.forall_mem_cons]
  rfl

theorem map_eq_of_forall₂ {A : Type} {view : I.Call → A} {t u : List (Exchange I)}
    (h : List.Forall₂ (fun x y => (Coupling.through view).call x.1 y.1) t u) :
    t.map (fun x => view x.1) = u.map fun y => view y.1 := by
  induction h with
  | nil => rfl
  | cons hcall _ ih => exact congrArg₂ List.cons hcall ih

namespace Prog

/-- The programs are in step. -/
inductive Lockstep (K : Coupling I J) (R : α → β → Prop) : Prog I ε α → Prog J ε β → Prop
  | ret {a : α} {b : β} : R a b → Lockstep K R (.ret a) (.ret b)
  | raise (e : ε) : Lockstep K R (.raise e) (.raise e)
  | call {c : I.Call} {d : J.Call} {k : I.Reply c → Prog I ε α} {l : J.Reply d → Prog J ε β} :
    K.call c d → (∀ x y, K.reply ⟨c, x⟩ ⟨d, y⟩ → Lockstep K R (k x) (l y)) →
    Lockstep K R (.call c k) (.call d l)

variable {K : Coupling I J} {R : α → β → Prop}

theorem lockstep_ofExcept {x : Except ε α} {y : Except ε β} (h : Outcomes R x y) :
    Lockstep K R (ofExcept x) (ofExcept y) := by
  cases h with
  | ok h => exact .ret h
  | error e => exact .raise e

theorem lockstep_ask {c : I.Call} {d : J.Call} {R : I.Reply c → J.Reply d → Prop} (h : K.call c d)
    (hreply : ∀ x y, K.reply ⟨c, x⟩ ⟨d, y⟩ → R x y) : Lockstep K R (ask c : Prog I ε _) (ask d) :=
  .call h fun x y hxy => .ret (hreply x y hxy)

theorem Lockstep.mono {T : α → β → Prop} {p : Prog I ε α} {q : Prog J ε β} (h : Lockstep K R p q)
    (hT : ∀ a b, R a b → T a b) : Lockstep K T p q := by
  induction h with
  | ret h => exact .ret (hT _ _ h)
  | raise e => exact .raise e
  | call hcall _ ih => exact .call hcall ih

theorem lockstep_bind {T : α' → β' → Prop} {p : Prog I ε α} {q : Prog J ε β} {f : α → Prog I ε α'}
    {g : β → Prog J ε β'} (h : Lockstep K R p q) (hfg : ∀ a b, R a b → Lockstep K T (f a) (g b)) :
    Lockstep K T (p >>= f) (q >>= g) := by
  induction h with
  | ret h => exact hfg _ _ h
  | raise e => exact .raise e
  | call hcall _ ih => exact .call hcall ih

theorem lockstep_attempt {p : Prog I ε α} {q : Prog J ε β} (h : Lockstep K R p q) :
    Lockstep K (Outcomes R) (p.attempt : Prog I δ _) (q.attempt) := by
  induction h with
  | ret h => exact .ret (.ok h)
  | raise e => exact .ret (.error e)
  | call hcall _ ih => exact .call hcall ih

/-- A program is in step with itself. -/
theorem lockstep_refl {A : Type} (view : I.Call → A) (p : Prog I ε α) :
    Lockstep (.through view) Eq p p := by
  induction p with
  | ret a => exact .ret rfl
  | raise e => exact .raise e
  | call c k ih =>
    refine .call rfl ?_
    intro x y hxy
    obtain rfl := eq_of_heq hxy
    exact ih x

theorem lockstep_inl {K : Coupling (I.sum I') (J.sum J')} {p : Prog I ε α} {q : Prog J ε β}
    (h : Lockstep K.left R p q) : Lockstep K R p.inl q.inl := by
  induction h with
  | ret h => exact .ret h
  | raise e => exact .raise e
  | call hcall _ ih => exact .call hcall ih

/-- Programs in step are in step below, where the handlers are: by induction on the programs. -/
theorem lockstep_link {L : Coupling I' J'} {B : W → V → Prop}
    {h : W → (c : I.Call) → Prog I' Empty (I.Reply c × W)} {g : V → (d : J.Call) → Prog J' Empty (J.Reply d × V)}
    (hstep : ∀ w v c d, B w v → K.call c d →
      Lockstep L (fun x y => K.reply ⟨c, x.1⟩ ⟨d, y.1⟩ ∧ B x.2 y.2) (h w c) (g v d))
    {p : Prog I ε α} {q : Prog J ε β} (hpq : Lockstep K R p q) {w : W} {v : V} (hB : B w v) :
    Lockstep L (fun x y => Outcomes R x.1 y.1 ∧ B x.2 y.2) (p.link h w) (q.link g v) := by
  induction hpq generalizing w v with
  | ret h => exact .ret ⟨.ok h, hB⟩
  | raise e => exact .ret ⟨.error e, hB⟩
  | call hcall _ ih =>
    rw [link, link]
    refine lockstep_bind (lockstep_attempt (hstep w v _ _ hB hcall)) ?_
    rintro _ _ (⟨hreply, hB'⟩ | e)
    · exact ih _ _ hreply hB'
    · cases e

/-- Programs that are passed on, call by call. -/
theorem lockstep_link_relay {L : Coupling I' J'} {f : I.Call → I'.Call} {f' : J.Call → J'.Call}
    {g : ∀ c, I'.Reply (f c) → I.Reply c} {g' : ∀ d, J'.Reply (f' d) → J.Reply d}
    (hcall : ∀ c d, K.call c d → L.call (f c) (f' d))
    (hreply : ∀ c d x y, K.call c d → L.reply ⟨f c, x⟩ ⟨f' d, y⟩ → K.reply ⟨c, g c x⟩ ⟨d, g' d y⟩)
    {p : Prog I ε α} {q : Prog J ε β} (hpq : Lockstep K R p q) (w : W) :
    Lockstep L (fun x y => Outcomes R x.1 y.1 ∧ x.2 = w ∧ y.2 = w) (p.link (relay f g) w)
      (q.link (relay f' g') w) := by
  refine lockstep_link (B := fun a b => a = w ∧ b = w) ?_ hpq ⟨rfl, rfl⟩
  rintro _ _ c d ⟨rfl, rfl⟩ hcd
  exact .call (hcall c d hcd) fun x y hxy => .ret ⟨hreply c d x y hcd hxy, rfl, rfl⟩

/-- Two interactions whose replies correspond are the same as far as the calls correspond, and end
the same: by induction on the programs. -/
theorem Lockstep.exec {p : Prog I ε α} {q : Prog J ε β} (h : Lockstep K R p q) {t : List (Exchange I)}
    {u : List (Exchange J)} {r : Except ε α} {s : Except ε β} (hr : p.Exec t r) (hs : q.Exec u s)
    (hanswered : Answered K t u) :
    List.Forall₂ (fun x y => K.call x.1 y.1) t u ∧ Outcomes R r s := by
  induction h generalizing t u with
  | ret h =>
    obtain ⟨rfl, rfl⟩ := hr
    obtain ⟨rfl, rfl⟩ := hs
    exact ⟨.nil, .ok h⟩
  | raise e =>
    obtain ⟨rfl, rfl⟩ := hr
    obtain ⟨rfl, rfl⟩ := hs
    exact ⟨.nil, .error e⟩
  | call hcall _ ih =>
    obtain ⟨x, t, rfl, hr⟩ := hr
    obtain ⟨y, u, rfl, hs⟩ := hs
    obtain ⟨hreply, hrest⟩ := answered_cons.mp hanswered
    obtain ⟨hcalls, hout⟩ := ih x y (hreply hcall) hr hs hrest
    exact ⟨.cons hcall hcalls, hout⟩

end Prog

end MiraDriver.Program
