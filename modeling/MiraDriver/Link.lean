import MiraDriver.Program

/-!
# A program over another environment

Each call of a program is carried out by a program of a lower environment, which may keep a
state from one call to the next. What then happens in the lower environment is, call by call,
what the handlers do, and the replies are those of an interaction of the program itself.
-/
namespace MiraDriver.Program

variable {I J : Interface} {ε α W : Type}

namespace Prog

/-- Carry out the calls, one after another, from a state. -/
def link (h : W → (c : I.Call) → Prog J Empty (I.Reply c × W)) :
    Prog I ε α → W → Prog J Empty (Except ε α × W)
  | .ret a, w => .ret (.ok a, w)
  | .raise e, w => .ret (.error e, w)
  | .call c k, w => do
    let out ← (h w c).attempt
    match out with
    | .ok (x, w') => (k x).link h w'
    | .error e => nomatch e

/-- The exchanges of an upper interaction, each with what its handler has made of it below. -/
inductive Linked (h : W → (c : I.Call) → Prog J Empty (I.Reply c × W)) :
    W → List (Exchange I) → List (Exchange J) → W → Prop
  | nil (w : W) : Linked h w [] [] w
  | cons {w w' w'' : W} {c : I.Call} {x : I.Reply c} {u : List (Exchange I)} {s t : List (Exchange J)} :
    (h w c).Exec s (.ok (x, w')) → Linked h w' u t w'' → Linked h w (⟨c, x⟩ :: u) (s ++ t) w''

section Linked

variable {h : W → (c : I.Call) → Prog J Empty (I.Reply c × W)} {w w' : W} {u : List (Exchange I)}
  {t : List (Exchange J)}

theorem exec_link_call {c : I.Call} {k : I.Reply c → Prog I ε α} {r : Except Empty (Except ε α × W)} :
    ((Prog.call c k).link h w).Exec t r ↔
      ∃ s t' x w', t = s ++ t' ∧ (h w c).Exec s (.ok (x, w')) ∧ ((k x).link h w').Exec t' r := by
  rw [link, exec_attempt_bind]
  constructor
  · rintro ⟨s, t', y, rfl, hs, hrest⟩
    cases y with
    | ok out => exact ⟨s, t', out.1, out.2, rfl, hs, hrest⟩
    | error e => exact nomatch e
  · rintro ⟨s, t', x, w', rfl, hs, hrest⟩
    exact ⟨s, t', .ok (x, w'), rfl, hs, hrest⟩

/-- What the linked program does is what the program does with the handlers' replies: by
induction on the program. -/
theorem exec_link {p : Prog I ε α} {r : Except ε α} :
    (p.link h w).Exec t (.ok (r, w')) ↔ ∃ u, Linked h w u t w' ∧ p.Exec u r := by
  induction p generalizing w t with
  | ret a =>
    constructor
    · rintro ⟨rfl, hr⟩
      obtain ⟨rfl, rfl⟩ := Prod.mk.inj (Except.ok.inj hr)
      exact ⟨[], .nil _, rfl, rfl⟩
    · rintro ⟨u, hlinked, rfl, rfl⟩
      cases hlinked with
      | nil => exact ⟨rfl, rfl⟩
  | raise e =>
    constructor
    · rintro ⟨rfl, hr⟩
      obtain ⟨rfl, rfl⟩ := Prod.mk.inj (Except.ok.inj hr)
      exact ⟨[], .nil _, rfl, rfl⟩
    · rintro ⟨u, hlinked, rfl, rfl⟩
      cases hlinked with
      | nil => exact ⟨rfl, rfl⟩
  | call c k ih =>
    rw [exec_link_call]
    constructor
    · rintro ⟨s, t', x, w₁, rfl, hs, hrest⟩
      obtain ⟨u, hlinked, hexec⟩ := (ih x).mp hrest
      exact ⟨⟨c, x⟩ :: u, .cons hs hlinked, x, u, rfl, hexec⟩
    · rintro ⟨_, hlinked, x, u, rfl, hexec⟩
      cases hlinked with
      | cons hs hlinked => exact ⟨_, _, x, _, rfl, hs, (ih x).mpr ⟨u, hlinked, hexec⟩⟩

/-- What every handler keeps is kept, and what it guarantees of each exchange and of what it does
for it holds throughout. -/
theorem Linked.invariant {K : W → Prop} {R : Exchange I → List (Exchange J) → Prop}
    (hstep : ∀ w c s x w', K w → (h w c).Exec s (.ok (x, w')) → K w' ∧ R ⟨c, x⟩ s)
    (hlinked : Linked h w u t w') (hw : K w) :
    K w' ∧ ∃ parts, t = parts.flatten ∧ List.Forall₂ R u parts := by
  induction hlinked with
  | nil w => exact ⟨hw, [], rfl, .nil⟩
  | cons hs hrest ih =>
    obtain ⟨hw', hx⟩ := hstep _ _ _ _ _ hw hs
    obtain ⟨hend, parts, rfl, hparts⟩ := ih hw'
    exact ⟨hend, _ :: parts, rfl, .cons hx hparts⟩

end Linked

section Relay

variable (f : I.Call → J.Call) (g : ∀ c, J.Reply (f c) → I.Reply c)

/-- A handler that passes each call on as one call below. -/
def relay (w : W) (c : I.Call) : Prog J Empty (I.Reply c × W) := do
  let x ← ask (f c)
  pure (g c x, w)

theorem linked_relay {w w' : W} {u : List (Exchange I)} {t : List (Exchange J)}
    (hlinked : Linked (relay f g) w u t w') : w' = w ∧ t.map Sigma.fst = u.map fun x => f x.1 := by
  induction hlinked with
  | nil w => exact ⟨rfl, rfl⟩
  | cons hs _ ih =>
    obtain ⟨y, t, rfl, rfl, hx⟩ := hs
    obtain ⟨rfl, rfl⟩ := Prod.mk.inj (Except.ok.inj hx)
    exact ⟨ih.1, congrArg (_ :: ·) ih.2⟩

/-- A program that is passed on makes the same calls below. -/
theorem exec_link_relay {p : Prog I ε α} {w w' : W} {t : List (Exchange J)} {r : Except ε α}
    (hexec : (p.link (relay f g) w).Exec t (.ok (r, w'))) :
    w' = w ∧ ∃ u, t.map Sigma.fst = (u.map fun x => f x.1) ∧ p.Exec u r := by
  obtain ⟨u, hlinked, hexec⟩ := exec_link.mp hexec
  obtain ⟨hw, ht⟩ := linked_relay f g hlinked
  exact ⟨hw, u, ht, hexec⟩

omit g in
theorem forall_calls_of_relayed {t : List (Exchange J)} {u : List (Exchange I)}
    (ht : t.map Sigma.fst = u.map fun x => f x.1) {P : J.Call → Prop} (h : ∀ x ∈ u, P (f x.1)) :
    ∀ y ∈ t, P y.1 := by
  intro y hy
  have hmem : y.1 ∈ t.map Sigma.fst := List.mem_map_of_mem hy
  rw [ht] at hmem
  obtain ⟨x, hx, hcall⟩ := List.mem_map.mp hmem
  exact hcall ▸ h x hx

end Relay

end Prog

end MiraDriver.Program
