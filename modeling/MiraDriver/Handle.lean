import MiraDriver.Program

/-!
# A handle that is opened when it is needed

Programs whose calls go through a handle, say a connection. It is opened for the first call,
kept for the calls to come, and opened anew after it has been closed.
-/
namespace MiraDriver.Handle

open MiraDriver.Program

/-- What is done with handles of the type `H`, which are opened as a `S` says. -/
inductive HandleCall (S H C : Type) where
  | acquire (spec : S)
  | send (handle : H) (c : C)
  | release (handle : H)

/-- To open or to close a handle may fail. -/
abbrev HandleReply (S H ω : Type) (I : Interface) : HandleCall S H I.Call → Type
  | .acquire _ => Except ω H
  | .send _ c => I.Reply c
  | .release _ => Except ω Unit

abbrev Handles (S H ω : Type) (I : Interface) : Interface := ⟨HandleCall S H I.Call, HandleReply S H ω I⟩

variable {S H ω ε δ α O : Type} {I : Interface}

def ask (c : HandleCall S H I.Call) : Prog (Handles S H ω I) δ (HandleReply S H ω I c) :=
  Prog.ask (I := Handles S H ω I) c

/-- The handle there is, or a new one. -/
def lease (spec : S) : Option H → Prog (Handles S H ω I) ω H
  | some h => pure h
  | none => do
    let reply ← ask (.acquire spec)
    Prog.ofExcept reply

/-- A program through the handle that `client` gives. What it raises may come out of the opening
of one. -/
def through (client : Option H → Prog (Handles S H ω I) ω H) : Prog I ε α → Option H →
    Prog (Handles S H ω I) δ (Except (ω ⊕ ε) α × Option H)
  | .ret a, s => pure (.ok a, s)
  | .raise e, s => pure (.error (.inr e), s)
  | .call c k, s => do
    let leased ← (client s).attempt
    match leased with
    | .error e => pure (.error (.inl e), s)
    | .ok h => do
      let x ← ask (.send h c)
      through client (k x) (some h)

/-- Close the handle there is. -/
def close : Option H → Prog (Handles S H ω I) δ (Except ω Unit × Option H)
  | none => pure (.ok (), none)
  | some h => do
    let reply ← ask (.release h)
    match reply with
    | .ok () => pure (.ok (), none)
    | .error e => pure (.error e, some h)

/-- How a step of a session ends. -/
inductive Outcome (ω ε α : Type) where
  | used (x : Except (ω ⊕ ε) α)
  | closed (x : Except ω Unit)
  deriving DecidableEq

/-- Operations with closings between them, where there is none. -/
def session (client : Option H → Prog (Handles S H ω I) ω H) (run : O → Prog I ε α) :
    List (Option O) → Option H → Prog (Handles S H ω I) δ (List (Outcome ω ε α) × Option H)
  | [], s => pure ([], s)
  | some o :: steps, s => do
    let (x, s) ← through client (run o) s
    let (outcomes, s) ← session client run steps s
    pure (.used x :: outcomes, s)
  | none :: steps, s => do
    let (x, s) ← close s
    let (outcomes, s) ← session client run steps s
    pure (.closed x :: outcomes, s)

/-! ## The discipline -/

/-- Handles are opened one at a time and as they should be, and nothing goes through a handle
but the one that is open. -/
def Tracks (spec : S) : Option H → List (Exchange (Handles S H ω I)) → Option H → Prop
  | s, [], s' => s' = s
  | none, ⟨.acquire spec', reply⟩ :: t, s' => spec' = spec ∧
    match reply with
    | .ok h => Tracks spec (some h) t s'
    | .error _ => Tracks spec none t s'
  | some h, ⟨.send h' _, _⟩ :: t, s' => h' = h ∧ Tracks spec (some h) t s'
  | some h, ⟨.release h', reply⟩ :: t, s' => h' = h ∧
    match reply with
    | .ok () => Tracks spec none t s'
    | .error _ => Tracks spec (some h) t s'
  | _, _ :: _, _ => False

/-- What has gone through the handles. -/
def sends (t : List (Exchange (Handles S H ω I))) : List (Exchange I) :=
  t.filterMap fun
    | ⟨.send _ c, x⟩ => some ⟨c, x⟩
    | _ => none

/-- Without handles: each operation has done what it does, or it has done nothing because no
handle could be opened. -/
inductive Plain (run : O → Prog I ε α) :
    List (Option O) → List (Outcome ω ε α) → List (Exchange I) → Prop
  | nil : Plain run [] [] []
  | used {o : O} {steps : List (Option O)} {outcomes : List (Outcome ω ε α)} {u v : List (Exchange I)}
    {x : Except ε α} : (run o).Exec u x → Plain run steps outcomes v →
      Plain run (some o :: steps) (.used (x.mapError .inr) :: outcomes) (u ++ v)
  | unopened {o : O} {steps : List (Option O)} {outcomes : List (Outcome ω ε α)} {e : ω}
    {v : List (Exchange I)} : Plain run steps outcomes v →
      Plain run (some o :: steps) (.used (.error (.inl e)) :: outcomes) v
  | closed {steps : List (Option O)} {outcomes : List (Outcome ω ε α)} {x : Except ω Unit}
    {v : List (Exchange I)} : Plain run steps outcomes v →
      Plain run (none :: steps) (.closed x :: outcomes) v

section Tracks

variable {spec : S} {s s' s'' : Option H} {t u : List (Exchange (Handles S H ω I))}

theorem Tracks.append (h : Tracks spec s t s') (h' : Tracks spec s' u s'') : Tracks spec s (t ++ u) s'' := by
  induction t generalizing s with
  | nil => exact h ▸ h'
  | cons x t ih =>
    obtain ⟨c, x⟩ := x
    cases s with
    | none =>
      cases c with
      | acquire spec' =>
        cases x with
        | ok handle => exact ⟨h.1, ih h.2⟩
        | error e => exact ⟨h.1, ih h.2⟩
      | send handle c => exact h.elim
      | release handle => exact h.elim
    | some handle =>
      cases c with
      | acquire spec' => exact h.elim
      | send handle' c => exact ⟨h.1, ih h.2⟩
      | release handle' =>
        cases x with
        | ok u => exact ⟨h.1, ih h.2⟩
        | error e => exact ⟨h.1, ih h.2⟩

/-- The exchanges of an interaction, sent through a handle. -/
def via (handle : H) (v : List (Exchange I)) : List (Exchange (Handles S H ω I)) :=
  v.map fun y => ⟨.send handle y.1, y.2⟩

theorem tracks_via (handle : H) (v : List (Exchange I)) :
    Tracks spec (some handle) (via handle v : List (Exchange (Handles S H ω I))) (some handle) := by
  induction v with
  | nil => rfl
  | cons y v ih => exact ⟨rfl, ih⟩

theorem sends_via (handle : H) (v : List (Exchange I)) :
    sends (via handle v : List (Exchange (Handles S H ω I))) = v := by
  unfold sends via
  rw [List.filterMap_map]
  exact List.filterMap_some

theorem sends_append : sends (t ++ u) = sends t ++ sends u := List.filterMap_append

end Tracks

section Exec

variable {spec : S} {s s' : Option H} {t : List (Exchange (Handles S H ω I))}

theorem exec_ask_bind {c : HandleCall S H I.Call} {f : HandleReply S H ω I c → Prog (Handles S H ω I) δ α}
    {x : Except δ α} : (ask c >>= f).Exec t x ↔
      ∃ (y : HandleReply S H ω I c) (u : _), t = ⟨c, y⟩ :: u ∧ (f y).Exec u x := Iff.rfl

/-- Through an open handle a program does what it does without one. -/
theorem exec_through_some {p : Prog I ε α} {handle : H} {x : Except (ω ⊕ ε) α}
    (h : (through (lease spec) p (some handle) : Prog (Handles S H ω I) δ _).Exec t (.ok (x, s'))) :
    s' = some handle ∧ ∃ v y, t = via handle v ∧ p.Exec v y ∧ x = y.mapError .inr := by
  induction p generalizing t with
  | ret a =>
    obtain ⟨rfl, hout⟩ := h
    obtain ⟨rfl, rfl⟩ := Prod.mk.inj (Except.ok.inj hout)
    exact ⟨rfl, [], .ok a, rfl, ⟨rfl, rfl⟩, rfl⟩
  | raise e =>
    obtain ⟨rfl, hout⟩ := h
    obtain ⟨rfl, rfl⟩ := Prod.mk.inj (Except.ok.inj hout)
    exact ⟨rfl, [], .error e, rfl, ⟨rfl, rfl⟩, rfl⟩
  | call c k ih =>
    rw [through] at h
    obtain ⟨y, t, rfl, hrest⟩ := exec_ask_bind.mp h
    obtain ⟨hs, v, z, rfl, hexec, hx⟩ := ih y hrest
    exact ⟨hs, ⟨c, y⟩ :: v, z, rfl, ⟨y, v, rfl, hexec⟩, hx⟩

/-- What a program does where there is no handle: nothing, or it opens one first. -/
theorem exec_through_none {p : Prog I ε α} {x : Except (ω ⊕ ε) α}
    (h : (through (lease spec) p (none : Option H) : Prog (Handles S H ω I) δ _).Exec t (.ok (x, s'))) :
    (s' = none ∧ t = [] ∧ ∃ y, p.Exec [] y ∧ x = y.mapError .inr) ∨
      (∃ e, s' = none ∧ t = [⟨.acquire spec, .error e⟩] ∧ x = .error (.inl e)) ∨
      ∃ handle v y, s' = some handle ∧ t = ⟨.acquire spec, .ok handle⟩ :: via handle v ∧ p.Exec v y ∧
        x = y.mapError .inr := by
  cases p with
  | ret a =>
    obtain ⟨rfl, hout⟩ := h
    obtain ⟨rfl, rfl⟩ := Prod.mk.inj (Except.ok.inj hout)
    exact .inl ⟨rfl, rfl, .ok a, ⟨rfl, rfl⟩, rfl⟩
  | raise e =>
    obtain ⟨rfl, hout⟩ := h
    obtain ⟨rfl, rfl⟩ := Prod.mk.inj (Except.ok.inj hout)
    exact .inl ⟨rfl, rfl, .error e, ⟨rfl, rfl⟩, rfl⟩
  | call c k =>
    rw [through] at h
    obtain ⟨reply, t, rfl, hleased⟩ := exec_ask_bind.mp h
    cases reply with
    | error e =>
      obtain ⟨rfl, hout⟩ := hleased
      obtain ⟨rfl, rfl⟩ := Prod.mk.inj (Except.ok.inj hout)
      exact .inr (.inl ⟨e, rfl, rfl, rfl⟩)
    | ok handle =>
      -- from here on the handle is open
      have hopen : (through (lease spec) (.call c k) (some handle) : Prog (Handles S H ω I) δ _).Exec t
          (.ok (x, s')) := by
        rw [through]
        exact hleased
      obtain ⟨rfl, v, y, rfl, hexec, rfl⟩ := exec_through_some hopen
      exact .inr (.inr ⟨handle, v, y, rfl, rfl, hexec, rfl⟩)

theorem tracks_of_close {x : Except ω Unit}
    (h : (close s : Prog (Handles S H ω I) δ _).Exec t (.ok (x, s'))) :
    Tracks spec s t s' ∧ sends t = [] := by
  cases s with
  | none =>
    obtain ⟨rfl, hout⟩ := h
    obtain ⟨rfl, rfl⟩ := Prod.mk.inj (Except.ok.inj hout)
    exact ⟨rfl, rfl⟩
  | some handle =>
    obtain ⟨reply, t, rfl, hrest⟩ := exec_ask_bind.mp h
    cases reply with
    | ok u =>
      obtain ⟨rfl, hout⟩ := hrest
      obtain ⟨rfl, rfl⟩ := Prod.mk.inj (Except.ok.inj hout)
      exact ⟨⟨rfl, rfl⟩, rfl⟩
    | error e =>
      obtain ⟨rfl, hout⟩ := hrest
      obtain ⟨rfl, rfl⟩ := Prod.mk.inj (Except.ok.inj hout)
      exact ⟨⟨rfl, rfl⟩, rfl⟩

theorem exec_close (h : (close s : Prog (Handles S H ω I) δ _).Exec t (.ok (.ok (), s'))) : s' = none := by
  cases s with
  | none =>
    obtain ⟨-, hout⟩ := h
    exact (Prod.mk.inj (Except.ok.inj hout)).2
  | some handle =>
    obtain ⟨reply, t, rfl, hrest⟩ := exec_ask_bind.mp h
    cases reply with
    | ok u => exact (Prod.mk.inj (Except.ok.inj hrest.2)).2
    | error e => cases (Prod.mk.inj (Except.ok.inj hrest.2)).1

/-- A session keeps the discipline, and apart from it does what its operations do: by induction
on the steps. -/
theorem exec_session {run : O → Prog I ε α} {steps : List (Option O)}
    {outcomes : List (Outcome ω ε α)}
    (h : (session (lease spec) run steps s : Prog (Handles S H ω I) δ _).Exec t (.ok (outcomes, s'))) :
    Tracks spec s t s' ∧ Plain run steps outcomes (sends t) := by
  induction steps generalizing s t outcomes with
  | nil =>
    obtain ⟨rfl, hout⟩ := h
    obtain ⟨rfl, rfl⟩ := Prod.mk.inj (Except.ok.inj hout)
    exact ⟨rfl, .nil⟩
  | cons step steps ih =>
    cases step with
    | none =>
      obtain ⟨t₁, t₂, ⟨x, q⟩, rfl, hclose, hrest⟩ := Prog.exec_bind_ok.mp h
      obtain ⟨t₂, t₃, ⟨rest, q'⟩, rfl, hsession, hend⟩ := Prog.exec_bind_ok.mp hrest
      obtain ⟨rfl, hout⟩ := hend
      obtain ⟨rfl, rfl⟩ := Prod.mk.inj (Except.ok.inj hout)
      obtain ⟨htracks, hsends⟩ := tracks_of_close hclose
      obtain ⟨hlater, hplain⟩ := ih hsession
      rw [List.append_nil, sends_append, hsends]
      exact ⟨htracks.append hlater, .closed hplain⟩
    | some o =>
      obtain ⟨t₁, t₂, ⟨x, q⟩, rfl, hused, hrest⟩ := Prog.exec_bind_ok.mp h
      obtain ⟨t₂, t₃, ⟨rest, q'⟩, rfl, hsession, hend⟩ := Prog.exec_bind_ok.mp hrest
      obtain ⟨rfl, hout⟩ := hend
      obtain ⟨rfl, rfl⟩ := Prod.mk.inj (Except.ok.inj hout)
      obtain ⟨hlater, hplain⟩ := ih hsession
      rw [List.append_nil, sends_append]
      cases s with
      | some handle =>
        obtain ⟨rfl, v, y, rfl, hexec, rfl⟩ := exec_through_some hused
        rw [sends_via]
        exact ⟨(tracks_via handle v).append hlater, .used hexec hplain⟩
      | none =>
        rcases exec_through_none hused with ⟨rfl, rfl, y, hexec, rfl⟩ | ⟨e, rfl, rfl, rfl⟩ |
          ⟨handle, v, y, rfl, rfl, hexec, rfl⟩
        · exact ⟨hlater, .used hexec hplain⟩
        · exact ⟨⟨rfl, hlater⟩, .unopened hplain⟩
        · have hsends : sends ((⟨.acquire spec, .ok handle⟩ :: via handle v :
              List (Exchange (Handles S H ω I)))) = v := sends_via handle v
          rw [hsends]
          exact ⟨⟨rfl, (tracks_via handle v).append hlater⟩, .used hexec hplain⟩

/-- A session in two parts. -/
theorem exec_session_append {client : Option H → Prog (Handles S H ω I) ω H} {run : O → Prog I ε α}
    {steps later : List (Option O)} {outcomes : List (Outcome ω ε α)}
    (h : (session client run (steps ++ later) s : Prog (Handles S H ω I) δ _).Exec t
      (.ok (outcomes, s'))) :
    ∃ t₁ t₂ first second q, t = t₁ ++ t₂ ∧ outcomes = first ++ second ∧
      (session client run steps s : Prog (Handles S H ω I) δ _).Exec t₁ (.ok (first, q)) ∧
      (session client run later q : Prog (Handles S H ω I) δ _).Exec t₂ (.ok (second, s')) := by
  induction steps generalizing s t outcomes with
  | nil => exact ⟨[], t, [], outcomes, s, rfl, rfl, ⟨rfl, rfl⟩, h⟩
  | cons step steps ih =>
    cases step with
    | none =>
      obtain ⟨t₁, t₂, ⟨x, q⟩, rfl, hclose, hrest⟩ := Prog.exec_bind_ok.mp h
      obtain ⟨t₂, t₃, ⟨rest, q'⟩, rfl, hsession, rfl, hout⟩ := Prog.exec_bind_ok.mp hrest
      obtain ⟨rfl, rfl⟩ := Prod.mk.inj (Except.ok.inj hout)
      obtain ⟨u, v, first, second, q', rfl, rfl, hfirst, hsecond⟩ := ih hsession
      refine ⟨t₁ ++ u, v, .closed x :: first, second, q', by simp, rfl, ?_, hsecond⟩
      apply Prog.exec_bind_ok.mpr
      refine ⟨t₁, u, (x, q), rfl, hclose, Prog.exec_bind_ok.mpr ?_⟩
      exact ⟨u, [], (first, q'), (List.append_nil u).symm, hfirst, rfl, rfl⟩
    | some o =>
      obtain ⟨t₁, t₂, ⟨x, q⟩, rfl, hused, hrest⟩ := Prog.exec_bind_ok.mp h
      obtain ⟨t₂, t₃, ⟨rest, q'⟩, rfl, hsession, rfl, hout⟩ := Prog.exec_bind_ok.mp hrest
      obtain ⟨rfl, rfl⟩ := Prod.mk.inj (Except.ok.inj hout)
      obtain ⟨u, v, first, second, q', rfl, rfl, hfirst, hsecond⟩ := ih hsession
      refine ⟨t₁ ++ u, v, .used x :: first, second, q', by simp, rfl, ?_, hsecond⟩
      apply Prog.exec_bind_ok.mpr
      refine ⟨t₁, u, (x, q), rfl, hused, Prog.exec_bind_ok.mpr ?_⟩
      exact ⟨u, [], (first, q'), (List.append_nil u).symm, hfirst, rfl, rfl⟩

/-- A session that ends with a closing that succeeds leaves no handle open. -/
theorem closed_of_exec_session {client : Option H → Prog (Handles S H ω I) ω H} {run : O → Prog I ε α}
    {steps : List (Option O)} {outcomes : List (Outcome ω ε α)}
    (h : (session client run (steps ++ [none]) s : Prog (Handles S H ω I) δ _).Exec t
      (.ok (outcomes, s'))) (hlast : outcomes.getLast? = some (.closed (.ok ()))) : s' = none := by
  obtain ⟨-, t₂, first, second, q, -, rfl, -, hend⟩ := exec_session_append h
  obtain ⟨t₁, t₂, ⟨x, q'⟩, rfl, hclose, hrest⟩ := Prog.exec_bind_ok.mp hend
  obtain ⟨-, hout⟩ := hrest
  obtain ⟨rfl, rfl⟩ := Prod.mk.inj (Except.ok.inj hout)
  obtain rfl : x = .ok () := by simpa using hlast
  exact exec_close hclose

end Exec

/-! ## What is left open -/

/-- The handles that were opened. -/
def opened (t : List (Exchange (Handles S H ω I))) : List H :=
  t.filterMap fun
    | ⟨.acquire _, .ok h⟩ => some h
    | _ => none

/-- The handles that were closed. -/
def released (t : List (Exchange (Handles S H ω I))) : List H :=
  t.filterMap fun
    | ⟨.release h, .ok ()⟩ => some h
    | _ => none

/-- All handles that were opened have been closed again, in the same order, but for the one that
is still open. -/
theorem Tracks.opened_eq {spec : S} {s s' : Option H} {t : List (Exchange (Handles S H ω I))}
    (h : Tracks spec s t s') : s.toList ++ opened t = released t ++ s'.toList := by
  induction t generalizing s with
  | nil =>
    obtain rfl : s' = s := h
    simp [opened, released]
  | cons x t ih =>
    obtain ⟨c, x⟩ := x
    cases s with
    | none =>
      cases c with
      | acquire spec' =>
        cases x with
        | ok handle => exact ih h.2
        | error e => exact ih h.2
      | send handle c => exact h.elim
      | release handle => exact h.elim
    | some handle =>
      cases c with
      | acquire spec' => exact h.elim
      | send handle' c => exact ih h.2
      | release handle' =>
        obtain ⟨rfl, hrest⟩ := h
        cases x with
        | ok u => exact congrArg (handle' :: ·) (ih hrest)
        | error e => exact ih hrest

end MiraDriver.Handle
