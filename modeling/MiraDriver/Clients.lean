import MiraDriver.Handle
import MiraDriver.ReadSurface

/-!
# The client of a driver

A driver opens its `httpx.Client` with its first request and keeps it until it is closed. A
client factory takes the place of what it would open.
-/
namespace MiraDriver.Clients

open MiraDriver.Text MiraDriver.Base MiraDriver.Program MiraDriver.Document MiraDriver.Http
  MiraDriver.Docker MiraDriver.Handle MiraDriver.Drivers MiraDriver.ReadSurface

/-- How a client is made. -/
inductive Opening where
  | factory
  | httpx (client : Client)
  deriving DecidableEq, Repr

section Opening

variable {H ω : Type}

/-- `_client` of `DockerDriver`. -/
def dockerClient (factory : Bool) (endpoint : Str) (instance? : Option H) :
    Prog (Handles Opening H ω http) ω H :=
  match instance? with
  | some client => pure client
  | none =>
    if factory then ask (.acquire .factory) >>= Prog.ofExcept
    else if (lit "unix://").isPrefixOf endpoint then
      ask (.acquire (.httpx ⟨lit "http://docker/", [], some (removePrefix (lit "unix://") endpoint)⟩)) >>=
        Prog.ofExcept
    else ask (.acquire (.httpx ⟨rstrip '/' endpoint ++ ['/'], [], none⟩)) >>= Prog.ofExcept

/-- `_client` of `PortainerDriver`. -/
def portainerClient (factory : Bool) (endpoint apiKey : Str) (instance? : Option H) :
    Prog (Handles Opening H ω http) ω H := do
  let instance? ←
    if instance?.isNone && !factory then
      ask (.acquire (.httpx ⟨endpoint ++ ['/'], [(lit "X-API-Key", apiKey)], none⟩)) >>= fun reply =>
        Prog.ofExcept (reply.map some)
    else pure instance?
  dockerClient factory endpoint instance?

def driverClient (factory : Bool) : Driver → Option H → Prog (Handles Opening H ω http) ω H
  | .docker _ endpoint => dockerClient factory endpoint
  | .portainer _ endpoint apiKey => portainerClient factory endpoint apiKey

/-- What a driver opens. -/
def opening (factory : Bool) (driver : Driver) : Opening :=
  if factory then .factory else .httpx driver.client

theorem driverClient_eq (factory : Bool) (driver : Driver) :
    driverClient (H := H) (ω := ω) factory driver = lease (opening factory driver) := by
  funext instance?
  cases instance? with
  | some client => cases driver <;> rfl
  | none =>
    cases driver with
    | docker reference endpoint =>
      cases factory with
      | true => rfl
      | false =>
        simp only [driverClient, dockerClient, lease, opening, Driver.client]
        cases (lit "unix://").isPrefixOf endpoint <;> rfl
    | portainer reference endpoint apiKey =>
      cases factory with
      | true => rfl
      | false =>
        apply congrArg (Prog.call (I := Handles Opening H ω http) _)
        funext reply
        cases reply <;> rfl

end Opening

/-! ## Operations -/

inductive Operation where
  | query (q : DriverResourceQuery)
  | describe (uri : Str)
  | logs (uri : Str) (tail : Int)
  | stats (uri : Str)
  | revision (uri : Str)
  deriving DecidableEq, Repr

inductive Answer where
  | resources (resources : List DriverResource)
  | details (details : DriverResourceDetails)
  | logs (result : DriverLogResult)
  | stats (stats : DriverContainerStats)
  | revision (revision : Option Str)
  deriving DecidableEq, Repr

section Python

variable [Python] [Loads]

def Operation.run (reference : Str) : Operation → Prog http Exn Answer
  | .query q => Answer.resources <$> Docker.query reference q
  | .describe uri => Answer.details <$> Docker.describe reference uri
  | .logs uri tail => Answer.logs <$> Docker.logs reference uri tail
  | .stats uri => Answer.stats <$> Docker.stats reference uri
  | .revision uri => Answer.revision <$> Docker.revision reference uri

/-- A driver in use: operations, with calls of `close` between them. -/
def driverSession {H ω : Type} (factory : Bool) (driver : Driver) (steps : List (Option Operation)) :
    Prog (Handles Opening H ω http) Empty (List (Outcome ω Exn Answer) × Option H) :=
  session (driverClient factory driver) (Operation.run driver.reference) steps none

theorem within_operation (reference : Str) (operation : Operation) :
    Within (operation.run reference) := by
  cases operation with
  | query q =>
    refine Prog.allCalls_bind ?_ fun _ => trivial
    apply Prog.allCalls_bind (within_getJson .list)
    intro document
    apply Prog.allCalls_ofExcept
  | describe uri => exact Prog.allCalls_bind (within_describe reference uri) fun _ => trivial
  | logs uri tail =>
    have hlogs := within_run reference uri (.logs tail)
    exact Prog.allCalls_bind hlogs.left fun _ => trivial
  | stats uri =>
    have hstats := within_run reference uri .stats
    exact Prog.allCalls_bind hstats.left fun _ => trivial
  | revision uri =>
    have hrevision := within_run reference uri .revision
    exact Prog.allCalls_bind hrevision.left fun _ => trivial

theorem bounded_of_plain {ω : Type} {reference : Str} {steps : List (Option Operation)}
    {outcomes : List (Outcome ω Exn Answer)} {v : List (Exchange http)}
    (h : Plain (Operation.run reference) steps outcomes v) :
    ∀ x ∈ v, Bounded (x.1 : Request).path (x.1 : Request).params := by
  induction h with
  | nil => simp
  | @used operation _ _ _ _ _ hexec _ ih =>
    intro x hx
    cases List.mem_append.mp hx with
    | inl hu => exact (within_operation reference operation).of_exec hexec x hu
    | inr hv => exact ih x hv
  | unopened _ ih => exact ih
  | closed _ ih => exact ih

/-- What is known of a driver in use. -/
structure Disciplined {H ω : Type} (factory : Bool) (driver : Driver) (steps : List (Option Operation))
    (t : List (Exchange (Handles Opening H ω http))) (outcomes : List (Outcome ω Exn Answer))
    (client? : Option H) : Prop where
  /-- A client is opened only where there is none, with the driver's base URL and credential, and
  every request goes through it. -/
  tracks : Tracks (opening factory driver) none t client?
  /-- The operations are none the wiser: they do what they would do on their own, unless a client
  cannot be opened. -/
  plain : Plain (Operation.run driver.reference) steps outcomes (sends t)
  bounded : ∀ x ∈ sends t, Bounded (x.1 : Request).path (x.1 : Request).params
  balanced : opened t = released t ++ client?.toList
  /-- Behind a `with` block there is nothing left open. -/
  left : ∀ block, steps = block ++ [none] → outcomes.getLast? = some (.closed (.ok ())) →
    opened t = released t

theorem driverSession_disciplined {H ω : Type} (factory : Bool) (driver : Driver)
    (steps : List (Option Operation)) {t : List (Exchange (Handles Opening H ω http))}
    {outcomes : List (Outcome ω Exn Answer)} {client? : Option H}
    (h : (driverSession factory driver steps).Exec t (.ok (outcomes, client?))) :
    Disciplined factory driver steps t outcomes client? := by
  rw [driverSession, driverClient_eq] at h
  obtain ⟨htracks, hplain⟩ := exec_session h
  have hbalanced : opened t = released t ++ client?.toList := htracks.opened_eq
  refine ⟨htracks, hplain, bounded_of_plain hplain, hbalanced, ?_⟩
  rintro block rfl hlast
  obtain rfl := closed_of_exec_session h hlast
  rw [hbalanced, Option.toList_none, List.append_nil]

/-- A daemon that is down; the clients are numbered. -/
def down (opened : Nat) : (c : HandleCall Opening Nat Request) → HandleReply Opening Nat Str http c × Nat
  | .acquire _ => (.ok opened, opened + 1)
  | .send _ _ => (.requestError, opened)
  | .release _ => (.ok (), opened)

def localSteps : List (Option Operation) :=
  [some (.describe (lit "env://local/docker/project/shop")), none,
    some (.query (.all .container)), none]

def downSession : Except Empty (List (Outcome Str Exn Answer) × Option Nat) ×
    List (Exchange (Handles Opening Nat Str http)) × Nat :=
  Prog.serve down (@driverSession Python.ascii ⟨fun _ => .refused⟩ Nat Str false portainerDriver localSteps) 0

def unavailable : Outcome Str Exn Answer :=
  .used (.error (.inr (.driverUnavailable (lit "target is unavailable"))))

def downOutcomes : List (Outcome Str Exn Answer) :=
  [unavailable, .closed (.ok ()), unavailable, .closed (.ok ())]

omit [Python] [Loads] in
theorem driverSession_disciplined_down :
    downSession.1 = .ok (downOutcomes, none) ∧ opened downSession.2.1 = [0, 1] ∧
    @Disciplined Python.ascii ⟨fun _ => .refused⟩ Nat Str false portainerDriver localSteps
      downSession.2.1 downOutcomes none := by
  have hout : downSession.1 = .ok (downOutcomes, none) := by decide +kernel
  refine ⟨hout, by decide +kernel, ?_⟩
  apply @driverSession_disciplined Python.ascii ⟨fun _ => .refused⟩ Nat Str false portainerDriver localSteps
  rw [← hout]
  exact Prog.exec_serve _ _ 0

end Python

end MiraDriver.Clients
