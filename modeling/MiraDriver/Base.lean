import Mathlib.Data.List.Forall2
import Mathlib.Data.Rat.Defs
import MiraDriver.Numerals

/-!
# The driver contract

The exceptions of the package and its normalized resource types. `DriverError`
and its subclasses are what `run_forever` rides out; everything else ends the
process.
-/
namespace MiraDriver.Base

open MiraDriver.Text MiraDriver.Numerals

/-- A raised Python exception, by class. -/
inductive Exn where
  | driverError (message : Str)
  | driverUnavailable (message : Str)
  | driverProtocolError (message : Str)
  | driverOperationInvalid (message : Str)
  | driverResourceNotFound (message : Str)
  | dockerUriInvalid (message : Str)
  | hostMetricsUnavailable (message : Str)
  | overflowError
  | exception (name : Str)
  | baseException (name : Str)
  deriving DecidableEq, Repr

namespace Exn

/-- `isinstance(e, DriverError)`. -/
def isDriverError : Exn → Bool
  | .driverError _ => true
  | .driverUnavailable _ => true
  | .driverProtocolError _ => true
  | .driverOperationInvalid _ => true
  | .driverResourceNotFound _ => true
  | _ => false

/-- `isinstance(e, Exception)`. -/
def isException : Exn → Bool
  | .baseException _ => false
  | _ => true

def isResourceNotFound : Exn → Bool
  | .driverResourceNotFound _ => true
  | _ => false

def isHostMetricsUnavailable : Exn → Bool
  | .hostMetricsUnavailable _ => true
  | _ => false

end Exn

variable {ε α β : Type}

theorem bind_ok_iff {x : Except ε α} {f : α → Except ε β} {b : β} :
    (x >>= f) = .ok b ↔ ∃ a, x = .ok a ∧ f a = .ok b := by
  cases x <;> simp [bind, Except.bind]

theorem bind_error_iff {x : Except ε α} {f : α → Except ε β} {e : ε} :
    (x >>= f) = .error e ↔ x = .error e ∨ ∃ a, x = .ok a ∧ f a = .error e := by
  cases x <;> simp [bind, Except.bind]

theorem mapM_ok_iff {f : α → Except ε β} {l : List α} {r : List β} :
    l.mapM f = .ok r ↔ List.Forall₂ (fun a b => f a = .ok b) l r := by
  induction l generalizing r with
  | nil => simp [pure, Except.pure, eq_comm]
  | cons a l ih =>
    rw [List.mapM_cons]
    simp only [bind_ok_iff, ih, List.forall₂_cons_left_iff, pure, Except.pure, Except.ok.injEq]
    constructor
    · rintro ⟨b, hb, bs, hbs, rfl⟩
      exact ⟨b, bs, hb, hbs, rfl⟩
    · rintro ⟨b, bs, hb, hbs, rfl⟩
      exact ⟨b, hb, bs, hbs, rfl⟩

theorem exists_of_mem_right {R : α → β → Prop} {l : List α} {r : List β} (h : List.Forall₂ R l r)
    {b : β} (hb : b ∈ r) : ∃ a ∈ l, R a b := by
  induction h with
  | nil => cases hb
  | cons hr _ ih =>
    rcases List.mem_cons.mp hb with rfl | hb
    · exact ⟨_, List.mem_cons_self, hr⟩
    · obtain ⟨a, ha, h⟩ := ih hb
      exact ⟨a, List.mem_cons_of_mem _ ha, h⟩

theorem exists_of_mem_left {R : α → β → Prop} {l : List α} {r : List β} (h : List.Forall₂ R l r)
    {a : α} (ha : a ∈ l) : ∃ b ∈ r, R a b := by
  obtain ⟨b, hb, hr⟩ := exists_of_mem_right h.flip ha
  exact ⟨b, hb, hr⟩

/-- `raise DriverProtocolError(...)` in place of a value that is not there. -/
def require (value : Option α) (message : String) : Except Exn α :=
  match value with
  | some a => .ok a
  | none => .error (.driverProtocolError (lit message))

theorem require_ok_iff {value : Option α} {message : String} {a : α} :
    require value message = .ok a ↔ value = some a := by
  cases value <;> simp [require]

inductive ResourceType where
  | project
  | service
  | container
  | other (name : Str)
  deriving DecidableEq, Repr

structure DriverResource where
  uri : Str
  resourceType : ResourceType
  name : Str
  project : Option Str
  service : Option Str
  state : Option Str
  image : Option Str
  containerCount : Option Nat
  deriving DecidableEq, Repr

/-- A Python integer; a `bool` is one. -/
inductive PyInt where
  | int (value : Int)
  | bool (value : Bool)
  deriving DecidableEq, Repr

def PyInt.toInt : PyInt → Int
  | .int n => n
  | .bool b => if b then 1 else 0

structure DriverResourceDetails where
  resource : DriverResource
  createdAt : Option Str
  health : Option Str
  restartCount : Option PyInt
  ports : List Str
  networks : List Str
  exitCode : Option Int
  oomKilled : Option Bool
  startedAt : Option Str
  finishedAt : Option Str
  deriving DecidableEq, Repr

structure DriverContainerStats where
  uri : Str
  readAt : Option Str
  cpuTotalNs : Option Int
  cpuSystemNs : Option Int
  onlineCpus : Option Int
  memoryUsageBytes : Option Int
  memoryLimitBytes : Option Int
  networkRxBytes : Option Int
  networkTxBytes : Option Int
  blockReadBytes : Option Int
  blockWriteBytes : Option Int
  deriving DecidableEq, Repr

inductive Stream where
  | stdout
  | stderr
  deriving DecidableEq, Repr

def Stream.name : Stream → Str
  | .stdout => lit "stdout"
  | .stderr => lit "stderr"

structure DriverLogEntry where
  stream : Stream
  text : Str
  timestamp : Option Str
  deriving DecidableEq, Repr

structure DriverLogResult where
  entries : List DriverLogEntry
  truncated : Bool
  deriving DecidableEq, Repr

/-- `metrics.MetricSample`; values that are calculated are exact. -/
structure MetricSample where
  name : Str
  value : Double
  unit : Option Str
  attributes : List (Str × Str)
  deriving DecidableEq, Repr

structure DriverResourceQuery where
  resourceType : ResourceType
  project : Option Str
  service : Option Str
  name : Option Str
  state : Option Str
  deriving DecidableEq, Repr

/-- `DriverResourceQuery(resource_type=...)`: every filter left at its default. -/
def DriverResourceQuery.all (t : ResourceType) : DriverResourceQuery := ⟨t, none, none, none, none⟩

end MiraDriver.Base
