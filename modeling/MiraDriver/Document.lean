import MiraDriver.Mapping
import MiraDriver.Base

/-!
# Decoded JSON

The Python value of a JSON text, the tests `docker.py` makes on it, and the small
readers built from them.
-/
namespace MiraDriver.Document

open MiraDriver.Text MiraDriver.Mapping MiraDriver.Base

inductive Json where
  | null
  | bool (value : Bool)
  | int (value : Int)
  /-- None stands for a NaN or an infinity. -/
  | float (value : Option Rat)
  | str (value : Str)
  | arr (items : List Json)
  /-- The members in the order of the text. -/
  | obj (members : List (Str × Json))

/-- `json.loads`, as `httpx` calls it on a body. It is refused with a `ValueError`. -/
class Loads where
  loads : List UInt8 → Parsed Json

/-- A decoder that knows some texts, and takes no others. -/
abbrev Loads.known (texts : List (List UInt8 × Json)) : Loads where
  loads body :=
    match texts.find? fun d => d.1 = body with
    | some d => .value d.2
    | none => .refused

theorem Loads.loads_known {texts : List (List UInt8 × Json)} {body : List UInt8} {document : Json} (i : Nat)
    (hi : texts[i]? = some (body, document)) (h : ∀ d ∈ texts.take i, d.1 ≠ body) :
    (Loads.known texts).loads body = .value document := by
  have hsplit : texts = texts.take i ++ (body, document) :: texts.drop (i + 1) := by
    obtain ⟨hlt, hget⟩ := List.getElem?_eq_some_iff.mp hi
    rw [← hget, ← List.drop_eq_getElem_cons hlt, List.take_append_drop]
  have hfind : texts.find? (fun d => d.1 = body) = some (body, document) := by
    rw [hsplit, List.find?_append, List.find?_eq_none.mpr (by simpa using h), Option.none_or,
      List.find?_cons_of_pos (by simp)]
  change (match texts.find? (fun d => d.1 = body) with | some d => Parsed.value d.2 | none => .refused) = _
  rw [hfind]

theorem Loads.known_ne_raised (texts : List (List UInt8 × Json)) (body : List UInt8) (name : Str) :
    (Loads.known texts).loads body ≠ .raised name := by
  change (match texts.find? (fun d => d.1 = body) with | some d => Parsed.value d.2 | none => .refused) ≠ _
  split
  · intro h
    cases h
  · intro h
    cases h

abbrev Object := Dict Str Json

namespace Json

/-- `isinstance(value, dict)`. -/
def dict? : Json → Option Object
  | .obj members => some (Dict.ofList members)
  | _ => none

/-- `isinstance(value, list)`. -/
def list? : Json → Option (List Json)
  | .arr items => some items
  | _ => none

/-- `isinstance(value, str)`. -/
def str? : Json → Option Str
  | .str s => some s
  | _ => none

/-- `isinstance(value, bool)`. -/
def bool? : Json → Option Bool
  | .bool b => some b
  | _ => none

/-- `isinstance(value, int)`, which holds of a `bool` too. -/
def int? : Json → Option PyInt
  | .int n => some (.int n)
  | .bool b => some (.bool b)
  | _ => none

/-- `isinstance(value, int) and not isinstance(value, bool)`. -/
def plainInt? : Json → Option Int
  | .int n => some n
  | _ => none

/-- `value is None`. -/
def isNull : Json → Bool
  | .null => true
  | _ => false

/-- `bool(value)`. -/
def truthy : Json → Bool
  | .null => false
  | .bool b => b
  | .int n => n ≠ 0
  | .float x => x ≠ some 0
  | .str s => s ≠ []
  | .arr items => !items.isEmpty
  | .obj members => !members.isEmpty

theorem str?_of_isNull {j : Json} (h : j.isNull = true) : j.str? = none := by
  cases j <;> simp_all [isNull, str?]

/-- The dictionary, or the empty one in place of anything else. -/
def dictOrEmpty (j : Json) : Object := j.dict?.getD Dict.empty

end Json

/-- `object.get(key)`: None when there is no such key. -/
def get (object : Object) (key : String) : Json := (object.get? (lit key)).getD .null

/-- `_bounded_optional`. -/
def boundedOptional (value : Json) (maximum : Nat) (field : String) : Except Exn (Option Str) :=
  if value.isNull then .ok none
  else
    match value.str? with
    | some s =>
      if s.length > maximum then
        .error (.driverProtocolError (lit "Docker container " ++ lit field ++ lit " is malformed"))
      else .ok (some s)
    | none =>
      .error (.driverProtocolError (lit "Docker container " ++ lit field ++ lit " is malformed"))

/-- `_safe_counter`. -/
def safeCounter (value : Json) : Option Int := value.plainInt?.filter (0 ≤ ·)

theorem boundedOptional_error {value : Json} {maximum : Nat} {field : String} {e : Exn}
    (h : boundedOptional value maximum field = .error e) : ∃ m, e = .driverProtocolError m := by
  unfold boundedOptional at h
  repeat' split at h
  all_goals first | exact ⟨_, (Except.error.inj h).symm⟩ | cases h

end MiraDriver.Document
