import Mathlib.Data.Rat.Defs
import MiraDriver.Text

/-!
# Numerals

`int` and `float` of a string without white space around it. The value of a float is exact,
as rounded to the nearest double; the sign of a zero is left out.
-/
namespace MiraDriver.Numerals

open MiraDriver.Text

/-- The values of the digits outside ASCII. -/
class Digits where
  value : Char → Fin 10

/-- No digit is zero but those of ASCII. -/
abbrev Digits.ascii : Digits := ⟨fun _ => 0⟩

section Digits

variable [Python] [Digits]

def digitOf (c : Char) : Option Nat :=
  if isAscii c then if isDigit c then some (c.toNat - '0'.toNat) else none
  else if Python.decimal c then some (Digits.value c).val
  else none

/-- Digits, with single underscores between them. -/
def digitPart : Str → Option (List Nat)
  | [] => none
  | [c] => (digitOf c).map ([·])
  | c :: '_' :: rest => (digitOf c).bind fun d => (digitPart rest).map (d :: ·)
  | c :: rest => (digitOf c).bind fun d => (digitPart rest).map (d :: ·)

end Digits

def digitsValue (digits : List Nat) : Nat := digits.foldl (fun n d => 10 * n + d) 0

/-- Whether there is a minus, and what follows the sign. -/
def splitSign : Str → Bool × Str
  | '+' :: rest => (false, rest)
  | '-' :: rest => (true, rest)
  | s => (false, s)

/-- The limit on the digits of an integer that is read. -/
def maxStrDigits : Nat := 4300

section Parse

variable [Python] [Digits]

/-- `int(s)`; none is a `ValueError`. -/
def parseInt (s : Str) : Option Int := do
  let digits ← digitPart (splitSign s).2
  if digits.length > maxStrDigits then none
  else if (splitSign s).1 then pure (-(digitsValue digits : Int))
  else pure (digitsValue digits)

/-- The digits on both sides of a point, and how many are behind it. -/
def mantissa (s : Str) : Option (List Nat × Nat) :=
  match partition '.' s with
  | (whole, none) => (digitPart whole).map (·, 0)
  | (whole, some fraction) =>
    if fraction = [] then (digitPart whole).map (·, 0)
    else do
      let digits ← digitPart fraction
      if whole = [] then pure (digits, digits.length)
      else (digitPart whole).map fun before => (before ++ digits, digits.length)

def isExponentMark (c : Char) : Bool := c = 'e' || c = 'E'

def exponent (s : Str) : Option Int := do
  let digits ← digitPart (splitSign s).2
  if (splitSign s).1 then pure (-(digitsValue digits : Int)) else pure (digitsValue digits)

/-- The value of a number without a sign. -/
def number (s : Str) : Option Rat := do
  let (digits, places) ← mantissa (s.takeWhile (!isExponentMark ·))
  let power ← match s.dropWhile (!isExponentMark ·) with
    | [] => some 0
    | _ :: rest => exponent rest
  pure ((digitsValue digits : Rat) * (10 : Rat) ^ (power - places))

end Parse

/-- The quotient, to the nearest integer, and to an even one in the middle. -/
def roundHalfEven (a b : Nat) : Nat :=
  if 2 * (a % b) < b ∨ 2 * (a % b) = b ∧ a / b % 2 = 0 then a / b else a / b + 1

/-- The binary exponent of a positive quotient. -/
def binaryExponent (a b : Nat) : Int :=
  let e : Int := (Nat.log2 a : Int) - Nat.log2 b
  if a * 2 ^ (-e).toNat < b * 2 ^ e.toNat then e - 1 else e

/-- The double that is nearest to a quotient, without a limit on its size. -/
def nearest (a b : Nat) : Rat :=
  let unit := max (binaryExponent a b - 52) (-1074)
  roundHalfEven (a * 2 ^ (-unit).toNat) (b * 2 ^ unit.toNat) * (2 : Rat) ^ unit

inductive Double where
  | finite (value : Rat)
  | infinity (negative : Bool)
  | nan
  deriving DecidableEq, Repr

/-- The double for a number and its sign. -/
def Double.ofRat (negative : Bool) (x : Rat) : Double :=
  if x = 0 then .finite 0
  else
    let value := nearest x.num.natAbs x.den
    if value ≥ 2 ^ 1024 then .infinity negative
    else .finite (if negative then -value else value)

/-- `float(s)`; none is a `ValueError`. -/
def parseFloat [Python] [Digits] (s : Str) : Option Double :=
  let (negative, body) := splitSign s
  let word := body.map Char.toLower
  if word = lit "inf" ∨ word = lit "infinity" then some (.infinity negative)
  else if word = lit "nan" then some .nan
  else (number body).map (Double.ofRat negative)

end MiraDriver.Numerals
