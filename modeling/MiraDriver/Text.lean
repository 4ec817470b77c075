import Mathlib.Algebra.Ring.Int.Defs
import Mathlib.Algebra.Ring.Nat
import Mathlib.Data.List.Sort
import Mathlib.Data.List.Lex
import Mathlib.Data.List.TakeWhile
import Mathlib.Data.Char

/-!
# Strings

Python's `str` as a list of characters, with the methods the driver calls. What
these methods do on ASCII is defined here. What they take from the Unicode tables
of the interpreter is a parameter, the class `Python`, as are the parts of the
standard library that are tables or parsers of their own. Nothing is assumed of
any of them.
-/
namespace MiraDriver.Text

abbrev Str := List Char

/-- A string literal. It is not unfolded by accident: evaluating one is costly. -/
@[irreducible] def lit (s : String) : Str := s.toList

@[simp] theorem lit_inj {s t : String} : lit s = lit t ↔ s = t := by
  unfold lit
  exact String.toList_inj

/-- For the places where the characters of a literal count. -/
theorem lit_def (s : String) : lit s = s.toList := by
  unfold lit
  rfl

/-- What comes out of a parser of the standard library. -/
inductive Parsed (α : Type) where
  | value (a : α)
  /-- The exception that its caller catches. -/
  | refused
  /-- Another one, such as a `RecursionError`, by the name of its class. -/
  | raised (name : Str)
  deriving DecidableEq, Repr

/-- What is taken from the Python build as it comes. -/
class Python where
  /-- The characters outside ASCII that `\d` matches, category Nd. -/
  decimal : Char → Bool
  /-- `str.lower` of a string that is not ASCII. -/
  lower : Str → Str
  /-- `unicodedata.normalize('NFKC', ·)`. -/
  nfkc : Str → Str
  /-- Whether `urllib.parse` admits the text between brackets as a host address. -/
  bracketedHost : Str → Bool
  /-- `tarfile`: up to 128 bytes of the first regular file of an archive, none when it
  has none. It is refused with a `tarfile.TarError`. -/
  firstFile : List UInt8 → Parsed (Option (List UInt8))

/-- A build that knows nothing beyond ASCII and unpacks no archive. -/
abbrev Python.ascii : Python := ⟨fun _ => false, id, id, fun _ => false, fun _ => .refused⟩

def isAscii (c : Char) : Bool := c.toNat < 128

def isDigit (c : Char) : Bool := '0'.toNat ≤ c.toNat && c.toNat ≤ '9'.toNat

def isLower (c : Char) : Bool := 'a'.toNat ≤ c.toNat && c.toNat ≤ 'z'.toNat

def isUpper (c : Char) : Bool := 'A'.toNat ≤ c.toNat && c.toNat ≤ 'Z'.toNat

/-- A letter or digit of ASCII. -/
def isAlnum (c : Char) : Bool := isUpper c || isLower c || isDigit c

/-- `str.isspace` on one character. -/
def isSpace (c : Char) : Bool :=
  let n := c.toNat
  (9 ≤ n && n ≤ 13) || (28 ≤ n && n ≤ 32) || n = 0x85 || n = 0xA0 || n = 0x1680 ||
    (0x2000 ≤ n && n ≤ 0x200A) || n = 0x2028 || n = 0x2029 || n = 0x202F || n = 0x205F ||
    n = 0x3000

/-- The boundaries of `str.splitlines`. -/
def isLineBreak (c : Char) : Bool :=
  let n := c.toNat
  (10 ≤ n && n ≤ 13) || (28 ≤ n && n ≤ 30) || n = 0x85 || n = 0x2028 || n = 0x2029

section Python

variable [Python]

/-- `\d` in a `str` pattern. -/
def isDecimal (c : Char) : Bool := if isAscii c then isDigit c else Python.decimal c

def lower (s : Str) : Str := if s.all isAscii then s.map Char.toLower else Python.lower s

end Python

/-- `str.partition`: what precedes the first `c`, and what follows it if there is one. -/
def partition (c : Char) (s : Str) : Str × Option Str :=
  (s.takeWhile (· != c), if c ∈ s then some (s.dropWhile (· != c)).tail else none)

/-- `str.rpartition`: what precedes the last `c` if there is one, and what follows it. -/
def rpartition (c : Char) (s : Str) : Option Str × Str :=
  let out := partition c s.reverse
  (out.2.map List.reverse, out.1.reverse)

def removePrefix (p s : Str) : Str := if p.isPrefixOf s then s.drop p.length else s

/-- `str.splitlines`; a final line break opens no further line. -/
def splitLines : Str → List Str
  | [] => []
  | '\r' :: '\n' :: rest => [] :: splitLines rest
  | c :: rest =>
    if isLineBreak c then [] :: splitLines rest
    else match splitLines rest with
      | [] => [[c]]
      | line :: lines => (c :: line) :: lines

/-- `str.split` at white space. -/
def split (s : Str) : List Str := (s.splitOnP isSpace).filter (· ≠ [])

/-- `sorted` on strings: by code point, lexicographically. -/
def sorted (l : List Str) : List Str := l.insertionSort (· ≤ ·)

theorem partition_append (c : Char) (a b : Str) (h : c ∉ a) :
    partition c (a ++ c :: b) = (a, some b) := by
  have ha : ∀ x ∈ a, (x != c) = true := by
    intro x hx
    simpa using fun he : x = c => h (he ▸ hx)
  have ht : (a ++ c :: b).takeWhile (· != c) = a := by
    rw [List.takeWhile_append_of_pos ha]
    simp
  have hd : (a ++ c :: b).dropWhile (· != c) = c :: b := by
    rw [List.dropWhile_append_of_pos ha]
    simp
  simp [partition, ht, hd]

theorem partition_of_not_mem (c : Char) (s : Str) (h : c ∉ s) : partition c s = (s, none) := by
  have hs : ∀ x ∈ s, (x != c) = true := by
    intro x hx
    simpa using fun he : x = c => h (he ▸ hx)
  simp only [partition, if_neg h, Prod.mk.injEq, and_true]
  exact List.takeWhile_eq_self_iff.mpr hs

theorem rpartition_of_not_mem (c : Char) (s : Str) (h : c ∉ s) : rpartition c s = (none, s) := by
  simp [rpartition, partition_of_not_mem c s.reverse (by simpa using h)]

/-- A character outside a class occurs in no string of that class. -/
theorem not_mem_of_class {p : Char → Bool} {s : Str} (hs : ∀ c ∈ s, p c = true) {d : Char}
    (hd : p d = false) : d ∉ s := by
  intro hm
  simpa [hd] using hs d hm

/-- `str.join` adds nothing but the separator. -/
theorem mem_intercalate {sep : Str} {parts : List Str} {c : Char} (h : c ∈ sep.intercalate parts) :
    c ∈ sep ∨ ∃ s ∈ parts, c ∈ s := by
  induction parts with
  | nil => simp at h
  | cons s rest ih =>
    cases rest with
    | nil => exact .inr ⟨s, by simp, by simpa using h⟩
    | cons t rest =>
      rw [List.intercalate_cons_cons, List.mem_append, List.mem_append] at h
      rcases h with (h | h) | h
      · exact .inr ⟨s, by simp, h⟩
      · exact .inl h
      · rcases ih h with h | ⟨u, hu, h⟩
        · exact .inl h
        · exact .inr ⟨u, List.mem_cons_of_mem s hu, h⟩

/-- Splitting a joined text splits each of its parts. -/
theorem splitOn_intercalate_eq_flatMap (c : Char) (parts : List Str) (h : parts ≠ []) :
    ([c].intercalate parts).splitOn c = parts.flatMap (·.splitOn c) := by
  induction parts with
  | nil => exact absurd rfl h
  | cons s rest ih =>
    cases rest with
    | nil => simp
    | cons t rest =>
      rw [List.intercalate_cons_cons, List.append_assoc, List.singleton_append,
        List.splitOn_append_cons_self, ih (List.cons_ne_nil t rest)]
      rfl

theorem two_le_length_splitOn {c : Char} {s : Str} (h : c ∈ s) : 2 ≤ (s.splitOn c).length := by
  obtain ⟨l, r, rfl⟩ := List.append_of_mem h
  have hl := List.length_pos_iff.mpr (List.splitOn_ne_nil c l)
  have hr := List.length_pos_iff.mpr (List.splitOn_ne_nil c r)
  rw [List.splitOn_append_cons_self, List.length_append]
  omega

theorem length_intercalate_le (c : Char) (parts : List Str) :
    ([c].intercalate parts).length ≤ (parts.map fun s => s.length + 1).sum := by
  induction parts with
  | nil => simp
  | cons s rest ih =>
    cases rest with
    | nil => simp
    | cons t rest =>
      rw [List.intercalate_cons_cons, List.map_cons, List.sum_cons, List.length_append,
        List.length_append, List.length_singleton]
      omega

/-- A joined text ends as its last part does. -/
theorem getLast?_intercalate (sep : Str) (parts : List Str) (s : Str)
    (h : parts.getLast? = some s) (hs : s ≠ []) :
    (sep.intercalate parts).getLast? = s.getLast? := by
  induction parts with
  | nil => simp at h
  | cons t rest ih =>
    cases rest with
    | nil =>
      obtain rfl : t = s := by simpa using h
      simp
    | cons u rest =>
      have hlast := ih (by simpa using h)
      rw [List.intercalate_cons_cons, List.getLast?_append, hlast]
      cases hl : s.getLast? with
      | none => exact absurd (List.getLast?_eq_none_iff.mp hl) hs
      | some c => rfl

theorem lower_of_ascii [Python] (s : Str) (h : s.all isAscii = true) :
    lower s = s.map Char.toLower := by
  simp [lower, h]

/-- A character that breaks no line is put before the first line of the rest. -/
theorem splitLines_cons (c : Char) (rest : Str) (h : isLineBreak c = false) :
    splitLines (c :: rest) = match splitLines rest with
      | [] => [[c]]
      | line :: lines => (c :: line) :: lines := by
  have hc : c ≠ '\r' := by
    rintro rfl
    simp [isLineBreak] at h
  rw [splitLines.eq_def]
  split
  · contradiction
  · rename_i heq
    exact absurd (List.cons.inj heq).1 hc
  · rename_i heq
    obtain ⟨rfl, rfl⟩ := List.cons.inj heq
    simp [h]

/-- A text without line breaks, closed by a line feed, is one line. -/
theorem splitLines_line (s : Str) (h : ∀ c ∈ s, isLineBreak c = false) :
    splitLines (s ++ ['\n']) = [s] := by
  induction s with
  | nil => rfl
  | cons c rest ih =>
    have hrest := ih (fun d hd => h d (List.mem_cons_of_mem c hd))
    rw [List.cons_append, splitLines_cons c _ (h c (by simp)), hrest]

end MiraDriver.Text
