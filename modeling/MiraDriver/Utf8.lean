import MiraDriver.Text

/-!
# UTF-8

`str.encode` and `bytes.decode(errors="replace")`: each maximal ill-formed part of
the bytes is read as one replacement character, a truncated last character too.
-/
namespace MiraDriver.Utf8

open MiraDriver.Text

def encode (s : Str) : List UInt8 := s.flatMap String.utf8EncodeChar

def replacement : Char := Char.ofNat 0xFFFD

/-- The bounds of a continuation byte. -/
def continuation : Nat × Nat := (0x80, 0xBF)

/-- What a first byte holds of the value, and the bounds of the bytes to follow it. -/
def lead (b : Nat) : Option (Nat × List (Nat × Nat)) :=
  if b < 0x80 then some (b, [])
  else if b < 0xC2 then none
  else if b < 0xE0 then some (b - 0xC0, [continuation])
  else if b = 0xE0 then some (0, [(0xA0, 0xBF), continuation])
  else if b = 0xED then some (0x0D, [(0x80, 0x9F), continuation])
  else if b < 0xF0 then some (b - 0xE0, [continuation, continuation])
  else if b = 0xF0 then some (0, [(0x90, 0xBF), continuation, continuation])
  else if b < 0xF4 then some (b - 0xF0, [continuation, continuation, continuation])
  else if b = 0xF4 then some (4, [(0x80, 0x8F), continuation, continuation])
  else none

/-- Read bytes as long as they keep to the bounds: the value when all are kept to,
and the number of bytes read. -/
def follow (value : Nat) : List (Nat × Nat) → List UInt8 → Option Nat × Nat
  | [], _ => (some value, 0)
  | _ :: _, [] => (none, 0)
  | (low, high) :: bounds, b :: rest =>
    if low ≤ b.toNat ∧ b.toNat ≤ high then
      let out := follow (64 * value + (b.toNat - 0x80)) bounds rest
      (out.1, out.2 + 1)
    else (none, 0)

/-- The character a byte begins, and how many further bytes belong to it. -/
def first (b : UInt8) (rest : List UInt8) : Char × Nat :=
  match lead b.toNat with
  | none => (replacement, 0)
  | some (value, bounds) =>
    let out := follow value bounds rest
    (match out.1 with
      | some n => Char.ofNat n
      | none => replacement, out.2)

/-- Decode, passing over bytes that belong to the character before. -/
def decodeFrom : Nat → List UInt8 → Str
  | _, [] => []
  | 0, b :: rest => (first b rest).1 :: decodeFrom (first b rest).2 rest
  | n + 1, _ :: rest => decodeFrom n rest

def decode (bytes : List UInt8) : Str := decodeFrom 0 bytes

@[simp] theorem encode_nil : encode [] = [] := rfl
@[simp] theorem encode_cons (c : Char) (s : Str) :
    encode (c :: s) = String.utf8EncodeChar c ++ encode s := rfl
@[simp] theorem encode_append (s t : Str) : encode (s ++ t) = encode s ++ encode t := by
  simp [encode]

@[simp] theorem decode_nil : decode [] = [] := rfl

theorem decodeFrom_append (skipped rest : List UInt8) :
    decodeFrom skipped.length (skipped ++ rest) = decode rest := by
  induction skipped with
  | nil => rfl
  | cons b skipped ih => simpa [decodeFrom] using ih

theorem char_range (c : Char) : c.toNat < 0xD800 ∨ (0xDFFF < c.toNat ∧ c.toNat < 0x110000) := c.valid

theorem toNat_ofNat {n : Nat} (h : n < 256) : (UInt8.ofNat n).toNat = n := by
  rw [UInt8.toNat_ofNat', Nat.mod_eq_of_lt (by omega)]

theorem follow_cons {value low high : Nat} {bounds : List (Nat × Nat)} {b : UInt8}
    {rest : List UInt8} (hl : low ≤ b.toNat) (hh : b.toNat ≤ high) :
    follow value ((low, high) :: bounds) (b :: rest) =
      ((follow (64 * value + (b.toNat - 0x80)) bounds rest).1,
        (follow (64 * value + (b.toNat - 0x80)) bounds rest).2 + 1) := by
  rw [follow, if_pos ⟨hl, hh⟩]

theorem lead_two {n : Nat} (h₁ : 2 ≤ n) (h₂ : n < 32) :
    lead (n + 0xC0) = some (n, [continuation]) := by
  simp only [lead]
  rw [if_neg (by omega), if_neg (by omega), if_pos (by omega)]
  simp

/-- The bounds a three-byte sequence sets for its second byte. -/
theorem lead_three {n : Nat} (h : n < 16) : ∃ low high,
    lead (n + 0xE0) = some (n, [(low, high), continuation]) ∧
      ∀ m < 64, (n = 0 → 32 ≤ m) → (n = 13 → m < 32) → low ≤ m + 0x80 ∧ m + 0x80 ≤ high := by
  simp only [lead]
  rw [if_neg (by omega), if_neg (by omega), if_neg (by omega)]
  split
  case isTrue he =>
    obtain rfl : n = 0 := by omega
    exact ⟨0xA0, 0xBF, rfl, fun m _ _ _ => by omega⟩
  split
  case isTrue _ he =>
    obtain rfl : n = 13 := by omega
    exact ⟨0x80, 0x9F, rfl, fun m _ _ _ => by omega⟩
  case isFalse =>
    rw [if_pos (by omega), Nat.add_sub_cancel]
    exact ⟨0x80, 0xBF, rfl, fun m _ _ _ => by omega⟩

/-- The bounds a four-byte sequence sets for its second byte. -/
theorem lead_four {n : Nat} (h : n < 5) : ∃ low high,
    lead (n + 0xF0) = some (n, [(low, high), continuation, continuation]) ∧
      ∀ m < 64, (n = 0 → 16 ≤ m) → (n = 4 → m < 16) → low ≤ m + 0x80 ∧ m + 0x80 ≤ high := by
  simp only [lead]
  rw [if_neg (by omega), if_neg (by omega), if_neg (by omega), if_neg (by omega), if_neg (by omega),
    if_neg (by omega)]
  split
  case isTrue he =>
    obtain rfl : n = 0 := by omega
    exact ⟨0x90, 0xBF, rfl, fun m _ _ _ => by omega⟩
  split
  case isTrue =>
    rw [Nat.add_sub_cancel]
    exact ⟨0x80, 0xBF, rfl, fun m _ _ _ => by omega⟩
  case isFalse =>
    obtain rfl : n = 4 := by omega
    exact ⟨0x80, 0x8F, rfl, fun m _ _ _ => by omega⟩

theorem toNat_continuation (n : Nat) : (UInt8.ofNat (n % 0x40 + 0x80)).toNat = n % 0x40 + 0x80 :=
  toNat_ofNat (by omega)

/-- The encoding of a character is read back, whatever follows it. -/
theorem first_utf8EncodeChar (c : Char) : ∃ b tail, String.utf8EncodeChar c = b :: tail ∧
    ∀ rest, first b (tail ++ rest) = (c, tail.length) := by
  have hv : c.val.toNat = c.toNat := rfl
  have hrange := char_range c
  have hc : Char.ofNat c.toNat = c := Char.ofNat_toNat c
  unfold String.utf8EncodeChar
  simp only [hv]
  generalize c.toNat = v at hrange hc
  split
  case isTrue h =>
    refine ⟨_, _, rfl, fun rest => ?_⟩
    have hlead : lead v = some (v, []) := by
      rw [lead, if_pos (by omega)]
    simp [first, toNat_ofNat (by omega : v < 256), hlead, follow, hc]
  split
  case isTrue h =>
    refine ⟨_, _, rfl, fun rest => ?_⟩
    have hlow := toNat_continuation v
    rw [first, toNat_ofNat (by omega), lead_two (by omega) (by omega)]
    simp only [List.cons_append, List.nil_append, List.length_singleton]
    rw [continuation, follow_cons (by omega) (by omega), hlow]
    have hn : 64 * (v / 64 % 32) + (v % 64 + 0x80 - 0x80) = v := by omega
    simp only [follow, hn, hc]
  split
  case isTrue h =>
    refine ⟨_, _, rfl, fun rest => ?_⟩
    have hmid := toNat_continuation (v / 64)
    have hlow := toNat_continuation v
    obtain ⟨low, high, hlead, hbounds⟩ := lead_three (by omega : v / 4096 % 16 < 16)
    have hb := hbounds (v / 64 % 64) (by omega) (by omega) (by omega)
    rw [first, toNat_ofNat (by omega), hlead]
    simp only [List.cons_append, List.nil_append, List.length_cons, List.length_nil]
    rw [follow_cons (by omega) (by omega), continuation, follow_cons (by omega) (by omega), hmid, hlow]
    have hn : 64 * (64 * (v / 4096 % 16) + (v / 64 % 64 + 0x80 - 0x80)) + (v % 64 + 0x80 - 0x80) = v := by
      omega
    simp only [follow, hn, hc]
  case isFalse h =>
    refine ⟨_, _, rfl, fun rest => ?_⟩
    have hhigh := toNat_continuation (v / 4096)
    have hmid := toNat_continuation (v / 64)
    have hlow := toNat_continuation v
    obtain ⟨low, high, hlead, hbounds⟩ := lead_four (by omega : v / 262144 % 8 < 5)
    have hb := hbounds (v / 4096 % 64) (by omega) (by omega) (by omega)
    rw [first, toNat_ofNat (by omega), hlead]
    simp only [List.cons_append, List.nil_append, List.length_cons, List.length_nil]
    rw [follow_cons (by omega) (by omega), continuation, follow_cons (by omega) (by omega),
      follow_cons (by omega) (by omega), hhigh, hmid, hlow]
    have hn : 64 * (64 * (64 * (v / 262144 % 8) + (v / 4096 % 64 + 0x80 - 0x80)) +
        (v / 64 % 64 + 0x80 - 0x80)) + (v % 64 + 0x80 - 0x80) = v := by
      omega
    simp only [follow, hn, hc]

theorem decode_utf8EncodeChar (c : Char) (rest : List UInt8) :
    decode (String.utf8EncodeChar c ++ rest) = c :: decode rest := by
  obtain ⟨b, tail, he, hf⟩ := first_utf8EncodeChar c
  rw [he, List.cons_append, decode, decodeFrom, hf rest, decodeFrom_append]

theorem decode_encode_append (s : Str) (rest : List UInt8) :
    decode (encode s ++ rest) = s ++ decode rest := by
  induction s with
  | nil => rfl
  | cons c s ih => rw [encode_cons, List.append_assoc, decode_utf8EncodeChar, ih, List.cons_append]

theorem decode_encode (s : Str) : decode (encode s) = s := by
  simpa using decode_encode_append s []

end MiraDriver.Utf8
