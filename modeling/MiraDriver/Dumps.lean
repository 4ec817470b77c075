import MiraDriver.Base

/-!
# Encoded JSON

`json.dumps` with its defaults, on objects without objects in them. The text can be read
back in one way only.
-/
namespace MiraDriver.Dumps

open MiraDriver.Text MiraDriver.Base

/-- The values of an object. Its integers have come out of `json.loads`, and are never too
long to be written. -/
inductive Value where
  | null
  | int (value : PyInt)
  | str (value : Str)
  | strs (items : List Str)
  deriving DecidableEq, Repr

/-- The members of an object, in the order of insertion. -/
abbrev Members := List (Str × Value)

/-- The characters that have an escape of two characters. -/
def shortEscape : Char → Option Char
  | '"' => some '"'
  | '\\' => some '\\'
  | '\n' => some 'n'
  | '\r' => some 'r'
  | '\t' => some 't'
  | '\x08' => some 'b'
  | '\x0c' => some 'f'
  | _ => none

def unicodeEscape (n : Nat) : Str :=
  ['\\', 'u', Nat.digitChar (n / 4096 % 16), Nat.digitChar (n / 256 % 16),
    Nat.digitChar (n / 16 % 16), Nat.digitChar (n % 16)]

/-- A character within a string. Beyond the basic plane it takes two surrogates. -/
def escapeChar (c : Char) : Str :=
  match shortEscape c with
  | some e => ['\\', e]
  | none =>
    if 0x20 ≤ c.toNat ∧ c.toNat ≤ 0x7E then [c]
    else if c.toNat < 0x10000 then unicodeEscape c.toNat
    else unicodeEscape (0xD800 + (c.toNat - 0x10000) / 0x400) ++
      unicodeEscape (0xDC00 + (c.toNat - 0x10000) % 0x400)

def dumpsStr (s : Str) : Str := '"' :: (s.flatMap escapeChar ++ ['"'])

/-- `int.__repr__`. -/
def intRepr : Int → Str
  | .ofNat n => Nat.toDigits 10 n
  | .negSucc n => '-' :: Nat.toDigits 10 (n + 1)

def dumpsInt : PyInt → Str
  | .int n => intRepr n
  | .bool true => lit "true"
  | .bool false => lit "false"

/-- The items of an array, or the members of an object. -/
def joined (items : List Str) : Str := [',', ' '].intercalate items

def dumpsValue : Value → Str
  | .null => lit "null"
  | .int n => dumpsInt n
  | .str s => dumpsStr s
  | .strs items => '[' :: (joined (items.map dumpsStr) ++ [']'])

def dumpsMember (member : Str × Value) : Str :=
  dumpsStr member.1 ++ ':' :: ' ' :: dumpsValue member.2

def dumpsObject (members : Members) : Str := '{' :: (joined (members.map dumpsMember) ++ ['}'])

/-! ## Reading back -/

def unhex (c : Char) : Nat := if isDigit c then c.toNat - 48 else c.toNat - 87

/-- The value of four hexadecimal digits. -/
def unescaped (a b c d : Char) : Nat := ((unhex a * 16 + unhex b) * 16 + unhex c) * 16 + unhex d

def shortUnescape : Char → Option Char
  | '"' => some '"'
  | '\\' => some '\\'
  | 'n' => some '\n'
  | 'r' => some '\r'
  | 't' => some '\t'
  | 'b' => some '\x08'
  | 'f' => some '\x0c'
  | _ => none

/-- The character of two surrogates. -/
def readSurrogates (n : Nat) : Str → Option (Char × Str)
  | '\\' :: 'u' :: a :: b :: c :: d :: rest =>
    some (Char.ofNat (0x10000 + (n - 0xD800) * 0x400 + (unescaped a b c d - 0xDC00)), rest)
  | _ => none

/-- The character of an escape with four digits. -/
def readUnicode : Str → Option (Char × Str)
  | a :: b :: c :: d :: rest =>
    if 0xD800 ≤ unescaped a b c d ∧ unescaped a b c d < 0xDC00 then
      readSurrogates (unescaped a b c d) rest
    else some (Char.ofNat (unescaped a b c d), rest)
  | _ => none

def readEscape : Str → Option (Char × Str)
  | [] => none
  | e :: rest => if e = 'u' then readUnicode rest else (shortUnescape e).map (·, rest)

/-- The first character of the contents of a string. -/
def readChar : Str → Option (Char × Str)
  | [] => none
  | c :: rest => if c = '\\' then readEscape rest else some (c, rest)

theorem unhex_digitChar {n : Nat} (h : n < 16) : unhex (Nat.digitChar n) = n := by
  have hall : ∀ n < 16, unhex (Nat.digitChar n) = n := by decide
  exact hall n h

theorem unescaped_digitChar {n : Nat} (h : n < 0x10000) :
    unescaped (Nat.digitChar (n / 4096 % 16)) (Nat.digitChar (n / 256 % 16))
      (Nat.digitChar (n / 16 % 16)) (Nat.digitChar (n % 16)) = n := by
  simp only [unescaped, unhex_digitChar (Nat.mod_lt _ (by decide : 0 < 16))]
  omega

theorem shortUnescape_shortEscape {c e : Char} (h : shortEscape c = some e) :
    shortUnescape e = some c ∧ e ≠ 'u' := by
  unfold shortEscape at h
  split at h <;> cases h <;> exact ⟨rfl, by decide⟩

theorem readChar_unicodeEscape {n : Nat} (h : n < 0x10000) (rest : Str) :
    readChar (unicodeEscape n ++ rest) =
      if 0xD800 ≤ n ∧ n < 0xDC00 then readSurrogates n rest else some (Char.ofNat n, rest) := by
  simp only [unicodeEscape, List.cons_append, List.nil_append, readChar, readEscape, readUnicode,
    if_true, unescaped_digitChar h]

/-- Every character is read back, whatever follows it. -/
theorem readChar_escapeChar (c : Char) (rest : Str) :
    readChar (escapeChar c ++ rest) = some (c, rest) := by
  have hc : Char.ofNat c.toNat = c := Char.ofNat_toNat c
  have hrange : c.toNat < 0xD800 ∨ (0xDFFF < c.toNat ∧ c.toNat < 0x110000) := c.valid
  unfold escapeChar
  split
  · rename_i e he
    obtain ⟨hshort, hne⟩ := shortUnescape_shortEscape he
    simp [readChar, readEscape, hshort, hne]
  · rename_i hshort
    split
    · have hbackslash : c ≠ '\\' := by
        rintro rfl
        cases hshort
      simp [readChar, hbackslash]
    · split
      · rename_i hbasic
        rw [readChar_unicodeEscape hbasic, if_neg (by omega), hc]
      · rename_i hastral
        rw [List.append_assoc, readChar_unicodeEscape (by omega), if_pos (by omega)]
        simp only [unicodeEscape, List.cons_append, List.nil_append, readSurrogates]
        rw [unescaped_digitChar (by omega)]
        have hn : 0x10000 + (0xD800 + (c.toNat - 0x10000) / 0x400 - 0xD800) * 0x400 +
            (0xDC00 + (c.toNat - 0x10000) % 0x400 - 0xDC00) = c.toNat := by omega
        rw [hn, hc]

theorem quote_not_head_escapeChar (c : Char) (rest r : Str) : escapeChar c ++ rest ≠ '"' :: r := by
  intro h
  have hread := readChar_escapeChar c rest
  rw [h] at hread
  obtain ⟨rfl, -⟩ := Prod.mk.inj (Option.some.inj hread)
  cases h

/-- The contents of a string end with the first quote that is not escaped. -/
theorem flatMap_escapeChar_inj {s t r r' : Str}
    (h : s.flatMap escapeChar ++ '"' :: r = t.flatMap escapeChar ++ '"' :: r') : s = t ∧ r = r' := by
  induction s generalizing t with
  | nil =>
    cases t with
    | nil => exact ⟨rfl, (List.cons.inj h).2⟩
    | cons d t =>
      rw [List.flatMap_cons, List.append_assoc] at h
      exact absurd h.symm (quote_not_head_escapeChar d _ r)
  | cons c s ih =>
    rw [List.flatMap_cons, List.append_assoc] at h
    cases t with
    | nil => exact absurd h (quote_not_head_escapeChar c _ r')
    | cons d t =>
      rw [List.flatMap_cons, List.append_assoc] at h
      have hread := congrArg readChar h
      rw [readChar_escapeChar, readChar_escapeChar] at hread
      obtain ⟨rfl, hrest⟩ := Prod.mk.inj (Option.some.inj hread)
      obtain ⟨rfl, rfl⟩ := ih hrest
      exact ⟨rfl, rfl⟩

theorem dumpsStr_inj {s t r r' : Str} (h : dumpsStr s ++ r = dumpsStr t ++ r') : s = t ∧ r = r' := by
  simp only [dumpsStr, List.cons_append, List.append_assoc, List.nil_append, List.cons.injEq,
    true_and] at h
  exact flatMap_escapeChar_inj h

/-! ## Words -/

/-- The characters of numbers and of names such as `null`. -/
def isWordChar (c : Char) : Bool := isAlnum c || c = '-'

/-- What follows a value: a comma or a bracket. -/
def Delimited (s : Str) : Prop := ∃ c ∈ [',', ']', '}'], s.head? = some c

theorem eq_of_append_eq {p : Char → Bool} {a b r s : Str} (ha : ∀ c ∈ a, p c = true)
    (hb : ∀ c ∈ b, p c = true) (hr : ∀ c ∈ r.head?, p c = false) (hs : ∀ c ∈ s.head?, p c = false)
    (h : a ++ r = b ++ s) : a = b ∧ r = s := by
  have htake {a r : Str} (ha : ∀ c ∈ a, p c = true) (hr : ∀ c ∈ r.head?, p c = false) :
      (a ++ r).takeWhile p = a := by
    rw [List.takeWhile_append_of_pos ha]
    cases r with
    | nil => simp
    | cons c r => simp [hr c rfl]
  have hab : a = b := by rw [← htake ha hr, h, htake hb hs]
  subst hab
  exact ⟨rfl, List.append_cancel_left h⟩

theorem not_isWordChar_of_delimited {s : Str} (h : Delimited s) :
    ∀ c ∈ s.head?, isWordChar c = false := by
  obtain ⟨d, hd, hs⟩ := h
  intro c hc
  obtain rfl : d = c := Option.some.inj (hs.symm.trans hc)
  have hall : [',', ']', '}'].all (!isWordChar ·) = true := by decide
  simpa using List.all_eq_true.mp hall d hd

theorem isDigit_of_mem_toDigits {n : Nat} {c : Char} (h : c ∈ Nat.toDigits 10 n) : c.isDigit = true :=
  Nat.isDigit_of_mem_toDigits (by decide) (by decide) h

theorem isWordChar_intRepr (n : Int) : ∀ c ∈ intRepr n, isWordChar c = true := by
  have hdigit : ∀ c : Char, c.isDigit = true → isWordChar c = true := by
    intro c hc
    simp only [Char.isDigit, Bool.and_eq_true, decide_eq_true_eq, UInt32.le_iff_toNat_le] at hc
    have hdigit : isDigit c = true := by
      simp only [isDigit, Bool.and_eq_true, decide_eq_true_eq]
      exact hc
    simp [isWordChar, isAlnum, hdigit]
  intro c hc
  cases n with
  | ofNat n => exact hdigit c (isDigit_of_mem_toDigits hc)
  | negSucc n =>
    cases List.mem_cons.mp hc with
    | inl hc =>
      subst hc
      rfl
    | inr hc => exact hdigit c (isDigit_of_mem_toDigits hc)

theorem toDigits_inj {m n : Nat} (h : Nat.toDigits 10 m = Nat.toDigits 10 n) : m = n := by
  rw [← Nat.ofDigitChars_ten_toDigits (n := m), h, Nat.ofDigitChars_ten_toDigits]

theorem intRepr_inj {m n : Int} (h : intRepr m = intRepr n) : m = n := by
  have hminus {m n : Nat} (h : Nat.toDigits 10 m = '-' :: Nat.toDigits 10 n) : False := by
    have hmem : '-' ∈ Nat.toDigits 10 m := h ▸ List.mem_cons_self
    cases isDigit_of_mem_toDigits hmem
  cases m with
  | ofNat m =>
    cases n with
    | ofNat n => rw [toDigits_inj h]
    | negSucc n => exact (hminus h).elim
  | negSucc m =>
    cases n with
    | ofNat n => exact (hminus h.symm).elim
    | negSucc n =>
      have hsucc := toDigits_inj (List.cons.inj h).2
      rw [Nat.succ.inj hsucc]

/-- A word is no number. -/
theorem ne_intRepr {c : Char} {rest : Str} (hc : c.isDigit = false) (hminus : c ≠ '-') (n : Int) :
    c :: rest ≠ intRepr n := by
  intro h
  cases n with
  | ofNat n =>
    have hmem : c ∈ intRepr (.ofNat n) := h ▸ List.mem_cons_self
    rw [isDigit_of_mem_toDigits hmem] at hc
    cases hc
  | negSucc n => exact hminus (List.cons.inj h).1

def Value.isWord : Value → Bool
  | .null => true
  | .int _ => true
  | _ => false

theorem isWordChar_of_isWord {v : Value} (h : v.isWord = true) :
    ∀ c ∈ dumpsValue v, isWordChar c = true := by
  have hall : [lit "null", lit "true", lit "false"].all (·.all isWordChar) = true := by
    decide +kernel
  have hword (s : Str) (hs : s ∈ [lit "null", lit "true", lit "false"]) :
      ∀ c ∈ s, isWordChar c = true := List.all_eq_true.mp (List.all_eq_true.mp hall s hs)
  cases v with
  | null => exact hword (lit "null") (by simp)
  | int n =>
    cases n with
    | int n => exact isWordChar_intRepr n
    | bool b =>
      cases b with
      | true => exact hword (lit "true") (by simp)
      | false => exact hword (lit "false") (by simp)
  | _ => cases h

/-- A word is followed by what ends it. -/
theorem dumpsValue_ne_of_isWord {v : Value} (h : v.isWord = true) {c : Char} (hc : isWordChar c = false)
    {r s : Str} (hne : r.head? ≠ some c) : dumpsValue v ++ r ≠ c :: s := by
  intro he
  cases hv : dumpsValue v with
  | nil =>
    rw [hv, List.nil_append] at he
    exact hne (he ▸ rfl)
  | cons d rest =>
    rw [hv, List.cons_append] at he
    obtain ⟨rfl, -⟩ := List.cons.inj he
    have hword := isWordChar_of_isWord h d (hv ▸ List.mem_cons_self)
    rw [hc] at hword
    cases hword

theorem eq_of_isWord {v w : Value} (hv : v.isWord = true) (hw : w.isWord = true)
    (h : dumpsValue v = dumpsValue w) : v = w := by
  have hname : ∀ t ∈ [lit "null", lit "true", lit "false"], ∀ n, t ≠ intRepr n := by
    simp only [List.mem_cons, List.not_mem_nil, or_false, lit_def]
    rintro t (rfl | rfl | rfl) n <;> exact ne_intRepr rfl (by decide) n
  cases v with
  | null =>
    cases w with
    | null => rfl
    | int n =>
      cases n with
      | int n => exact absurd h (hname (lit "null") (by simp) n)
      | bool b => cases b <;> simp [dumpsValue, dumpsInt] at h
    | _ => cases hw
  | int m =>
    cases w with
    | null =>
      cases m with
      | int m => exact absurd h.symm (hname (lit "null") (by simp) m)
      | bool b => cases b <;> simp [dumpsValue, dumpsInt] at h
    | int n =>
      cases m with
      | int m =>
        cases n with
        | int n => rw [intRepr_inj h]
        | bool b => cases b <;> exact absurd h.symm (hname _ (by simp [dumpsValue, dumpsInt]) m)
      | bool b =>
        cases n with
        | int n => cases b <;> exact absurd h (hname _ (by simp [dumpsValue, dumpsInt]) n)
        | bool b' => cases b <;> cases b' <;> first | rfl | simp [dumpsValue, dumpsInt] at h
    | _ => cases hw
  | _ => cases hv

/-! ## Sequences -/

theorem joined_cons (x : Str) (xs : List Str) :
    joined (x :: xs) = x ++ xs.flatMap fun y => ',' :: ' ' :: y := by
  unfold joined
  induction xs generalizing x with
  | nil => simp
  | cons y xs ih =>
    rw [List.intercalate_cons_cons, ih, List.flatMap_cons, List.append_assoc]
    rfl

section Sequences

variable {α : Type} {e : α → Str} {close : Char} (hclose : close ∈ [']', '}'])
  (hinj : ∀ a b r s, Delimited r → Delimited s → e a ++ r = e b ++ s → a = b ∧ r = s)

include hclose

theorem delimited_rest (l : List α) (r : Str) :
    Delimited ((l.map e).flatMap (fun y => ',' :: ' ' :: y) ++ close :: r) := by
  cases l with
  | nil => exact ⟨close, by simp at hclose ⊢; tauto, rfl⟩
  | cons a l => exact ⟨',', by simp, rfl⟩

include hinj

/-- The items behind the first one. -/
theorem rest_inj {l m : List α} {r s : Str}
    (h : (l.map e).flatMap (fun y => ',' :: ' ' :: y) ++ close :: r =
      (m.map e).flatMap (fun y => ',' :: ' ' :: y) ++ close :: s) : l = m ∧ r = s := by
  have hcomma : close ≠ ',' := by
    rintro rfl
    simp at hclose
  induction l generalizing m with
  | nil =>
    cases m with
    | nil => exact ⟨rfl, (List.cons.inj h).2⟩
    | cons b m => exact absurd (List.cons.inj h).1 hcomma
  | cons a l ih =>
    cases m with
    | nil => exact absurd (List.cons.inj h).1.symm hcomma
    | cons b m =>
      simp only [List.map_cons, List.flatMap_cons, List.cons_append, List.append_assoc,
        List.cons.injEq, true_and] at h
      obtain ⟨rfl, hrest⟩ := hinj a b _ _ (delimited_rest hclose l r) (delimited_rest hclose m s) h
      obtain ⟨rfl, rfl⟩ := ih hrest
      exact ⟨rfl, rfl⟩

/-- What is joined is read back item by item, if no item begins as the end does. -/
theorem joined_inj (hhead : ∀ a r s, e a ++ r ≠ close :: s) {l m : List α} {r s : Str}
    (h : joined (l.map e) ++ close :: r = joined (m.map e) ++ close :: s) : l = m ∧ r = s := by
  cases l with
  | nil =>
    cases m with
    | nil => exact ⟨rfl, (List.cons.inj h).2⟩
    | cons b m =>
      rw [List.map_cons, joined_cons, List.append_assoc] at h
      exact absurd h.symm (hhead b _ r)
  | cons a l =>
    rw [List.map_cons, joined_cons, List.append_assoc] at h
    cases m with
    | nil => exact absurd h (hhead a _ s)
    | cons b m =>
      rw [List.map_cons, joined_cons, List.append_assoc] at h
      obtain ⟨rfl, hrest⟩ := hinj a b _ _ (delimited_rest hclose l r) (delimited_rest hclose m s) h
      obtain ⟨rfl, rfl⟩ := rest_inj hclose hinj hrest
      exact ⟨rfl, rfl⟩

end Sequences

theorem head?_ne_of_delimited {r : Str} (h : Delimited r) {c : Char} (hc : c ∉ [',', ']', '}']) :
    r.head? ≠ some c := by
  obtain ⟨d, hd, hr⟩ := h
  intro hc'
  obtain rfl : d = c := Option.some.inj (hr.symm.trans hc')
  exact hc hd

theorem dumpsStr_ne {c : Char} (hc : c ≠ '"') (t r s : Str) : dumpsStr t ++ r ≠ c :: s := by
  intro h
  exact hc (List.cons.inj h).1.symm

/-- A value is read back in one way only. -/
theorem dumpsValue_inj {v w : Value} {r s : Str} (hr : Delimited r) (hs : Delimited s)
    (h : dumpsValue v ++ r = dumpsValue w ++ s) : v = w ∧ r = s := by
  have hword {v : Value} (hv : v.isWord = true) {r : Str} (hr : Delimited r) (s : Str) :
      dumpsValue v ++ r ≠ '"' :: s ∧ dumpsValue v ++ r ≠ '[' :: s :=
    ⟨dumpsValue_ne_of_isWord hv rfl (head?_ne_of_delimited hr (by decide)),
      dumpsValue_ne_of_isWord hv rfl (head?_ne_of_delimited hr (by decide))⟩
  by_cases hv : v.isWord = true
  · by_cases hw : w.isWord = true
    · obtain ⟨he, rfl⟩ := eq_of_append_eq (isWordChar_of_isWord hv) (isWordChar_of_isWord hw)
        (not_isWordChar_of_delimited hr) (not_isWordChar_of_delimited hs) h
      exact ⟨eq_of_isWord hv hw he, rfl⟩
    · cases w with
      | str t => exact absurd h (hword hv hr _).1
      | strs items => exact absurd h (hword hv hr _).2
      | _ => exact absurd rfl hw
  · by_cases hw : w.isWord = true
    · cases v with
      | str t => exact absurd h.symm (hword hw hs _).1
      | strs items => exact absurd h.symm (hword hw hs _).2
      | _ => exact absurd rfl hv
    · cases v with
      | str t =>
        cases w with
        | str u =>
          obtain ⟨rfl, rfl⟩ := dumpsStr_inj h
          exact ⟨rfl, rfl⟩
        | strs items => cases (List.cons.inj h).1
        | _ => exact absurd rfl hw
      | strs items =>
        cases w with
        | str u => cases (List.cons.inj h).1
        | strs items' =>
          simp only [dumpsValue, List.cons_append, List.append_assoc, List.nil_append,
            List.cons.injEq, true_and] at h
          obtain ⟨rfl, rfl⟩ := joined_inj (by simp) (fun a b r s _ _ => dumpsStr_inj)
            (dumpsStr_ne (by decide)) h
          exact ⟨rfl, rfl⟩
        | _ => exact absurd rfl hw
      | _ => exact absurd rfl hv

theorem dumpsMember_inj {a b : Str × Value} {r s : Str} (hr : Delimited r) (hs : Delimited s)
    (h : dumpsMember a ++ r = dumpsMember b ++ s) : a = b ∧ r = s := by
  simp only [dumpsMember, List.append_assoc, List.cons_append] at h
  obtain ⟨hkey, hrest⟩ := dumpsStr_inj h
  simp only [List.cons.injEq, true_and] at hrest
  obtain ⟨hvalue, rfl⟩ := dumpsValue_inj hr hs hrest
  exact ⟨Prod.ext hkey hvalue, rfl⟩

/-- An object is read back in one way only. -/
theorem dumpsObject_inj {a b : Members} {r s : Str} (h : dumpsObject a ++ r = dumpsObject b ++ s) :
    a = b ∧ r = s := by
  simp only [dumpsObject, List.cons_append, List.append_assoc, List.nil_append, List.cons.injEq,
    true_and] at h
  refine joined_inj (by simp) (fun a b r s => dumpsMember_inj) ?_ h
  intro a r s
  rw [dumpsMember, List.append_assoc]
  exact dumpsStr_ne (by decide) _ _ _

theorem dumpsObject_ne {c : Char} (hc : c ≠ '{') (members : Members) (r s : Str) :
    dumpsObject members ++ r ≠ c :: s := by
  intro h
  exact hc (List.cons.inj h).1.symm

end MiraDriver.Dumps
