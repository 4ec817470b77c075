import Mathlib.Data.List.SplitBy
import MiraDriver.Harmless

/-!
# Headers from the environment

`OTEL_EXPORTER_OTLP_HEADERS` holds pairs `key=value`, joined by commas, their values
percent-encoded. However they are written, each post is handed to `http.client` with them as they
were meant.
-/
namespace MiraDriver.Headers

open MiraDriver.Text MiraDriver.Mapping MiraDriver.Base MiraDriver.Program MiraDriver.Numerals
  MiraDriver.Admin MiraDriver.Config MiraDriver.BuildReport MiraDriver.Harmless

/-! ## How headers are written -/

/-- A percent-encoding: the characters that are left as they are, and the hexadecimal digits. -/
structure Encoding where
  plain : Char → Bool
  digit : Nat → Char
  plain_ascii : ∀ c, plain c = true → isAscii c = true
  plain_other : ∀ c, plain c = true → c ≠ '%' ∧ c ≠ ',' ∧ isSpace c = false
  digit_hex : ∀ n < 16, isHexDigit (digit n) = true
  digit_value : ∀ n < 16, hexValue (digit n) = n

def Encoding.byte (e : Encoding) (b : UInt8) : Str :=
  ['%', e.digit (b.toNat / 16), e.digit (b.toNat % 16)]

def Encoding.char (e : Encoding) (c : Char) : Str :=
  if e.plain c then [c] else (String.utf8EncodeChar c).flatMap e.byte

/-- `urllib.parse.quote`, for instance. -/
def Encoding.quote (e : Encoding) (s : Str) : Str := s.flatMap e.char

/-- Nothing but white space. -/
def Blank (s : Str) : Prop := ∀ c ∈ s, isSpace c = true

/-- A header, and the white space around its key and its value. -/
structure Field where
  key : Str
  value : Str
  beforeKey : Str
  afterKey : Str
  beforeValue : Str
  afterValue : Str
  key_plain : ',' ∉ key ∧ '=' ∉ key
  key_stripped : strip key = key
  beforeKey_blank : Blank beforeKey
  afterKey_blank : Blank afterKey
  beforeValue_blank : Blank beforeValue
  afterValue_blank : Blank afterValue

namespace Field

def left (f : Field) : Str := f.beforeKey ++ f.key ++ f.afterKey

def right (e : Encoding) (f : Field) : Str := f.beforeValue ++ e.quote f.value ++ f.afterValue

def written (e : Encoding) (f : Field) : Str := f.left ++ '=' :: f.right e

end Field

/-- The value of the variable. -/
def written (e : Encoding) (fields : List Field) : Str := [','].intercalate (fields.map (·.written e))

/-! ## Values -/

namespace Encoding

variable (e : Encoding)

@[simp] theorem quote_nil : e.quote [] = [] := rfl
@[simp] theorem quote_cons (c : Char) (s : Str) : e.quote (c :: s) = e.char c ++ e.quote s := rfl

theorem char_of_plain {c : Char} (h : e.plain c = true) : e.char c = [c] := if_pos h

theorem unquoteBytes_byte (b : UInt8) (rest : Str) : unquoteBytes (e.byte b ++ rest) = b :: unquoteBytes rest := by
  have hb : b.toNat < 256 := b.toNat_lt
  have hhigh : b.toNat / 16 < 16 := by omega
  have hlow : b.toNat % 16 < 16 := by omega
  have hvalue : b.toNat / 16 * 16 + b.toNat % 16 = b.toNat := by omega
  simp only [byte, List.cons_append, List.nil_append, unquoteBytes, e.digit_hex _ hhigh, e.digit_hex _ hlow,
    Bool.and_self, if_true, e.digit_value _ hhigh, e.digit_value _ hlow, hvalue, UInt8.ofNat_toNat]

theorem unquoteBytes_bytes (bytes : List UInt8) (rest : Str) :
    unquoteBytes (bytes.flatMap e.byte ++ rest) = bytes ++ unquoteBytes rest := by
  induction bytes with
  | nil => rfl
  | cons b bytes ih => rw [List.flatMap_cons, List.append_assoc, unquoteBytes_byte, ih, List.cons_append]

theorem unquoteBytes_cons {c : Char} (h : c ≠ '%') (rest : Str) :
    unquoteBytes (c :: rest) = UInt8.ofNat c.toNat :: unquoteBytes rest := by
  rw [unquoteBytes.eq_def]
  split
  · contradiction
  · rename_i heq
    exact absurd (List.cons.inj heq).1 h
  · rename_i heq
    obtain ⟨rfl, rfl⟩ := List.cons.inj heq
    rfl

theorem utf8EncodeChar_of_ascii {c : Char} (h : isAscii c = true) :
    String.utf8EncodeChar c = [UInt8.ofNat c.toNat] := by
  have hc : c.val.toNat ≤ 127 := by
    have : c.toNat < 128 := by simpa [isAscii] using h
    exact Nat.le_of_lt_succ this
  rw [String.utf8EncodeChar, if_pos hc]
  rfl

theorem unquoteBytes_char (c : Char) (rest : Str) :
    unquoteBytes (e.char c ++ rest) = String.utf8EncodeChar c ++ unquoteBytes rest := by
  cases hc : e.plain c with
  | true =>
    rw [e.char_of_plain hc, List.singleton_append, unquoteBytes_cons (e.plain_other c hc).1,
      utf8EncodeChar_of_ascii (e.plain_ascii c hc), List.singleton_append]
  | false =>
    rw [char, hc, if_neg Bool.false_ne_true, unquoteBytes_bytes]

/-- The bytes that a text stands for are those of the text that was encoded. -/
theorem unquoteBytes_quote (s : Str) : unquoteBytes (e.quote s) = Utf8.encode s := by
  induction s with
  | nil => rfl
  | cons c s ih => rw [quote_cons, unquoteBytes_char, ih, Utf8.encode_cons]

/-- What a percent-encoded text may consist of. -/
def Sober (c : Char) : Prop := isAscii c = true ∧ c ≠ ',' ∧ isSpace c = false

theorem sober_of_isHexDigit {c : Char} (h : isHexDigit c = true) : Sober c := by
  simp only [isHexDigit, isDigit, Bool.or_eq_true, Bool.and_eq_true, decide_eq_true_eq, Char.le_def,
    UInt32.le_iff_toNat_le] at h
  have hc : 48 ≤ c.toNat ∧ c.toNat < 128 ∧ (c.toNat < 58 ∨ 65 ≤ c.toNat) := by
    have hv : c.val.toNat = c.toNat := rfl
    rw [hv] at h
    rcases h with ((⟨h₁, h₂⟩ | ⟨h₁, h₂⟩) | ⟨h₁, h₂⟩) <;> simp at h₁ h₂ <;> omega
  refine ⟨by simpa [isAscii] using hc.2.1, ?_, ?_⟩
  · rintro rfl
    simp at hc
  · simp only [isSpace, Bool.or_eq_false_iff, Bool.and_eq_false_iff, decide_eq_false_iff_not]
    omega

theorem sober_percent : Sober '%' := ⟨rfl, by decide, rfl⟩

theorem sober_byte (b : UInt8) : ∀ c ∈ e.byte b, Sober c := by
  have hb : b.toNat < 256 := b.toNat_lt
  intro c hc
  simp only [byte, List.mem_cons, List.not_mem_nil, or_false] at hc
  rcases hc with rfl | rfl | rfl
  · exact sober_percent
  · exact sober_of_isHexDigit (e.digit_hex _ (by omega))
  · exact sober_of_isHexDigit (e.digit_hex _ (by omega))

theorem sober_quote (s : Str) : ∀ c ∈ e.quote s, Sober c := by
  intro c hc
  obtain ⟨d, -, hd⟩ := List.mem_flatMap.mp hc
  cases hplain : e.plain d with
  | true =>
    rw [e.char_of_plain hplain, List.mem_singleton] at hd
    subst hd
    exact ⟨e.plain_ascii c hplain, (e.plain_other c hplain).2⟩
  | false =>
    rw [char, hplain, if_neg Bool.false_ne_true] at hd
    obtain ⟨b, -, hb⟩ := List.mem_flatMap.mp hd
    exact e.sober_byte b c hb

/-- Without a percent sign nothing was encoded. -/
theorem quote_of_not_mem {s : Str} (h : '%' ∉ e.quote s) : e.quote s = s := by
  induction s with
  | nil => rfl
  | cons c s ih =>
    rw [quote_cons, List.mem_append, not_or] at h
    cases hplain : e.plain c with
    | true => rw [quote_cons, ih h.2, e.char_of_plain hplain, List.singleton_append]
    | false =>
      refine absurd ?_ h.1
      obtain ⟨b, tail, hbytes, -⟩ := Utf8.first_utf8EncodeChar c
      rw [char, hplain, if_neg Bool.false_ne_true, hbytes, List.flatMap_cons]
      exact List.mem_append_left _ List.mem_cons_self

/-- A text of ASCII characters is one run. -/
theorem splitBy_ascii {s : Str} (hne : s ≠ []) (h : ∀ c ∈ s, isAscii c = true) :
    s.splitBy (fun a b => isAscii a = isAscii b) = [s] := by
  apply List.splitBy_of_isChain hne
  apply List.Pairwise.isChain
  apply List.pairwise_of_forall_mem_list
  intro a ha b hb
  rw [decide_eq_true_eq, h a ha, h b hb]

/-- What was encoded is read back. -/
theorem unquote_quote (s : Str) : unquote (e.quote s) = s := by
  unfold unquote
  split
  · rename_i hpercent
    have hascii : ∀ c ∈ e.quote s, isAscii c = true := fun c hc => (e.sober_quote s c hc).1
    rw [splitBy_ascii (List.ne_nil_of_mem hpercent) hascii, List.flatMap_singleton,
      if_pos (List.all_eq_true.mpr hascii), unquoteBytes_quote, Utf8.decode_encode]
  · rename_i hpercent
    exact e.quote_of_not_mem hpercent

end Encoding

/-! ## White space -/

section Blank

variable {a b s : Str}

theorem blank_nil : Blank [] := fun _ h => nomatch h

theorem blank_space : Blank [' '] := by
  intro c hc
  rw [List.mem_singleton.mp hc]
  rfl

theorem dropWhile_blank (h : Blank a) (s : Str) : (a ++ s).dropWhile isSpace = s.dropWhile isSpace :=
  List.dropWhile_append_of_pos h

/-- A text that is stripped begins with no white space. -/
theorem dropWhile_of_stripped (h : strip s = s) : s.dropWhile isSpace = s := by
  have hlen : s.length ≤ (s.dropWhile isSpace).length := by
    calc s.length = (strip s).length := by rw [h]
      _ ≤ (s.dropWhile isSpace).length := by
        rw [strip, List.length_reverse]
        refine (List.dropWhile_suffix _).length_le.trans ?_
        rw [List.length_reverse]
  exact (List.dropWhile_suffix _).eq_of_length_le hlen

theorem dropWhile_padded (hb : Blank b) (h : strip s = s) :
    ∃ b', Blank b' ∧ (s ++ b).dropWhile isSpace = s ++ b' := by
  rw [List.dropWhile_append, dropWhile_of_stripped h]
  split
  · rename_i hs
    obtain rfl := List.isEmpty_iff.mp hs
    exact ⟨[], blank_nil, List.dropWhile_eq_nil_iff.mpr hb⟩
  · exact ⟨b, hb, rfl⟩

theorem strip_padded (ha : Blank a) (hb : Blank b) (h : strip s = s) : strip (a ++ s ++ b) = s := by
  obtain ⟨b', hb', hdrop⟩ := dropWhile_padded hb h
  have hreverse : (s.reverse.dropWhile isSpace).reverse = s := by
    simpa only [strip, dropWhile_of_stripped h] using h
  have hblank : Blank b'.reverse := fun c hc => hb' c (List.mem_reverse.mp hc)
  rw [strip, List.append_assoc, dropWhile_blank ha, hdrop, List.reverse_append, dropWhile_blank hblank, hreverse]

theorem dropWhile_append_cons {c : Char} (hc : isSpace c = false) (s t : Str) :
    (s ++ c :: t).dropWhile isSpace = s.dropWhile isSpace ++ c :: t := by
  rw [List.dropWhile_append]
  split
  · rename_i hs
    rw [List.isEmpty_iff.mp hs, List.dropWhile_cons_of_neg (by rw [hc]; exact Bool.false_ne_true), List.nil_append]
  · rfl

/-- Around a character that stays, each side is stripped by itself. -/
theorem strip_append_cons {c : Char} (hc : isSpace c = false) (s t : Str) :
    strip (s ++ c :: t) = s.dropWhile isSpace ++ c :: (t.reverse.dropWhile isSpace).reverse := by
  rw [strip, dropWhile_append_cons hc, List.reverse_append, List.reverse_cons, List.append_assoc,
    List.singleton_append, dropWhile_append_cons hc]
  simp

theorem strip_of_no_space (h : ∀ c ∈ s, isSpace c = false) : strip s = s := by
  have hdrop (t : Str) (ht : ∀ c ∈ t, isSpace c = false) : t.dropWhile isSpace = t := by
    cases t with
    | nil => rfl
    | cons c t =>
      rw [List.dropWhile_cons_of_neg]
      rw [ht c List.mem_cons_self]
      exact Bool.false_ne_true
  rw [strip, hdrop s h, hdrop s.reverse (fun c hc => h c (List.mem_reverse.mp hc)), List.reverse_reverse]

theorem not_mem_blank (h : Blank s) {c : Char} (hc : isSpace c = false) : c ∉ s := by
  intro hm
  rw [h c hm] at hc
  cases hc

end Blank

/-! ## Pairs -/

namespace Field

variable (e : Encoding) (f : Field)

theorem strip_quote : strip (e.quote f.value) = e.quote f.value :=
  strip_of_no_space fun c hc => (e.sober_quote f.value c hc).2.2

theorem comma_not_mem : ',' ∉ f.written e := by
  have hquote : ',' ∉ e.quote f.value := fun h => (e.sober_quote f.value ',' h).2.1 rfl
  simp [written, left, right, f.key_plain.1, hquote, not_mem_blank f.beforeKey_blank, not_mem_blank f.afterKey_blank,
    not_mem_blank f.beforeValue_blank, not_mem_blank f.afterValue_blank, isSpace]

theorem equals_not_mem {b : Str} (hb : Blank b) : '=' ∉ f.key ++ b := by
  simp [f.key_plain.2, not_mem_blank hb (c := '=') rfl]

theorem strip_reverse_quote : strip (e.quote f.value).reverse = (e.quote f.value).reverse :=
  strip_of_no_space fun c hc => (e.sober_quote f.value c (List.mem_reverse.mp hc)).2.2

/-- A pair is split at its first equals sign. -/
theorem partition_written : ∃ left right, partition '=' (strip (f.written e)) = (left, some right) ∧
    strip left = f.key ∧ unquote (strip right) = f.value := by
  obtain ⟨b, hb, hleft⟩ := dropWhile_padded f.afterKey_blank f.key_stripped
  have hafter : Blank f.afterValue.reverse := fun c hc => f.afterValue_blank c (List.mem_reverse.mp hc)
  have hbefore : Blank f.beforeValue.reverse := fun c hc => f.beforeValue_blank c (List.mem_reverse.mp hc)
  obtain ⟨a, ha, hright⟩ := dropWhile_padded hbefore (f.strip_reverse_quote e)
  have hstrip : strip (f.written e) = (f.key ++ b) ++ '=' :: (a.reverse ++ e.quote f.value) := by
    rw [written, strip_append_cons rfl, left, List.append_assoc, dropWhile_blank f.beforeKey_blank, hleft, right,
      List.reverse_append, List.reverse_append, dropWhile_blank hafter, hright, List.reverse_append,
      List.reverse_reverse]
  have hequals : '=' ∉ f.key ++ b := f.equals_not_mem hb
  refine ⟨_, _, by rw [hstrip, partition_append _ _ _ hequals], ?_, ?_⟩
  · exact strip_padded (a := []) blank_nil hb f.key_stripped
  · have hblank : Blank a.reverse := fun c hc => ha c (List.mem_reverse.mp hc)
    have hvalue := strip_padded hblank blank_nil (f.strip_quote e)
    rw [List.append_nil] at hvalue
    rw [hvalue, e.unquote_quote]

end Field

theorem splitOn_written (e : Encoding) {fields : List Field} (h : fields ≠ []) :
    (written e fields).splitOn ',' = fields.map (·.written e) := by
  rw [written, splitOn_intercalate_eq_flatMap ',' _ (by simpa using h), List.flatMap_map, List.map_eq_flatMap]
  apply List.flatMap_congr
  intro f hf
  exact List.splitOn_eq_singleton (f.comma_not_mem e)

/-- What is written is read back; of two headers of one name the later counts. -/
theorem otlpHeaders_written (e : Encoding) (fields : List Field) :
    otlpHeaders (written e fields) = Dict.ofList (fields.map fun f => (f.key, f.value)) := by
  cases fields with
  | nil => rfl
  | cons f fields =>
    rw [otlpHeaders, splitOn_written e (List.cons_ne_nil f fields), List.foldl_map, Dict.ofList, List.foldl_map]
    congr 1
    funext headers f
    obtain ⟨left, right, hpartition, hleft, hright⟩ := f.partition_written e
    rw [hpartition]
    simp only [hleft, hright]

/-! ## Posts -/

section Update

variable {d e : Dict Str Str} {k v : Str}

/-- What a dictionary is updated with is found in it. -/
theorem get?_update (h : e.get? k = some v) : (update d e.entries).get? k = some v := by
  obtain ⟨before, after, hentries⟩ := List.append_of_mem ((Dict.get?_eq_some_iff e k v).mp h)
  have hnodup := e.nodup
  rw [hentries, List.map_append, List.map_cons, List.nodup_append] at hnodup
  have hafter : k ∉ after.map Prod.fst := (List.nodup_cons.mp hnodup.2.1).1
  rw [update, hentries, List.foldl_append, List.foldl_cons, Dict.get?_foldl_set_of_not_mem k after _ hafter,
    Dict.get?_set_self]

/-- Of pairs with distinct keys none is made up. -/
theorem mem_of_get?_ofList {l : List (Str × Str)} (hl : (l.map Prod.fst).Nodup) (h : (Dict.ofList l).get? k = some v) :
    (k, v) ∈ l := by
  have hkey : k ∈ (Dict.ofList l).keys := List.mem_map_of_mem ((Dict.get?_eq_some_iff _ k v).mp h)
  rw [Dict.mem_keys_ofList] at hkey
  obtain ⟨⟨j, w⟩, hmem, rfl⟩ := List.mem_map.mp hkey
  rw [Dict.get?_ofList_eq_some j w l hl hmem] at h
  obtain rfl := Option.some.inj h
  exact hmem

/-- Of the pairs of one key the last counts. -/
theorem get?_ofList_append_cons {before after : List (Str × Str)} (h : k ∉ after.map Prod.fst) :
    (Dict.ofList (before ++ (k, v) :: after)).get? k = some v := by
  rw [Dict.ofList, List.foldl_append, List.foldl_cons, Dict.get?_foldl_set_of_not_mem k after _ h, Dict.get?_set_self]

end Update

section Posts

variable [Python] [Digits] [Script] [FloatRepr]

/-- The headers of a post that nothing was said about. -/
def ownHeaders (post : Post) : List (Str × Str) :=
  [(lit "Content-Type", lit "application/json"), (lit "Content-Length", (Nat.repr post.content.length).toList)]

/-- A post is made with each header once: as it was written last, or its own. -/
structure Carries (fields : List Field) (post : Post) : Prop where
  distinct : (post.headers.map Prod.fst).Nodup
  written : ∀ before f after, fields = before ++ f :: after → f.key ∉ after.map Field.key →
    (f.key, f.value) ∈ post.headers
  own : ∀ header ∈ ownHeaders post, header.1 ∉ fields.map Field.key → header ∈ post.headers
  others : ∀ header ∈ post.headers, header.1 ∉ fields.map Field.key → header ∈ ownHeaders post

def CarriesAll (fields : List Field) (t : List (Exchange world)) : Prop :=
  ∀ x ∈ t, ∀ post, x.1 = .post post → Carries fields post

omit [Digits] [Script] in
theorem headers_of_postOf {baseUrl path : Str} {headers : Dict Str Str} {body : Body} {post : Post}
    (h : postOf baseUrl path headers body = .ok post) :
    post.headers = (update (Dict.ofList (ownHeaders post)) headers.entries).entries := by
  unfold postOf at h
  split at h
  · cases h
  · split at h
    · cases h
    · obtain rfl := Except.ok.inj h
      rfl

omit [Digits] [Script] in
theorem carries_of_postOf {e : Encoding} {fields : List Field} {baseUrl path : Str} {body : Body} {post : Post}
    (h : postOf baseUrl path (otlpHeaders (written e fields)) body = .ok post) : Carries fields post := by
  have hheaders := headers_of_postOf h
  rw [otlpHeaders_written] at hheaders
  have hown : ((ownHeaders post).map Prod.fst).Nodup := by
    simp [ownHeaders]
  have hother {k : Str} (hk : k ∉ fields.map Field.key) :
      (update (Dict.ofList (ownHeaders post)) (Dict.ofList (fields.map fun f => (f.key, f.value))).entries).get? k =
        (Dict.ofList (ownHeaders post)).get? k := by
    apply Dict.get?_foldl_set_of_not_mem
    change k ∉ Dict.keys _
    rw [Dict.mem_keys_ofList, List.map_map]
    exact hk
  refine ⟨?_, ?_, ?_, ?_⟩
  · rw [hheaders]
    apply Dict.nodup
  · intro before f after hfields hlast
    rw [hheaders, ← Dict.get?_eq_some_iff]
    apply get?_update
    rw [hfields, List.map_append, List.map_cons]
    apply get?_ofList_append_cons
    rw [List.map_map]
    exact hlast
  · rintro ⟨k, v⟩ hheader hk
    rw [hheaders, ← Dict.get?_eq_some_iff, hother hk]
    exact Dict.get?_ofList_eq_some k v _ hown hheader
  · rintro ⟨k, v⟩ hheader hk
    rw [hheaders, ← Dict.get?_eq_some_iff, hother hk] at hheader
    exact mem_of_get?_ofList hown hheader

/-- Every post of the script is made with the headers that were written. -/
theorem script_carries {environ : Dict Str Str} {e : Encoding} {fields : List Field}
    (hfields : getenv environ "OTEL_EXPORTER_OTLP_HEADERS" = some (written e fields))
    {t : List (Exchange world)} {r : Except Exn Nat} (h : (script environ).Exec t r) : CarriesAll fields t := by
  intro x hx post hpost
  have hpermitted := (permitted_script environ).of_exec h x hx
  rw [hpost] at hpermitted
  obtain ⟨path, -, body, hbody⟩ := hpermitted
  have hraw : getenvOr environ "OTEL_EXPORTER_OTLP_HEADERS" = written e fields := by
    rw [getenvOr, hfields, Option.getD_some]
  rw [hraw] at hbody
  exact carries_of_postOf hbody

end Posts

/-! ## A token -/

theorem isAlnum_toNat {c : Char} (h : isAlnum c = true) : 32 < c.toNat ∧ c.toNat < 128 :=
  Url.isPathChar_toNat c (by simp [Url.isPathChar, h])

theorem isAlnum_ascii (c : Char) (h : isAlnum c = true) : isAscii c = true := by
  simpa [isAscii] using (isAlnum_toNat h).2

theorem isAlnum_other (c : Char) (h : isAlnum c = true) : c ≠ '%' ∧ c ≠ ',' ∧ isSpace c = false := by
  have hc := isAlnum_toNat h
  refine ⟨?_, ?_, ?_⟩
  · rintro rfl
    cases h
  · rintro rfl
    cases h
  · simp only [isSpace, Bool.or_eq_false_iff, Bool.and_eq_false_iff, decide_eq_false_iff_not]
    omega

theorem digitChar_hex : ∀ n < 16, isHexDigit (Nat.digitChar n) = true := by decide

theorem digitChar_value : ∀ n < 16, hexValue (Nat.digitChar n) = n := by decide

/-- Everything but letters and digits is percent-encoded. -/
def Encoding.strict : Encoding where
  plain := isAlnum
  digit := Nat.digitChar
  plain_ascii := isAlnum_ascii
  plain_other := isAlnum_other
  digit_hex := digitChar_hex
  digit_value := digitChar_value

theorem authorization_plain : ',' ∉ lit "Authorization" ∧ '=' ∉ lit "Authorization" := by simp [lit_def]

theorem authorization_stripped : strip (lit "Authorization") = lit "Authorization" := by decide +kernel

def authorization : Field where
  key := lit "Authorization"
  value := lit "Bearer a,b"
  beforeKey := []
  afterKey := [' ']
  beforeValue := [' ']
  afterValue := []
  key_plain := authorization_plain
  key_stripped := authorization_stripped
  beforeKey_blank := blank_nil
  afterKey_blank := blank_space
  beforeValue_blank := blank_space
  afterValue_blank := blank_nil

def authorized : Dict Str Str :=
  (buildEnviron "sha-1" "1").set (lit "OTEL_EXPORTER_OTLP_HEADERS") (written .strict [authorization])

/-- The token, as both posts are made with it. -/
theorem script_carries_authorized :
    (posts (reportOn (.ok 200) authorized).2.1).map (fun post => post.headers.drop 2) =
        [[(lit "Authorization", lit "Bearer a,b")], [(lit "Authorization", lit "Bearer a,b")]] ∧
      CarriesAll [authorization] (reportOn (.ok 200) authorized).2.1 :=
  ⟨by decide +kernel, @script_carries Python.ascii Digits.ascii Script.single FloatRepr.hundredths authorized .strict
    [authorization] (Dict.get?_set_self _ _ _) _ _ (exec_reportOn _ _)⟩

end MiraDriver.Headers
