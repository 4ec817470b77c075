import MiraDriver.Text

/-!
# Splitting a URL

CPython's `urllib.parse.urlsplit` and the attributes of its result. `none` stands
for a raised `ValueError`.
-/
namespace MiraDriver.Url

open MiraDriver.Text

structure SplitResult where
  scheme : Str
  netloc : Str
  path : Str
  query : Str
  fragment : Str
  deriving DecidableEq, Repr

/-- The characters stripped in front of a URL: C0 controls and space. -/
def isC0OrSpace (c : Char) : Bool := c.toNat ≤ 32

/-- The characters removed anywhere in a URL. -/
def isUnsafe (c : Char) : Bool := c = '\t' || c = '\r' || c = '\n'

def isSchemeChar (c : Char) : Bool := isAlnum c || c = '+' || c = '-' || c = '.'

/-- The characters of a plain host name. -/
def isHostChar (c : Char) : Bool := isLower c || isDigit c || c = '-'

/-- The characters of a plain path. -/
def isPathChar (c : Char) : Bool := isAlnum c || c = '.' || c = '_' || c = '-' || c = '/'

theorem isPathChar_of_isHostChar (c : Char) (h : isHostChar c = true) : isPathChar c = true := by
  simp only [isHostChar, isPathChar, isAlnum, Bool.or_eq_true, decide_eq_true_eq] at h ⊢
  tauto

theorem isHostChar_of_isLower (c : Char) (h : isLower c = true) : isHostChar c = true := by
  simp [isHostChar, h]

theorem isPathChar_toNat (c : Char) (h : isPathChar c = true) : 32 < c.toNat ∧ c.toNat < 128 := by
  simp only [isPathChar, isAlnum, isUpper, isLower, isDigit, Bool.or_eq_true, Bool.and_eq_true,
    decide_eq_true_eq] at h
  rcases h with ((((((h | h) | h) | h) | h) | h) | h)
  · simp at h; omega
  · simp at h; omega
  · simp at h; omega
  all_goals subst h; decide

/-- Nothing is stripped from or removed in a text of plain characters. -/
theorem strip_plain (s : Str) (h : ∀ c ∈ s, 32 < c.toNat) :
    (s.dropWhile isC0OrSpace).filter (fun c => !isUnsafe c) = s := by
  have hd : s.dropWhile isC0OrSpace = s := by
    cases s with
    | nil => rfl
    | cons c rest =>
      have hc := h c (by simp)
      rw [List.dropWhile_cons_of_neg]
      simp only [isC0OrSpace, decide_eq_true_eq]
      omega
  rw [hd, List.filter_eq_self]
  intro c hc
  have hn := h c hc
  simp only [isUnsafe, Bool.not_eq_true', Bool.or_eq_false_iff, decide_eq_false_iff_not]
  refine ⟨⟨?_, ?_⟩, ?_⟩ <;> (rintro rfl; simp at hn)

theorem lower_plain [Python] (s : Str) (h : ∀ c ∈ s, isHostChar c = true) : lower s = s := by
  have ha : s.all isAscii = true := by
    rw [List.all_eq_true]
    intro c hc
    have := isPathChar_toNat c (isPathChar_of_isHostChar c (h c hc))
    simp only [isAscii, decide_eq_true_eq]
    omega
  rw [lower_of_ascii s ha]
  conv_rhs => rw [← List.map_id s]
  apply List.map_congr_left
  intro c hc
  have hh := h c hc
  simp only [isHostChar, isLower, isDigit, Bool.or_eq_true, Bool.and_eq_true, decide_eq_true_eq] at hh
  have hu : ¬ (c.val ≥ 'A'.val ∧ c.val ≤ 'Z'.val) := by
    rintro ⟨h1, h2⟩
    have h1' : 65 ≤ c.toNat := UInt32.le_iff_toNat_le.mp h1
    have h2' : c.toNat ≤ 90 := UInt32.le_iff_toNat_le.mp h2
    rcases hh with (hh | hh) | rfl
    · simp at hh; omega
    · simp at hh; omega
    · simp at h1'
  exact dif_neg hu

namespace SplitResult

/-- The user name and the password. -/
def userinfo (r : SplitResult) : Option Str × Option Str :=
  match (rpartition '@' r.netloc).1 with
  | none => (none, none)
  | some info => (some (partition ':' info).1, (partition ':' info).2)

/-- The host as written and the port as written; an empty port is none. -/
def hostinfo (r : SplitResult) : Str × Option Str :=
  let host := (rpartition '@' r.netloc).2
  let parts := match (partition '[' host).2 with
    | some bracketed =>
      ((partition ']' bracketed).1, (partition ':' ((partition ']' bracketed).2.getD [])).2)
    | none => partition ':' host
  (parts.1, parts.2.filter (· ≠ []))

def username (r : SplitResult) : Option Str := r.userinfo.1

def password (r : SplitResult) : Option Str := r.userinfo.2

/-- The host in lower case, but for an address zone behind a percent sign. -/
def hostname [Python] (r : SplitResult) : Option Str :=
  let host := r.hostinfo.1
  if host = [] then none
  else
    let parts := partition '%' host
    some (lower parts.1 ++ (parts.2.map ('%' :: ·)).getD [])

/-- The outer none is a `ValueError`: not a number that `int` reads, or out of range. -/
def port (r : SplitResult) : Option (Option Nat) :=
  match r.hostinfo.2 with
  | none => some none
  | some digits =>
    if digits.all isDigit && digits.length ≤ 4300 then
      let n := digits.foldl (fun n c => 10 * n + (c.toNat - '0'.toNat)) 0
      if n ≤ 65535 then some (some n) else none
    else none

variable (r : SplitResult) (h : ∀ c ∈ r.netloc, isHostChar c = true)

include h

theorem userinfo_plain : r.userinfo = (none, none) := by
  simp [userinfo, rpartition_of_not_mem '@' r.netloc (not_mem_of_class h (by decide))]

theorem hostinfo_plain : r.hostinfo = (r.netloc, none) := by
  simp [hostinfo, rpartition_of_not_mem '@' r.netloc (not_mem_of_class h (by decide)),
    partition_of_not_mem '[' r.netloc (not_mem_of_class h (by decide)),
    partition_of_not_mem ':' r.netloc (not_mem_of_class h (by decide))]

theorem port_plain : r.port = some none := by
  simp [port, hostinfo_plain r h]

theorem hostname_plain [Python] (hne : r.netloc ≠ []) : r.hostname = some r.netloc := by
  simp [hostname, hostinfo_plain r h, hne, lower_plain r.netloc h,
    partition_of_not_mem '%' r.netloc (not_mem_of_class h (by decide))]

end SplitResult

/-- The characters that end the network location. -/
def isDelimiter (c : Char) : Bool := c = '/' || c = '?' || c = '#'

def splitNetloc (url : Str) : Str × Str :=
  if ['/', '/'].isPrefixOf url then
    ((url.drop 2).takeWhile (fun c => !isDelimiter c), (url.drop 2).dropWhile (fun c => !isDelimiter c))
  else ([], url)

theorem splitNetloc_plain (host path : Str) (h : ∀ c ∈ host, isHostChar c = true) :
    splitNetloc ('/' :: '/' :: (host ++ '/' :: path)) = (host, '/' :: path) := by
  have hd : ∀ c ∈ host, (!isDelimiter c) = true := by
    intro c hc
    have hh := h c hc
    simp only [isDelimiter, Bool.not_eq_true', Bool.or_eq_false_iff, decide_eq_false_iff_not]
    refine ⟨⟨?_, ?_⟩, ?_⟩ <;> (rintro rfl; revert hh; decide)
  have hpre : ['/', '/'].isPrefixOf ('/' :: '/' :: (host ++ '/' :: path)) = true := by simp
  have ht : (host ++ '/' :: path).takeWhile (fun c => !isDelimiter c) = host := by
    rw [List.takeWhile_append_of_pos hd, List.takeWhile_cons_of_neg (by decide), List.append_nil]
  have hdrop : (host ++ '/' :: path).dropWhile (fun c => !isDelimiter c) = '/' :: path := by
    rw [List.dropWhile_append_of_pos hd, List.dropWhile_cons_of_neg (by decide)]
  simp only [splitNetloc, hpre, ↓reduceIte, List.drop_succ_cons, List.drop_zero, ht, hdrop]

variable [Python]

def splitScheme (url : Str) : Str × Str :=
  match partition ':' url with
  | (head, some rest) =>
    if head.head?.any (fun c => isUpper c || isLower c) && head.all isSchemeChar then
      (lower head, rest)
    else ([], url)
  | (_, none) => ([], url)

/-- Brackets come in pairs and hold an address. -/
def checkBrackets (netloc : Str) : Bool :=
  if '[' ∈ netloc ∨ ']' ∈ netloc then
    decide ('[' ∈ netloc ∧ ']' ∈ netloc) &&
      Python.bracketedHost (partition ']' ((partition '[' netloc).2.getD [])).1
  else true

/-- No character of the network location normalises to a separator. -/
def checkNetloc (netloc : Str) : Bool :=
  netloc.all isAscii ||
    let n := netloc.filter (fun c => c ∉ ['@', ':', '#', '?'])
    Python.nfkc n = n || (Python.nfkc n).all (fun c => c ∉ ['/', '?', '#', '@', ':'])

def urlsplit (value : Str) : Option SplitResult :=
  let url := (value.dropWhile isC0OrSpace).filter (fun c => !isUnsafe c)
  let byScheme := splitScheme url
  let byNetloc := splitNetloc byScheme.2
  if checkBrackets byNetloc.1 && checkNetloc byNetloc.1 then
    let byFragment := partition '#' byNetloc.2
    let byQuery := partition '?' byFragment.1
    some ⟨byScheme.1, byNetloc.1, byQuery.1, byQuery.2.getD [], byFragment.2.getD []⟩
  else none

theorem splitScheme_plain (scheme rest : Str) (hne : scheme ≠ [])
    (h : ∀ c ∈ scheme, isLower c = true) : splitScheme (scheme ++ ':' :: rest) = (scheme, rest) := by
  have hhost : ∀ c ∈ scheme, isHostChar c = true := fun c hc => isHostChar_of_isLower c (h c hc)
  have hcolon : ':' ∉ scheme := not_mem_of_class h (by decide)
  have hall : scheme.all isSchemeChar = true := by
    rw [List.all_eq_true]
    intro c hc
    simp [isSchemeChar, isAlnum, h c hc]
  have hfirst : scheme.head?.any (fun c => isUpper c || isLower c) = true := by
    cases scheme with
    | nil => exact absurd rfl hne
    | cons c cs => simp [h c (by simp)]
  simp [splitScheme, partition_append ':' scheme rest hcolon, hfirst, hall, lower_plain scheme hhost]

theorem checkNetloc_plain (host : Str) (h : ∀ c ∈ host, isHostChar c = true) :
    (checkBrackets host && checkNetloc host) = true := by
  have hopen : '[' ∉ host := not_mem_of_class h (by decide)
  have hclose : ']' ∉ host := not_mem_of_class h (by decide)
  have hascii : host.all isAscii = true := by
    rw [List.all_eq_true]
    intro c hc
    simpa [isAscii] using (isPathChar_toNat c (isPathChar_of_isHostChar c (h c hc))).2
  simp [checkBrackets, checkNetloc, hopen, hclose, hascii]

/-- A URL of a scheme, a plain host and a plain path is split as it reads. -/
theorem urlsplit_plain (scheme host path : Str) (hne : scheme ≠ [])
    (hs : ∀ c ∈ scheme, isLower c = true) (hh : ∀ c ∈ host, isHostChar c = true)
    (hp : ∀ c ∈ path, isPathChar c = true) :
    urlsplit (scheme ++ ':' :: '/' :: '/' :: (host ++ '/' :: path)) =
      some ⟨scheme, host, '/' :: path, [], []⟩ := by
  have hplain : ∀ c ∈ scheme ++ ':' :: '/' :: '/' :: (host ++ '/' :: path), 32 < c.toNat := by
    intro c hc
    simp only [List.mem_append, List.mem_cons] at hc
    rcases hc with hc | rfl | rfl | rfl | hc | rfl | hc
    · exact (isPathChar_toNat c (isPathChar_of_isHostChar c (isHostChar_of_isLower c (hs c hc)))).1
    · decide
    · decide
    · decide
    · exact (isPathChar_toNat c (isPathChar_of_isHostChar c (hh c hc))).1
    · decide
    · exact (isPathChar_toNat c (hp c hc)).1
  have hpath : ∀ c ∈ '/' :: path, isPathChar c = true := by
    intro c hc
    rcases List.mem_cons.mp hc with rfl | hc
    · decide
    · exact hp c hc
  have hsharp := partition_of_not_mem '#' ('/' :: path) (not_mem_of_class hpath (by decide))
  have hquery := partition_of_not_mem '?' ('/' :: path) (not_mem_of_class hpath (by decide))
  simp only [urlsplit, strip_plain _ hplain, splitScheme_plain _ _ hne hs,
    splitNetloc_plain _ _ hh, checkNetloc_plain _ hh, hsharp, hquery, ↓reduceIte, Option.getD_none]

end MiraDriver.Url
