import MiraDriver.Url
import MiraDriver.Base

/-!
# Docker-shaped `env://` addresses

`uri.py`: rendering an address and parsing one. The parser is the source's, over
CPython's URL splitter. The grammar beside it is stated on its own, and the two are
shown to agree on every string, whatever the Unicode tables say.
-/
namespace MiraDriver.Uri

open MiraDriver.Text MiraDriver.Url MiraDriver.Base

def orphans : Str := lit "_orphans"

/-- `fullmatch` of a pattern `^E(?:M{0,n}E)?$`, for character classes E and M; without
a limit the repetition is `M*`. -/
def matchesEdged (edge middle : Char → Bool) (limit : Option Nat) : Str → Bool
  | [] => false
  | c :: rest =>
    edge c && (rest = [] ||
      (rest.dropLast.all middle && rest.getLast?.any edge &&
        limit.all (fun n => rest.dropLast.length ≤ n)))

def isReferenceEdge (c : Char) : Bool := isLower c || isDigit c

def isSegmentChar (c : Char) : Bool := isAlnum c || c = '.' || c = '_' || c = '-'

/-- `_REFERENCE.fullmatch`. -/
def matchesReference : Str → Bool := matchesEdged isReferenceEdge isHostChar none

/-- `_SEGMENT.fullmatch`. -/
def matchesSegment : Str → Bool := matchesEdged isAlnum isSegmentChar (some 126)

def validReference (value : Str) : Bool := value.length ≤ 63 && matchesReference value

def validTargetReference (value : Str) : Bool := validReference value

structure DockerAddress where
  targetReference : Str
  project : Str
  service : Option Str
  container : Option Str
  deriving DecidableEq, Repr

namespace DockerAddress

/-- An optional level of the hierarchy: its keyword and its name. -/
def level (keyword : String) : Option Str → List Str
  | none => []
  | some name => [lit keyword, name]

def segments (a : DockerAddress) : List Str :=
  [lit "docker", lit "project", a.project] ++ level "service" a.service ++
    level "container" a.container

def uri (a : DockerAddress) : Str :=
  lit "env://" ++ a.targetReference ++ '/' :: ['/'].intercalate a.segments

end DockerAddress

def buildDockerUri (targetReference project : Str) (service container : Option Str) : Str :=
  (DockerAddress.mk targetReference project service container).uri

/-- `raise DockerUriInvalid(...)`. -/
def invalid (message : String) : Except Exn DockerAddress :=
  .error (.dockerUriInvalid (lit message))

/-- The address a list of path segments names, by its length and keywords. -/
def addressOf (reference : Str) : List Str → Except Exn DockerAddress
  | root :: kind :: project :: rest =>
    if root = lit "docker" ∧ kind = lit "project" then
      if rest = [] then .ok ⟨reference, project, none, none⟩
      else if project = orphans then
        match rest with
        | [keyword, container] =>
          if keyword = lit "container" then .ok ⟨reference, project, none, some container⟩
          else invalid "orphan address must end with /container/\x7bcontainer\x7d"
        | _ => invalid "orphan address must end with /container/\x7bcontainer\x7d"
      else
        match rest with
        | keyword :: service :: below =>
          if keyword = lit "service" then
            match below with
            | [] => .ok ⟨reference, project, some service, none⟩
            | [keyword, container] =>
              if keyword = lit "container" then
                .ok ⟨reference, project, some service, some container⟩
              else
                invalid "docker service child must be /container/\x7bcontainer\x7d"
            | _ =>
              invalid "docker service child must be /container/\x7bcontainer\x7d"
          else invalid "docker project child must be /service/\x7bservice\x7d"
        | _ => invalid "docker project child must be /service/\x7bservice\x7d"
    else invalid "docker address must start with /docker/project/\x7bproject\x7d"
  | _ => invalid "docker address must start with /docker/project/\x7bproject\x7d"

/-- The segments are checked, read as an address, and rendered back. -/
def parseSegments (value reference : Str) (segments : List Str) : Except Exn DockerAddress :=
  if segments.any (fun s => s ≠ orphans && !matchesSegment s) then
    invalid "address contains an invalid path segment"
  else
    match addressOf reference segments with
    | .error e => .error e
    | .ok address =>
      if address.uri ≠ value then
        invalid "address is not in canonical form"
      else .ok address

/-- What the split URL must not be. -/
def rejected [Python] (parsed : SplitResult) (port : Option Nat) (hostname : Str) : Bool :=
  parsed.scheme ≠ lit "env" || hostname = [] || parsed.username ≠ none ||
    parsed.password ≠ none || port ≠ none || parsed.query ≠ [] || parsed.fragment ≠ [] ||
    parsed.netloc ≠ hostname || !validReference hostname || !(['/'].isPrefixOf parsed.path) ||
    ['/'].isSuffixOf parsed.path

def parseDockerUri [Python] (value : Str) : Except Exn DockerAddress :=
  if value = [] || value.length > 1024 || value.any (fun c => isSpace c || c.toNat < 32) ||
      '%' ∈ value then
    invalid "address is not a canonical env URI"
  else
    match urlsplit value with
    | none => invalid "address is not a canonical env URI"
    | some parsed =>
      match parsed.port, parsed.hostname with
      | some port, some hostname =>
        if rejected parsed port hostname then invalid "address is not a canonical env URI"
        else parseSegments value hostname ((parsed.path.drop 1).splitOn '/')
      | _, _ => invalid "address is not a canonical env URI"

/-- 1 to 63 of a-z, 0-9 and '-', neither starting nor ending with '-'. -/
structure IsReference (s : Str) : Prop where
  nonempty : 1 ≤ s.length
  bounded : s.length ≤ 63
  chars : ∀ c ∈ s, isHostChar c = true
  first : s.head? ≠ some '-'
  last : s.getLast? ≠ some '-'

/-- 1 to 128 characters of A-Z a-z 0-9 . _ - that start and end alphanumeric. -/
structure IsName (s : Str) : Prop where
  nonempty : 1 ≤ s.length
  bounded : s.length ≤ 128
  chars : ∀ c ∈ s, isSegmentChar c = true
  first : ∀ c, s.head? = some c → isAlnum c = true
  last : ∀ c, s.getLast? = some c → isAlnum c = true

def IsSegment (s : Str) : Prop := s = orphans ∨ IsName s

/-- The shapes of address the grammar knows. -/
structure Canonical (a : DockerAddress) : Prop where
  reference : IsReference a.targetReference
  project : IsSegment a.project
  service : ∀ s, a.service = some s → IsSegment s
  container : ∀ c, a.container = some c → IsSegment c
  orphan : a.project = orphans → a.service = none
  child : a.container ≠ none → a.service = none → a.project = orphans

/-- The grammar, as strings. -/
def DockerUri (v : Str) : Prop :=
  ∃ reference, IsReference reference ∧
    ((∃ project, IsSegment project ∧
        v = lit "env://" ++ reference ++ lit "/docker/project/" ++ project) ∨
      (∃ project service, IsSegment project ∧ project ≠ orphans ∧ IsSegment service ∧
        v = lit "env://" ++ reference ++ lit "/docker/project/" ++ project ++
          lit "/service/" ++ service) ∨
      (∃ project service container, IsSegment project ∧ project ≠ orphans ∧ IsSegment service ∧
        IsSegment container ∧
        v = lit "env://" ++ reference ++ lit "/docker/project/" ++ project ++
          lit "/service/" ++ service ++ lit "/container/" ++ container) ∨
      (∃ container, IsSegment container ∧
        v = lit "env://" ++ reference ++ lit "/docker/project/" ++ orphans ++
          lit "/container/" ++ container))

/-- The pattern, read as a condition on the characters, the two ends and the length. -/
theorem matchesEdged_iff (edge middle : Char → Bool) (limit : Option Nat) (s : Str)
    (hem : ∀ c, edge c = true → middle c = true) :
    matchesEdged edge middle limit s = true ↔
      s ≠ [] ∧ (∀ c ∈ s, middle c = true) ∧ (∀ c, s.head? = some c → edge c = true) ∧
        (∀ c, s.getLast? = some c → edge c = true) ∧ ∀ n, limit = some n → s.length ≤ n + 2 := by
  cases s with
  | nil => simp [matchesEdged]
  | cons c rest =>
    rcases List.eq_nil_or_concat rest with rfl | ⟨init, d, rfl⟩
    · simp only [matchesEdged, decide_true, Bool.true_or, Bool.and_true]
      constructor
      · intro h
        simp [h, hem c h]
      · intro h
        exact h.2.2.1 c rfl
    · have hl : (c :: (init ++ [d])).getLast? = some d := by
        rw [← List.cons_append, List.getLast?_concat]
      have hlimit : (limit.all fun n => decide (init.length ≤ n)) = true ↔
          ∀ n, limit = some n → (c :: (init ++ [d])).length ≤ n + 2 := by
        cases limit <;> simp
      simp only [List.concat_eq_append, hl, ← hlimit]
      simp only [matchesEdged, List.append_eq_nil_iff, List.cons_ne_nil, and_false, decide_false,
        Bool.false_or, List.dropLast_concat, List.getLast?_concat, Option.any_some,
        Bool.and_eq_true, List.all_eq_true]
      constructor
      · rintro ⟨hc, ⟨hmid, hd⟩, hlen⟩
        refine ⟨by simp, ?_, by simpa using hc, by simpa using hd, hlen⟩
        intro x hx
        rcases List.mem_cons.mp hx with rfl | hx
        · exact hem _ hc
        rcases List.mem_append.mp hx with hx | hx
        · exact hmid x hx
        · exact hem x (List.mem_singleton.mp hx ▸ hd)
      · rintro ⟨-, hall, hfirst, hlast, hlen⟩
        exact ⟨hfirst c rfl, ⟨fun x hx => hall x (by simp [hx]), hlast d rfl⟩, hlen⟩

theorem isSegmentChar_of_isAlnum (c : Char) (h : isAlnum c = true) : isSegmentChar c = true := by
  simp [isSegmentChar, h]

theorem isHostChar_of_isReferenceEdge (c : Char) (h : isReferenceEdge c = true) :
    isHostChar c = true := by
  simp only [isReferenceEdge, Bool.or_eq_true] at h
  simp [isHostChar, h]

theorem matchesSegment_iff (s : Str) : matchesSegment s = true ↔ IsName s := by
  rw [matchesSegment, matchesEdged_iff _ _ _ _ isSegmentChar_of_isAlnum]
  constructor
  · rintro ⟨hne, hchars, hfirst, hlast, hlen⟩
    exact ⟨List.length_pos_iff.mpr hne, by simpa using hlen 126 rfl, hchars, hfirst, hlast⟩
  · intro h
    refine ⟨List.length_pos_iff.mp h.nonempty, h.chars, h.first, h.last, ?_⟩
    rintro n ⟨⟩
    exact h.bounded

/-- Among the characters of a reference only '-' may not stand at an end. -/
theorem isReferenceEdge_iff (c : Char) (h : isHostChar c = true) :
    isReferenceEdge c = true ↔ c ≠ '-' := by
  constructor
  · rintro hc rfl
    revert hc
    decide
  · intro hc
    simp only [isHostChar, Bool.or_eq_true, decide_eq_true_eq] at h
    simpa [isReferenceEdge, hc] using h

theorem validReference_iff (s : Str) : validReference s = true ↔ IsReference s := by
  have hends : ∀ o : Option Char, (∀ c, o = some c → isHostChar c = true) →
      ((∀ c, o = some c → isReferenceEdge c = true) ↔ o ≠ some '-') := by
    intro o ho
    cases o with
    | none => simp
    | some c => simpa using isReferenceEdge_iff c (ho c rfl)
  rw [validReference, Bool.and_eq_true, decide_eq_true_eq, matchesReference,
    matchesEdged_iff _ _ _ _ isHostChar_of_isReferenceEdge]
  constructor
  · rintro ⟨hlen, hne, hchars, hfirst, hlast, -⟩
    exact ⟨List.length_pos_iff.mpr hne, hlen, hchars,
      (hends _ fun c hc => hchars c (List.mem_of_head? hc)).mp hfirst,
      (hends _ fun c hc => hchars c (List.mem_of_getLast? hc)).mp hlast⟩
  · intro h
    exact ⟨h.bounded, List.length_pos_iff.mp h.nonempty, h.chars,
      (hends _ fun c hc => h.chars c (List.mem_of_head? hc)).mpr h.first,
      (hends _ fun c hc => h.chars c (List.mem_of_getLast? hc)).mpr h.last, by simp⟩

theorem validTargetReference_local : validTargetReference (lit "local") = true := by decide +kernel

/-- Which addresses a list of segments can be read as. -/
theorem addressOf_ok_iff (reference : Str) (segments : List Str) (a : DockerAddress) :
    addressOf reference segments = .ok a ↔
      a.targetReference = reference ∧ a.segments = segments ∧
        (a.project = orphans → a.service = none) ∧
        (a.container ≠ none → a.service = none → a.project = orphans) := by
  constructor
  · intro h
    unfold addressOf at h
    split at h
    case h_2 => simp [invalid] at h
    rename_i root kind project rest
    split at h
    case isFalse => simp [invalid] at h
    rename_i hroot
    obtain ⟨rfl, rfl⟩ := hroot
    split at h
    case isTrue hrest =>
      obtain rfl := Except.ok.inj h
      simp [hrest, DockerAddress.segments, DockerAddress.level]
    split at h
    case isTrue hproject =>
      split at h
      case h_2 => simp [invalid] at h
      split at h
      case isFalse => simp [invalid] at h
      rename_i hkeyword
      obtain rfl := Except.ok.inj h
      simp [hproject, hkeyword, DockerAddress.segments, DockerAddress.level]
    case isFalse hproject =>
      split at h
      case h_2 => simp [invalid] at h
      split at h
      case isFalse => simp [invalid] at h
      rename_i hservice
      split at h
      · obtain rfl := Except.ok.inj h
        simp [hproject, hservice, DockerAddress.segments, DockerAddress.level]
      · split at h
        case isFalse => simp [invalid] at h
        rename_i hkeyword
        obtain rfl := Except.ok.inj h
        simp [hproject, hservice, hkeyword, DockerAddress.segments, DockerAddress.level]
      · simp [invalid] at h
  · rintro ⟨rfl, rfl, horphan, hchild⟩
    obtain ⟨reference, project, service, container⟩ := a
    cases service with
    | none =>
      cases container with
      | none => simp [addressOf, DockerAddress.segments, DockerAddress.level]
      | some container =>
        obtain rfl : project = orphans := hchild (by simp) rfl
        simp [addressOf, DockerAddress.segments, DockerAddress.level]
    | some service =>
      have hne : project ≠ orphans := by
        intro he
        simpa using horphan he
      cases container with
      | none => simp [addressOf, DockerAddress.segments, DockerAddress.level, hne]
      | some container => simp [addressOf, DockerAddress.segments, DockerAddress.level, hne]

theorem isSegment_iff (s : Str) :
    IsSegment s ↔ (s ≠ orphans && !matchesSegment s) = false := by
  simp only [IsSegment, ← matchesSegment_iff, Bool.and_eq_false_iff, decide_eq_false_iff_not,
    not_not, Bool.not_eq_false']

theorem isPathChar_of_isSegmentChar (c : Char) (h : isSegmentChar c = true) :
    isPathChar c = true := by
  simp only [isSegmentChar, isPathChar, Bool.or_eq_true, decide_eq_true_eq] at h ⊢
  tauto

theorem IsSegment.isSegmentChar {s : Str} (h : IsSegment s) :
    ∀ c ∈ s, isSegmentChar c = true := by
  rcases h with rfl | h
  · exact List.all_eq_true.mp (by simp [lit_def]; decide : (lit "_orphans").all Uri.isSegmentChar = true)
  · exact h.chars

theorem IsSegment.length_le {s : Str} (h : IsSegment s) : s.length ≤ 128 := by
  rcases h with rfl | h
  · simp [orphans, lit_def]
  · exact h.bounded

theorem IsSegment.ne_nil {s : Str} (h : IsSegment s) : s ≠ [] := by
  rcases h with rfl | h
  · simp [orphans, lit_def]
  · exact List.length_pos_iff.mp h.nonempty

theorem IsSegment.slash_not_mem {s : Str} (h : IsSegment s) : '/' ∉ s :=
  not_mem_of_class h.isSegmentChar (by decide)

theorem isSegment_keyword (keyword : String)
    (h : keyword ∈ ["docker", "project", "service", "container"]) : IsSegment (lit keyword) := by
  rw [isSegment_iff]
  simp only [List.mem_cons, List.not_mem_nil, or_false] at h
  rcases h with rfl | rfl | rfl | rfl <;> simp only [orphans, lit_def, String.reduceToList] <;> decide

namespace DockerAddress

theorem uri_eq (a : DockerAddress) : a.uri =
    lit "env" ++ ':' :: '/' :: '/' :: (a.targetReference ++ '/' :: ['/'].intercalate a.segments) := by
  have he : lit "env://" = lit "env" ++ [':', '/', '/'] := by simp [lit_def]
  simp [uri, he]

theorem segments_ne_nil (a : DockerAddress) : a.segments ≠ [] := by simp [segments]

theorem isSegment_level {keyword : String}
    (hk : keyword ∈ ["docker", "project", "service", "container"]) {name : Option Str}
    (h : ∀ n, name = some n → IsSegment n) : ∀ s ∈ level keyword name, IsSegment s := by
  cases name with
  | none => simp [level]
  | some n =>
    intro s hs
    simp only [level, List.mem_cons, List.not_mem_nil, or_false] at hs
    rcases hs with rfl | rfl
    · exact isSegment_keyword keyword hk
    · exact h s rfl

theorem level_length_le {keyword : String} (hk : (lit keyword).length ≤ 9) {name : Option Str}
    (h : ∀ n, name = some n → IsSegment n) :
    ((level keyword name).map fun s => s.length + 1).sum ≤ 139 := by
  cases name with
  | none => simp [level]
  | some n =>
    have := (h n rfl).length_le
    simp only [level, List.map_cons, List.map_nil, List.sum_cons, List.sum_nil]
    omega

end DockerAddress

namespace Canonical

variable {a : DockerAddress} (h : Canonical a)

include h

theorem isSegment : ∀ s ∈ a.segments, IsSegment s := by
  intro s hs
  simp only [DockerAddress.segments, List.mem_append, List.mem_cons, List.not_mem_nil,
    or_false] at hs
  rcases hs with ((rfl | rfl | rfl) | hs) | hs
  · exact isSegment_keyword "docker" (by simp)
  · exact isSegment_keyword "project" (by simp)
  · exact h.project
  · exact DockerAddress.isSegment_level (by simp) h.service s hs
  · exact DockerAddress.isSegment_level (by simp) h.container s hs

theorem isPathChar : ∀ c ∈ ['/'].intercalate a.segments, isPathChar c = true := by
  intro c hc
  rcases mem_intercalate hc with hc | ⟨s, hs, hc⟩
  · rw [List.mem_singleton.mp hc]
    decide
  · exact isPathChar_of_isSegmentChar c ((h.isSegment s hs).isSegmentChar c hc)

theorem uri_isPathChar : ∀ c ∈ a.uri, Url.isPathChar c = true ∨ c = ':' := by
  intro c hc
  rw [a.uri_eq] at hc
  simp only [List.mem_append, List.mem_cons] at hc
  rcases hc with hc | rfl | rfl | rfl | hc | rfl | hc
  · exact .inl (List.all_eq_true.mp (by simp [lit_def]; decide : (lit "env").all Url.isPathChar = true) c hc)
  · exact .inr rfl
  · exact .inl (by decide)
  · exact .inl (by decide)
  · exact .inl (isPathChar_of_isHostChar c (h.reference.chars c hc))
  · exact .inl (by decide)
  · exact .inl (h.isPathChar c hc)

/-- The path of an address does not end with a slash. -/
theorem not_slash_suffix :
    ['/'].isSuffixOf ('/' :: ['/'].intercalate a.segments) = false := by
  rw [← Bool.not_eq_true, List.isSuffixOf_iff_suffix]
  rintro ⟨t, ht⟩
  have hne : a.segments.getLast? ≠ none := by simp [DockerAddress.segments_ne_nil]
  obtain ⟨s, hs⟩ := Option.ne_none_iff_exists'.mp hne
  have hsegment := h.isSegment s (List.mem_of_getLast? hs)
  have hlast : (['/'].intercalate a.segments).getLast? = s.getLast? :=
    getLast?_intercalate _ _ s hs hsegment.ne_nil
  have hslash : ('/' :: ['/'].intercalate a.segments).getLast? = some '/' := by simp [← ht]
  rw [List.getLast?_cons, hlast, List.getLast?_eq_getLast_of_ne_nil hsegment.ne_nil] at hslash
  exact hsegment.slash_not_mem (Option.some.inj hslash ▸ List.getLast_mem hsegment.ne_nil)

theorem length_segments_le : ((a.segments).map fun s => s.length + 1).sum ≤ 422 := by
  have hp := h.project.length_le
  have hs := DockerAddress.level_length_le (by simp [lit_def] : (lit "service").length ≤ 9) h.service
  have hc := DockerAddress.level_length_le (by simp [lit_def] : (lit "container").length ≤ 9) h.container
  have hd : (lit "docker").length = 6 ∧ (lit "project").length = 7 := by simp [lit_def]
  simp only [DockerAddress.segments, List.map_append, List.sum_append, List.map_cons, List.map_nil,
    List.sum_cons, List.sum_nil]
  omega

theorem length_le : a.uri.length ≤ 1024 := by
  have hr := h.reference.bounded
  have hi := length_intercalate_le '/' a.segments
  have hs := h.length_segments_le
  have hl : a.uri.length =
      6 + a.targetReference.length + ((['/'].intercalate a.segments).length + 1) := by
    have he : (lit "env://").length = 6 := by simp [lit_def]
    simp only [DockerAddress.uri, List.length_append, List.length_cons, he]
  omega

end Canonical

theorem IsReference.ne_nil {s : Str} (h : IsReference s) : s ≠ [] :=
  List.length_pos_iff.mp h.nonempty

theorem Canonical.addressOf_segments {a : DockerAddress} (h : Canonical a) :
    addressOf a.targetReference a.segments = .ok a :=
  (addressOf_ok_iff _ _ a).mpr ⟨rfl, rfl, h.orphan, h.child⟩

/-- A text of path characters and colons passes the character checks. -/
theorem plain_not_rejected {v : Str} (h : ∀ c ∈ v, isPathChar c = true ∨ c = ':') :
    (v.any (fun c => isSpace c || c.toNat < 32) || '%' ∈ v) = false := by
  have hany : ∀ c ∈ v, (isSpace c || decide (c.toNat < 32)) = false := by
    intro c hc
    have hn : 32 < c.toNat ∧ c.toNat < 128 := by
      rcases h c hc with hc | rfl
      · exact isPathChar_toNat c hc
      · decide
    simp only [isSpace, Bool.or_eq_false_iff, Bool.and_eq_false_iff, decide_eq_false_iff_not]
    omega
  have hpercent : '%' ∉ v := by
    intro hm
    rcases h _ hm with hc | hc
    · revert hc
      decide
    · revert hc
      decide
  simp only [Bool.or_eq_false_iff, decide_eq_false_iff_not]
  exact ⟨List.any_eq_false.mpr fun c hc => by simp [hany c hc], hpercent⟩

/-- What passes the segment checks is an address that renders back. -/
theorem parseSegments_ok_iff (v reference : Str) (segments : List Str) (a : DockerAddress) :
    parseSegments v reference segments = .ok a ↔
      (∀ s ∈ segments, IsSegment s) ∧ addressOf reference segments = .ok a ∧ a.uri = v := by
  have hs : segments.any (fun s => s ≠ orphans && !matchesSegment s) = false ↔
      ∀ s ∈ segments, IsSegment s := by
    rw [List.any_eq_false]
    exact forall₂_congr fun s _ => by rw [isSegment_iff, Bool.not_eq_true]
  unfold parseSegments
  split
  case isTrue h =>
    have hnot : ¬ ∀ s ∈ segments, IsSegment s := by
      rw [← hs, h]
      simp
    simp [invalid, hnot]
  case isFalse h =>
    have hall := hs.mp (Bool.not_eq_true _ ▸ h)
    cases ha : addressOf reference segments with
    | error e => simp
    | ok b =>
      by_cases hb : b.uri = v
      · simp only [hb, ne_eq, not_true_eq_false, ↓reduceIte, Except.ok.injEq]
        exact ⟨fun h => h ▸ ⟨hall, rfl, hb⟩, fun h => h.2.1⟩
      · simp only [hb, ne_eq, not_false_eq_true, ↓reduceIte, invalid, reduceCtorEq, Except.ok.injEq,
          false_iff, not_and]
        rintro - rfl
        exact hb

section Parse

variable [Python]

theorem rejected_eq_false_iff (parsed : SplitResult) (port : Option Nat) (hostname : Str) :
    rejected parsed port hostname = false ↔
      parsed.scheme = lit "env" ∧ hostname ≠ [] ∧ parsed.username = none ∧
        parsed.password = none ∧ port = none ∧ parsed.query = [] ∧ parsed.fragment = [] ∧
        parsed.netloc = hostname ∧ IsReference hostname ∧
        ['/'].isPrefixOf parsed.path = true ∧ ['/'].isSuffixOf parsed.path = false := by
  simp only [rejected, ← validReference_iff, Bool.or_eq_false_iff, decide_eq_false_iff_not, not_not,
    Bool.not_eq_false', ne_eq]
  tauto

/-- What the parser returns is canonical and renders to what was parsed. -/
theorem canonical_of_parse {v : Str} {a : DockerAddress} (h : parseDockerUri v = .ok a) :
    Canonical a ∧ a.uri = v := by
  unfold parseDockerUri at h
  split at h
  case isTrue => simp [invalid] at h
  split at h
  case h_1 => simp [invalid] at h
  rename_i parsed _
  split at h
  case h_2 => simp [invalid] at h
  split at h
  case isTrue => simp [invalid] at h
  rename_i hrejected
  have hreference := ((rejected_eq_false_iff _ _ _).mp (Bool.not_eq_true _ ▸ hrejected)).2.2.2.2.2.2.2.2.1
  obtain ⟨hsegments, haddress, huri⟩ := (parseSegments_ok_iff _ _ _ _).mp h
  obtain ⟨rfl, hsegs, horphan, hchild⟩ := (addressOf_ok_iff _ _ a).mp haddress
  rw [← hsegs] at hsegments
  refine ⟨⟨hreference, ?_, ?_, ?_, horphan, hchild⟩, huri⟩
  · exact hsegments _ (by simp [DockerAddress.segments])
  · exact fun s hs => hsegments s (by simp [DockerAddress.segments, DockerAddress.level, hs])
  · exact fun c hc => hsegments c (by simp [DockerAddress.segments, DockerAddress.level, hc])

/-- The general splitter takes a canonical address apart as it was put together. -/
theorem Canonical.urlsplit_uri {a : DockerAddress} (h : Canonical a) :
    urlsplit a.uri =
      some ⟨lit "env", a.targetReference, '/' :: ['/'].intercalate a.segments, [], []⟩ := by
  rw [a.uri_eq]
  have hscheme : (lit "env").all isLower = true := by simp [lit_def]; decide
  exact urlsplit_plain _ _ _ (by simp [lit_def]) (List.all_eq_true.mp hscheme) h.reference.chars
    h.isPathChar

theorem Canonical.not_rejected {a : DockerAddress} (h : Canonical a) :
    rejected ⟨lit "env", a.targetReference, '/' :: ['/'].intercalate a.segments, [], []⟩ none
      a.targetReference = false := by
  have huser := SplitResult.userinfo_plain
    ⟨lit "env", a.targetReference, '/' :: ['/'].intercalate a.segments, [], []⟩ h.reference.chars
  exact (rejected_eq_false_iff _ _ _).mpr ⟨rfl, h.reference.ne_nil, congrArg Prod.fst huser,
    congrArg Prod.snd huser, rfl, rfl, rfl, rfl, h.reference, rfl, h.not_slash_suffix⟩

theorem Canonical.parse_uri {a : DockerAddress} (h : Canonical a) : parseDockerUri a.uri = .ok a := by
  have hguard : ¬ (a.uri = [] || a.uri.length > 1024 ||
      a.uri.any (fun c => isSpace c || c.toNat < 32) || '%' ∈ a.uri) = true := by
    have hplain := plain_not_rejected h.uri_isPathChar
    rw [Bool.or_eq_false_iff] at hplain
    simp only [hplain.1, hplain.2, Bool.or_false, Bool.or_eq_true, decide_eq_true_eq]
    have hlength := h.length_le
    have hne : a.uri ≠ [] := by simp [DockerAddress.uri]
    simp [hne, hlength]
  have hslash : ∀ s ∈ a.segments, '/' ∉ s := fun s hs => (h.isSegment s hs).slash_not_mem
  unfold parseDockerUri
  rw [if_neg hguard, h.urlsplit_uri]
  simp only [SplitResult.port_plain ⟨_, _, _, _, _⟩ h.reference.chars,
    SplitResult.hostname_plain ⟨_, _, _, _, _⟩ h.reference.chars h.reference.ne_nil, h.not_rejected,
    Bool.false_eq_true, ↓reduceIte, List.drop_succ_cons, List.drop_zero,
    List.splitOn_intercalate '/' hslash a.segments_ne_nil]
  exact (parseSegments_ok_iff _ _ _ _).mpr ⟨h.isSegment, h.addressOf_segments, rfl⟩

/-- The parser accepts a string exactly when a canonical address renders to it. -/
theorem parseDockerUri_ok_iff (v : Str) (a : DockerAddress) :
    parseDockerUri v = .ok a ↔ Canonical a ∧ a.uri = v := by
  constructor
  · exact canonical_of_parse
  · rintro ⟨h, rfl⟩
    exact h.parse_uri

end Parse

/-- No part of the address holds the separator. -/
def DockerAddress.Slashless (a : DockerAddress) : Prop :=
  '/' ∉ a.targetReference ∧ ∀ s ∈ a.segments, '/' ∉ s

theorem Canonical.slashless {a : DockerAddress} (h : Canonical a) : a.Slashless :=
  ⟨not_mem_of_class h.reference.chars (by decide), fun s hs => (h.isSegment s hs).slash_not_mem⟩

/-- Rendering loses nothing as long as no part holds the separator. -/
theorem DockerAddress.Slashless.eq_of_uri_eq {a b : DockerAddress} (ha : a.Slashless)
    (hb : b.Slashless) (h : a.uri = b.uri) : a = b := by
  simp only [DockerAddress.uri, List.append_assoc, List.append_cancel_left_eq] at h
  have hsplit := congrArg (partition '/') h
  rw [partition_append '/' _ _ ha.1, partition_append '/' _ _ hb.1] at hsplit
  simp only [Prod.mk.injEq, Option.some.injEq] at hsplit
  have hsegments : a.segments = b.segments := by
    rw [← List.splitOn_intercalate '/' ha.2 a.segments_ne_nil, hsplit.2,
      List.splitOn_intercalate '/' hb.2 b.segments_ne_nil]
  have hkeyword : lit "service" ≠ lit "container" := by simp
  obtain ⟨reference, project, service, container⟩ := a
  obtain ⟨reference', project', service', container'⟩ := b
  simp only [DockerAddress.segments, DockerAddress.level] at hsegments hsplit
  cases service <;> cases container <;> cases service' <;> cases container' <;>
    simp_all

/-- The grammar lists exactly what canonical addresses render to. -/
theorem dockerUri_iff (v : Str) : DockerUri v ↔ ∃ a, Canonical a ∧ a.uri = v := by
  have hproject : lit "/docker/project/" =
      '/' :: (lit "docker" ++ '/' :: (lit "project" ++ ['/'])) := by simp [lit_def]
  have hservice : lit "/service/" = '/' :: (lit "service" ++ ['/']) := by simp [lit_def]
  have hcontainer : lit "/container/" = '/' :: (lit "container" ++ ['/']) := by simp [lit_def]
  have horphans : IsSegment orphans := .inl rfl
  constructor
  · rintro ⟨r, hr, ⟨p, hp, rfl⟩ | ⟨p, s, hp, hpo, hs, rfl⟩ | ⟨p, s, c, hp, hpo, hs, hc, rfl⟩ |
      ⟨c, hc, rfl⟩⟩
    · refine ⟨⟨r, p, none, none⟩, ⟨hr, hp, by simp, by simp, by simp, by simp⟩, ?_⟩
      simp [DockerAddress.uri, DockerAddress.segments, DockerAddress.level, hproject]
    · refine ⟨⟨r, p, some s, none⟩, ⟨hr, hp, by simpa, by simp, by simp [hpo], by simp⟩, ?_⟩
      simp [DockerAddress.uri, DockerAddress.segments, DockerAddress.level, hproject, hservice]
    · refine ⟨⟨r, p, some s, some c⟩, ⟨hr, hp, by simpa, by simpa, by simp [hpo], by simp⟩, ?_⟩
      simp [DockerAddress.uri, DockerAddress.segments, DockerAddress.level, hproject, hservice,
        hcontainer]
    · refine ⟨⟨r, orphans, none, some c⟩, ⟨hr, horphans, by simp, by simpa, by simp, by simp⟩, ?_⟩
      simp [DockerAddress.uri, DockerAddress.segments, DockerAddress.level, hproject, hcontainer]
  · rintro ⟨⟨r, p, service, container⟩, h, rfl⟩
    refine ⟨r, h.reference, ?_⟩
    cases service with
    | none =>
      cases container with
      | none =>
        refine .inl ⟨p, h.project, ?_⟩
        simp [DockerAddress.uri, DockerAddress.segments, DockerAddress.level, hproject]
      | some c =>
        obtain rfl : p = orphans := h.child (by simp) rfl
        refine .inr (.inr (.inr ⟨c, h.container c rfl, ?_⟩))
        simp [DockerAddress.uri, DockerAddress.segments, DockerAddress.level, hproject, hcontainer]
    | some s =>
      have hpo : p ≠ orphans := fun he => by simpa using h.orphan he
      cases container with
      | none =>
        refine .inr (.inl ⟨p, s, h.project, hpo, h.service s rfl, ?_⟩)
        simp [DockerAddress.uri, DockerAddress.segments, DockerAddress.level, hproject, hservice]
      | some c =>
        refine .inr (.inr (.inl ⟨p, s, c, h.project, hpo, h.service s rfl, h.container c rfl, ?_⟩))
        simp [DockerAddress.uri, DockerAddress.segments, DockerAddress.level, hproject, hservice,
          hcontainer]

theorem addressOf_error {reference : Str} {segments : List Str} {e : Exn}
    (h : addressOf reference segments = .error e) : ∃ m, e = .dockerUriInvalid m := by
  unfold addressOf invalid at h
  repeat' split at h
  all_goals first | exact ⟨_, (Except.error.inj h).symm⟩ | cases h

theorem parseSegments_error {v reference : Str} {segments : List Str} {e : Exn}
    (h : parseSegments v reference segments = .error e) : ∃ m, e = .dockerUriInvalid m := by
  unfold parseSegments at h
  split at h
  · exact ⟨_, (Except.error.inj h).symm⟩
  · cases ha : addressOf reference segments with
    | error e' =>
      rw [ha] at h
      exact addressOf_error (Except.error.inj h ▸ ha)
    | ok a =>
      rw [ha] at h
      simp only [invalid] at h
      split at h
      · exact ⟨_, (Except.error.inj h).symm⟩
      · cases h

/-- The parser raises nothing but `DockerUriInvalid`. -/
theorem parseDockerUri_error [Python] {v : Str} {e : Exn} (h : parseDockerUri v = .error e) :
    ∃ m, e = .dockerUriInvalid m := by
  unfold parseDockerUri at h
  split at h
  · exact ⟨_, (Except.error.inj h).symm⟩
  split at h
  · exact ⟨_, (Except.error.inj h).symm⟩
  split at h
  · split at h
    · exact ⟨_, (Except.error.inj h).symm⟩
    · exact parseSegments_error h
  · exact ⟨_, (Except.error.inj h).symm⟩

/-- The parser accepts exactly the grammar, inverts rendering, and raises
`DockerUriInvalid` on every other string. The address it returns is the only one that
renders to the string and has no slash inside a part. -/
theorem parseDockerUri_grammar [Python] :
    (∀ v, (∃ a, parseDockerUri v = .ok a) ↔ DockerUri v) ∧
    (∀ v a, parseDockerUri v = .ok a →
      Canonical a ∧ a.uri = v ∧ ∀ b : DockerAddress, b.Slashless → b.uri = v → b = a) ∧
    (∀ a, Canonical a → parseDockerUri a.uri = .ok a) ∧
    ∀ v, ¬ DockerUri v → ∃ m, parseDockerUri v = .error (.dockerUriInvalid m) := by
  have haccept : ∀ v, (∃ a, parseDockerUri v = .ok a) ↔ DockerUri v := by
    intro v
    simp only [parseDockerUri_ok_iff, dockerUri_iff]
  refine ⟨haccept, ?_, ?_, ?_⟩
  · intro v a h
    obtain ⟨hcanonical, huri⟩ := canonical_of_parse h
    exact ⟨hcanonical, huri, fun b hb hv => hb.eq_of_uri_eq hcanonical.slashless (hv.trans huri.symm)⟩
  · exact fun a h => h.parse_uri
  · intro v hv
    cases h : parseDockerUri v with
    | ok a => exact absurd ((haccept v).mp ⟨a, h⟩) hv
    | error e =>
      obtain ⟨m, rfl⟩ := parseDockerUri_error h
      exact ⟨m, rfl⟩

/-- Equal addresses split into the same segments, whatever text their parts hold: a
slash inside a part separates segments like any other. -/
theorem flatMap_splitOn_eq_of_uri_eq {a b : DockerAddress} (h : a.uri = b.uri)
    (ha : '/' ∉ a.targetReference) (hb : '/' ∉ b.targetReference) :
    a.targetReference = b.targetReference ∧
      a.segments.flatMap (·.splitOn '/') = b.segments.flatMap (·.splitOn '/') := by
  simp only [DockerAddress.uri, List.append_assoc, List.append_cancel_left_eq] at h
  have hsplit := congrArg (partition '/') h
  rw [partition_append '/' _ _ ha, partition_append '/' _ _ hb] at hsplit
  simp only [Prod.mk.injEq, Option.some.injEq] at hsplit
  refine ⟨hsplit.1, ?_⟩
  rw [← splitOn_intercalate_eq_flatMap '/' _ a.segments_ne_nil, hsplit.2,
    splitOn_intercalate_eq_flatMap '/' _ b.segments_ne_nil]

theorem flatMap_splitOn_of_slashless {segments : List Str} (h : ∀ s ∈ segments, '/' ∉ s) :
    segments.flatMap (·.splitOn '/') = segments := by
  induction segments with
  | nil => rfl
  | cons s rest ih =>
    rw [List.flatMap_cons, List.splitOn_eq_singleton (h s List.mem_cons_self),
      ih fun t ht => h t (List.mem_cons_of_mem s ht), List.singleton_append]

section Splice

variable [Python] {a b : DockerAddress} (h : parseDockerUri a.uri = .ok b)

include h

/-- What is read back are the segments of the text. -/
theorem segments_of_parse (hr : '/' ∉ a.targetReference) :
    b.targetReference = a.targetReference ∧ b.segments = a.segments.flatMap (·.splitOn '/') := by
  obtain ⟨hb, huri⟩ := canonical_of_parse h
  obtain ⟨href, hsegments⟩ := flatMap_splitOn_eq_of_uri_eq huri hb.slashless.1 hr
  rw [flatMap_splitOn_of_slashless hb.slashless.2] at hsegments
  exact ⟨href, hsegments⟩

theorem eq_of_parse_slashless (ha : a.Slashless) : b = a := by
  obtain ⟨hb, huri⟩ := canonical_of_parse h
  exact hb.slashless.eq_of_uri_eq ha huri

/-- When as many segments come back as went in, no part held a slash. -/
theorem slashless_of_length (hr : '/' ∉ a.targetReference)
    (hlen : b.segments.length ≤ a.segments.length) : a.Slashless := by
  obtain ⟨-, hsegments⟩ := segments_of_parse h hr
  have hb := (canonical_of_parse h).1.slashless.2
  refine ⟨hr, fun s hs => ?_⟩
  have hpos : ∀ l : List Str, (l.map fun s => (s.splitOn '/').length).sum ≥ l.length := by
    intro l
    induction l with
    | nil => simp
    | cons t rest ih =>
      have := List.length_pos_iff.mpr (List.splitOn_ne_nil '/' t)
      rw [List.map_cons, List.sum_cons, List.length_cons]
      omega
  have hone : (s.splitOn '/').length = 1 := by
    obtain ⟨l₁, l₂, hl⟩ := List.append_of_mem hs
    have h₁ := hpos l₁
    have h₂ := hpos l₂
    have h₃ := List.length_pos_iff.mpr (List.splitOn_ne_nil '/' s)
    rw [hsegments, List.length_flatMap, hl, List.map_append, List.map_cons, List.sum_append,
      List.sum_cons, List.length_append, List.length_cons] at hlen
    omega
  obtain ⟨t, ht⟩ := List.length_eq_one_iff.mp hone
  have hst : t = s := by
    have hjoin : ['/'].intercalate (s.splitOn '/') = s := List.intercalate_splitOn '/'
    rwa [ht, List.intercalate_singleton] at hjoin
  refine hb s ?_
  rw [hsegments]
  exact List.mem_flatMap.mpr ⟨s, hs, by rw [ht, hst]; exact List.mem_singleton_self s⟩

/-- A project without a slash is read as that project, and what follows it as what follows. -/
theorem levels_of_parse (hr : '/' ∉ a.targetReference) (hp : '/' ∉ a.project) :
    b.project = a.project ∧
      DockerAddress.level "service" b.service ++ DockerAddress.level "container" b.container =
        (DockerAddress.level "service" a.service ++ DockerAddress.level "container" a.container).flatMap
          (·.splitOn '/') := by
  obtain ⟨-, hsegments⟩ := segments_of_parse h hr
  have hhead : ∀ s ∈ [lit "docker", lit "project", a.project], '/' ∉ s := by
    simp [hp, lit_def]
  rw [DockerAddress.segments, DockerAddress.segments, List.append_assoc, List.append_assoc,
    List.flatMap_append, flatMap_splitOn_of_slashless hhead] at hsegments
  simpa using hsegments

/-- A container address is never read as another one, whatever its parts hold. -/
theorem eq_of_parse_container (hr : '/' ∉ a.targetReference) (hc : a.container ≠ none)
    (hs : a.service = none → a.project = orphans) : b = a := by
  obtain ⟨hb, huri⟩ := canonical_of_parse h
  refine eq_of_parse_slashless h (slashless_of_length h hr ?_)
  have horphans : a.project = orphans → b.project = orphans := by
    intro hp
    have hslash : '/' ∉ a.project := hp ▸ IsSegment.slash_not_mem (.inl rfl)
    exact (levels_of_parse h hr hslash).1.trans hp
  obtain ⟨reference, project, service, container⟩ := a
  obtain ⟨name, rfl⟩ := Option.ne_none_iff_exists'.mp hc
  cases service with
  | some service =>
    obtain ⟨_, _, service', container'⟩ := b
    cases service' <;> cases container' <;> simp [DockerAddress.segments, DockerAddress.level]
  | none =>
    have hservice := hb.orphan (horphans (hs rfl))
    obtain ⟨_, _, service', container'⟩ := b
    obtain rfl : service' = none := hservice
    cases container' <;> simp [DockerAddress.segments, DockerAddress.level]

end Splice

end MiraDriver.Uri
