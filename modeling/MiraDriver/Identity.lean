import MiraDriver.Uri
import MiraDriver.Document

/-!
# A container's identity

How `docker.py` names a container from an entry of the container list and from an
inspect document. Compose labels give project and service. The container's own
segment is its display name where that fits the address grammar, and the first
twelve characters of its ID where it does not. Both are checked by splicing them
into an address and parsing it.
-/
namespace MiraDriver.Identity

open MiraDriver.Text MiraDriver.Mapping MiraDriver.Base MiraDriver.Uri MiraDriver.Document

/-- `_Container`. -/
structure Container where
  id : Str
  addressName : Str
  displayName : Str
  project : Str
  service : Option Str
  state : Option Str
  image : Option Str
  deriving DecidableEq, Repr

def isHexDigit (c : Char) : Bool := isDigit c || ('a'.toNat ≤ c.toNat && c.toNat ≤ 'f'.toNat)

/-- `_CONTAINER_ID.fullmatch`. -/
def matchesContainerId (s : Str) : Bool := 12 ≤ s.length && s.length ≤ 64 && s.all isHexDigit

/-- `container_id[:12]`. -/
def shortId (id : Str) : Str := id.take 12

/-- The candidate address of a project and a service. -/
def composeCandidate (project service : Str) : Str :=
  lit "env://target/docker/project/" ++ project ++ lit "/service/" ++ service

/-- The candidate address of a container. -/
def containerCandidate (project : Str) (service : Option Str) (name : Str) : Str :=
  lit "env://target/docker/project/" ++ project ++
    (match service with
      | some service => lit "/service/" ++ service
      | none => []) ++ lit "/container/" ++ name

section Python

variable [Python]

/-- `_validate_compose_address`. -/
def validateComposeAddress (project service : Str) : Except Exn Unit :=
  match parseDockerUri (composeCandidate project service) with
  | .ok _ => .ok ()
  | .error (.dockerUriInvalid _) =>
    .error (.driverProtocolError
      (lit "Docker Compose labels cannot form a canonical resource address"))
  | .error e => .error e

/-- `_valid_container_address`. -/
def validContainerAddress (project : Str) (service : Option Str) (name : Str) : Bool :=
  match parseDockerUri (containerCandidate project service name) with
  | .ok _ => true
  | .error _ => false

/-- The project and the service that the labels of a container say. -/
def composeIdentity (labels : Object) : Except Exn (Str × Option Str) :=
  let projectValue := get labels "com.docker.compose.project"
  let serviceValue := get labels "com.docker.compose.service"
  if projectValue.isNull && serviceValue.isNull then .ok (orphans, none)
  else
    match projectValue.str?, serviceValue.str? with
    | some project, some service => do
      validateComposeAddress project service
      pure (project, some service)
    | _, _ => .error (.driverProtocolError
        (lit "Docker Compose project/service labels must appear together"))

def displayNameOf (containerId rawName : Str) : Str :=
  if rawName = [] then shortId containerId else rawName

def addressNameOf (project : Str) (service : Option Str) (containerId rawName : Str) : Str :=
  if validContainerAddress project service (displayNameOf containerId rawName) then
    displayNameOf containerId rawName
  else shortId containerId

/-- `_container`. -/
def container (containerId rawName : Str) (labels : Object) (state image : Option Str) :
    Except Exn Container := do
  let identity ← composeIdentity labels
  pure ⟨containerId, addressNameOf identity.1 identity.2 containerId rawName,
    displayNameOf containerId rawName, identity.1, identity.2, state, image⟩

end Python

def containerId? (value : Json) : Option Str := value.str?.filter matchesContainerId

/-- A string of at most 255 characters. -/
def name? (value : Json) : Option Str := value.str?.filter (·.length ≤ 255)

/-- A list of at most 64 such strings. -/
def names? (value : Json) : Option (List Str) :=
  (value.list?.filter (·.length ≤ 64)).bind (·.mapM name?)

/-- The least of the names once slashes in front are gone, or nothing. -/
def rawNameOf (names : List Str) : Str :=
  (sorted ((names.filter (· ≠ [])).map (removePrefix ['/']))).head?.getD []

/-- The status of the `State` object, if it is one. -/
def inspectState (value : Json) : Except Exn (Option Str) :=
  match value.dict? with
  | some state => boundedOptional (get state "Status") 64 "state"
  | none => .ok none

variable [Python]

/-- `_container_from_list`. -/
def containerFromList (document : Object) : Except Exn Container := do
  let id ← require (containerId? (get document "Id")) "Docker container has an invalid ID"
  let names ← require (names? (get document "Names")) "Docker container names are malformed"
  let labels ← require (get document "Labels").dict? "Docker container labels are malformed"
  let state ← boundedOptional (get document "State") 64 "state"
  let image ← boundedOptional (get document "Image") 512 "image"
  container id (rawNameOf names) labels state image

/-- `_container_from_inspect`. -/
def containerFromInspect (document : Object) : Except Exn Container := do
  let id ← require (containerId? (get document "Id")) "Docker container has an invalid ID"
  let rawName ← require (name? (get document "Name")) "Docker container name is malformed"
  let config ← require (get document "Config").dict? "Docker container configuration is malformed"
  let labels ← require (get config "Labels").dict? "Docker container configuration is malformed"
  let state ← inspectState (get document "State")
  let image ← boundedOptional (get config "Image") 512 "image"
  container id (removePrefix ['/'] rawName) labels state image

/-- `_assert_matches`. -/
def assertMatches (address : DockerAddress) (container : Container) : Except Exn Unit :=
  if address.project ≠ container.project ∨ address.service ≠ container.service ∨
      address.container ∉
        [some container.addressName, some container.id, some (shortId container.id)] then
    .error (.driverOperationInvalid
      (lit "container does not belong to the addressed project and service"))
  else .ok ()

omit [Python] in
theorem composeCandidate_eq (project service : Str) : composeCandidate project service =
    DockerAddress.uri ⟨lit "target", project, some service, none⟩ := by
  have hbase : lit "env://target/docker/project/" = lit "env://" ++ (lit "target" ++
      '/' :: (lit "docker" ++ '/' :: (lit "project" ++ ['/']))) := by simp [lit_def]
  have hservice : lit "/service/" = '/' :: (lit "service" ++ ['/']) := by simp [lit_def]
  simp [composeCandidate, DockerAddress.uri, DockerAddress.segments, DockerAddress.level, hbase,
    hservice]

omit [Python] in
theorem containerCandidate_eq (project : Str) (service : Option Str) (name : Str) :
    containerCandidate project service name =
      DockerAddress.uri ⟨lit "target", project, service, some name⟩ := by
  have hbase : lit "env://target/docker/project/" = lit "env://" ++ (lit "target" ++
      '/' :: (lit "docker" ++ '/' :: (lit "project" ++ ['/']))) := by simp [lit_def]
  have hservice : lit "/service/" = '/' :: (lit "service" ++ ['/']) := by simp [lit_def]
  have hcontainer : lit "/container/" = '/' :: (lit "container" ++ ['/']) := by simp [lit_def]
  cases service <;>
    simp [containerCandidate, DockerAddress.uri, DockerAddress.segments, DockerAddress.level, hbase,
      hservice, hcontainer]

omit [Python] in
theorem target_slash_not_mem : '/' ∉ lit "target" := by simp [lit_def]

omit [Python] in
theorem target_isReference : IsReference (lit "target") :=
  (validReference_iff _).mp (by decide +kernel)

theorem validateComposeAddress_ok_iff {project service : Str} :
    validateComposeAddress project service = .ok () ↔
      ∃ a, parseDockerUri (composeCandidate project service) = .ok a := by
  unfold validateComposeAddress
  split <;> simp_all

/-- Spliced into an address, a container's name is accepted only as what it is. -/
theorem validContainerAddress_iff {project : Str} {service : Option Str} {name : Str}
    (h : service = none → project = orphans) :
    validContainerAddress project service name = true ↔
      Canonical ⟨lit "target", project, service, some name⟩ := by
  unfold validContainerAddress
  rw [containerCandidate_eq]
  split
  case h_1 a ha =>
    have he := eq_of_parse_container ha target_slash_not_mem (by simp) h
    simpa [← he] using (canonical_of_parse ha).1
  case h_2 e he =>
    simp only [Bool.false_eq_true, false_iff]
    intro hcanonical
    rw [hcanonical.parse_uri] at he
    cases he

theorem composeIdentity_ok {labels : Object} {project : Str} {service : Option Str}
    (h : composeIdentity labels = .ok (project, service)) :
    (project = orphans ∧ service = none ∧
      (get labels "com.docker.compose.project").isNull = true ∧
      (get labels "com.docker.compose.service").isNull = true) ∨
    ∃ s, service = some s ∧ (get labels "com.docker.compose.project").str? = some project ∧
      (get labels "com.docker.compose.service").str? = some s ∧
      validateComposeAddress project s = .ok () := by
  simp only [composeIdentity] at h
  split at h
  case isTrue hnull =>
    rw [Bool.and_eq_true] at hnull
    simp only [Except.ok.injEq, Prod.mk.injEq] at h
    exact .inl ⟨h.1.symm, h.2.symm, hnull⟩
  case isFalse =>
    split at h
    case h_2 => cases h
    case h_1 p s hp hs =>
      obtain ⟨_, hv, he⟩ := bind_ok_iff.mp h
      obtain ⟨rfl, rfl⟩ := Prod.mk.inj (Except.ok.inj he)
      exact .inr ⟨s, rfl, hp, hs, hv⟩

/-- No Compose label of the container holds a slash. -/
def Container.SlashFree (c : Container) : Prop :=
  '/' ∉ c.project ∧ ∀ s, c.service = some s → '/' ∉ s

/-- What both readers establish of a container. -/
structure Identified (c : Container) : Prop where
  id : matchesContainerId c.id = true
  orphan : c.service = none → c.project = orphans
  accepted : ∀ s, c.service = some s → validateComposeAddress c.project s = .ok ()
  addressName : c.addressName =
    if validContainerAddress c.project c.service c.displayName then c.displayName else shortId c.id

omit [Python] in
theorem shortId_isName {id : Str} (h : matchesContainerId id = true) : IsName (shortId id) := by
  simp only [matchesContainerId, Bool.and_eq_true, decide_eq_true_eq, List.all_eq_true] at h
  have hlen : (shortId id).length = 12 := by
    rw [shortId, List.length_take]
    omega
  have halnum : ∀ c ∈ shortId id, isAlnum c = true := by
    intro c hc
    have hhex := h.2 c (List.mem_of_mem_take hc)
    simp only [isHexDigit, isAlnum, isUpper, isLower, isDigit, Bool.or_eq_true, Bool.and_eq_true,
      decide_eq_true_eq] at hhex ⊢
    have hz : 'f'.toNat ≤ 'z'.toNat := by decide
    omega
  exact ⟨by omega, by omega, fun c hc => isSegmentChar_of_isAlnum c (halnum c hc),
    fun c hc => halnum c (List.mem_of_head? hc), fun c hc => halnum c (List.mem_of_getLast? hc)⟩

namespace Identified

variable {c : Container} (h : Identified c)

include h

theorem valid_iff (name : Str) : validContainerAddress c.project c.service name = true ↔
    Canonical ⟨lit "target", c.project, c.service, some name⟩ := validContainerAddress_iff h.orphan

/-- Labels without slashes name a project and a service. -/
theorem canonical_labels (hs : c.SlashFree) :
    Canonical ⟨lit "target", c.project, c.service, none⟩ := by
  cases hservice : c.service with
  | none =>
    exact ⟨target_isReference, .inl (h.orphan hservice), by simp, by simp, by simp, by simp⟩
  | some s =>
    obtain ⟨a, ha⟩ := validateComposeAddress_ok_iff.mp (h.accepted s hservice)
    rw [composeCandidate_eq] at ha
    have hslashless : DockerAddress.Slashless ⟨lit "target", c.project, some s, none⟩ := by
      refine ⟨target_slash_not_mem, ?_⟩
      have hkeyword : ∀ k ∈ [lit "docker", lit "project", lit "service"], '/' ∉ k := by
        simp [lit_def]
      intro t ht
      simp only [DockerAddress.segments, DockerAddress.level, List.cons_append, List.nil_append,
        List.append_nil, List.mem_cons, List.not_mem_nil, or_false] at ht
      rcases ht with rfl | rfl | rfl | rfl | rfl
      · exact hkeyword _ (by simp)
      · exact hkeyword _ (by simp)
      · exact hs.1
      · exact hkeyword _ (by simp)
      · exact hs.2 _ hservice
    have he := eq_of_parse_slashless ha hslashless
    exact he ▸ (canonical_of_parse ha).1

/-- A name fits beside labels with a slash in no way: the short ID is used. -/
theorem addressName_of_not_slashFree (hs : ¬ c.SlashFree) : c.addressName = shortId c.id := by
  rw [h.addressName, if_neg]
  rw [h.valid_iff]
  intro hcanonical
  refine hs ⟨hcanonical.project.slash_not_mem, fun s hservice => ?_⟩
  exact (hcanonical.service s hservice).slash_not_mem

theorem addressName_isSegment : IsSegment c.addressName := by
  rw [h.addressName]
  split
  case isTrue hv => exact ((h.valid_iff _).mp hv).container _ rfl
  case isFalse => exact .inr (shortId_isName h.id)

/-- The address of a container whose labels hold no slash is canonical. -/
theorem canonical (hs : c.SlashFree) {reference : Str} (hr : IsReference reference) :
    Canonical ⟨reference, c.project, c.service, some c.addressName⟩ := by
  have hlabels := h.canonical_labels hs
  refine ⟨hr, hlabels.project, hlabels.service, ?_, hlabels.orphan, fun _ => h.orphan⟩
  rintro _ ⟨⟩
  exact h.addressName_isSegment

/-- No label puts a container into the project of the unlabelled ones. -/
theorem project_eq_orphans_iff : c.project = orphans ↔ c.service = none := by
  refine ⟨?_, h.orphan⟩
  intro hproject
  cases hservice : c.service with
  | none => rfl
  | some s =>
    obtain ⟨a, ha⟩ := validateComposeAddress_ok_iff.mp (h.accepted s hservice)
    rw [composeCandidate_eq, hproject] at ha
    obtain ⟨haproject, hlevels⟩ := levels_of_parse ha target_slash_not_mem
      (IsSegment.slash_not_mem (.inl rfl))
    have hservice' : a.service = none := (canonical_of_parse ha).1.orphan haproject
    have hkeyword : (lit "service").splitOn '/' = [lit "service"] :=
      List.splitOn_eq_singleton (by simp [lit_def])
    have hne : lit "container" ≠ lit "service" := by simp [lit_def]
    rw [hservice'] at hlevels
    -- The text behind the project begins with another keyword than the address read has.
    cases hcontainer : a.container with
    | none => simp [DockerAddress.level, hcontainer, hkeyword] at hlevels
    | some name => simp [DockerAddress.level, hcontainer, hkeyword, hne] at hlevels

end Identified

/-- A container read from its ID, a name and its labels. -/
theorem container_ok {id rawName : Str} {labels : Object} {state image : Option Str} {c : Container}
    (hid : matchesContainerId id = true) (h : container id rawName labels state image = .ok c) :
    Identified c ∧ c.id = id ∧ c.displayName = displayNameOf id rawName ∧
      composeIdentity labels = .ok (c.project, c.service) := by
  obtain ⟨⟨project, service⟩, hidentity, hc⟩ := bind_ok_iff.mp h
  obtain rfl := Except.ok.inj hc
  refine ⟨⟨hid, ?_, ?_, rfl⟩, rfl, rfl, hidentity⟩
  · rintro rfl
    rcases composeIdentity_ok hidentity with ⟨hp, -⟩ | ⟨s, hs, -⟩
    · exact hp
    · cases hs
  · rintro s rfl
    rcases composeIdentity_ok hidentity with ⟨-, hs, -⟩ | ⟨s, ⟨⟩, -, -, hv⟩
    · cases hs
    · exact hv

omit [Python] in
theorem containerId?_some {value : Json} {id : Str} (h : containerId? value = some id) :
    matchesContainerId id = true := by
  simpa using (Option.mem_filter_iff.mp h).2

/-- What a list entry is read for. -/
theorem containerFromList_ok {document : Object} {c : Container}
    (h : containerFromList document = .ok c) :
    ∃ id names labels, containerId? (get document "Id") = some id ∧
      names? (get document "Names") = some names ∧
      (get document "Labels").dict? = some labels ∧ Identified c ∧ c.id = id ∧
      c.displayName = displayNameOf id (rawNameOf names) ∧
      composeIdentity labels = .ok (c.project, c.service) := by
  simp only [containerFromList, bind_ok_iff, require_ok_iff] at h
  obtain ⟨id, hid, names, hnames, labels, hlabels, state, -, image, -, hc⟩ := h
  obtain ⟨hc, hcid, hname, hidentity⟩ := container_ok (containerId?_some hid) hc
  exact ⟨id, names, labels, hid, hnames, hlabels, hc, hcid, hname, hidentity⟩

/-- What an inspect document is read for. -/
theorem containerFromInspect_ok {document : Object} {c : Container}
    (h : containerFromInspect document = .ok c) :
    ∃ id rawName config labels, containerId? (get document "Id") = some id ∧
      name? (get document "Name") = some rawName ∧ (get document "Config").dict? = some config ∧
      (get config "Labels").dict? = some labels ∧ Identified c ∧ c.id = id ∧
      c.displayName = displayNameOf id (removePrefix ['/'] rawName) ∧
      composeIdentity labels = .ok (c.project, c.service) := by
  simp only [containerFromInspect, bind_ok_iff, require_ok_iff] at h
  obtain ⟨id, hid, rawName, hname, config, hconfig, labels, hlabels, state, -, image, -, hc⟩ := h
  obtain ⟨hc, hcid, hdisplay, hidentity⟩ := container_ok (containerId?_some hid) hc
  exact ⟨id, rawName, config, labels, hid, hname, hconfig, hlabels, hc, hcid, hdisplay, hidentity⟩

end MiraDriver.Identity
