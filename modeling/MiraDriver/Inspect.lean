import MiraDriver.Inventory

/-!
# Describing one container

The inspect document behind `describe`, and the identity check that `describe`,
`logs`, `stats` and `revision` share. The list view and the inspect view of one
container are compared at the end.
-/
namespace MiraDriver.Inspect

open MiraDriver.Text MiraDriver.Mapping MiraDriver.Base MiraDriver.Uri MiraDriver.Document
  MiraDriver.Identity MiraDriver.Inventory

/-- The part of a port binding that is shown. -/
def safeBinding (binding : Json) : Option Str := do
  let binding ← binding.dict?
  let hostIp ← (get binding "HostIp").str?.filter (·.length ≤ 64)
  let hostPort ← (get binding "HostPort").str?.filter (·.length ≤ 16)
  pure (hostIp ++ ':' :: hostPort)

/-- What one port adds. -/
def renderPort (containerPort : Str) (bindings : Json) : List Str :=
  if bindings.isNull then [containerPort]
  else
    match bindings.list? with
    | some bindings =>
      let safeBindings := (bindings.take 16).filterMap safeBinding
      if safeBindings = [] then [containerPort]
      else [containerPort ++ lit " -> " ++ [',', ' '].intercalate safeBindings]
    | none => []

def portLoop (ports : List Str) : List (Str × Json) → List Str
  | [] => ports
  | (containerPort, bindings) :: rest =>
    if containerPort.length > 64 then portLoop ports rest
    else if (ports ++ renderPort containerPort bindings).length ≥ 128 then
      ports ++ renderPort containerPort bindings
    else portLoop (ports ++ renderPort containerPort bindings) rest

/-- `_safe_ports`. The keys of a dictionary are distinct, so sorting its items never
compares two values. -/
def safePorts (value : Json) : List Str :=
  match value.dict? with
  | some ports => portLoop [] (ports.entries.insertionSort (fun a b => a.1 ≤ b.1))
  | none => []

/-- `_safe_networks`. -/
def safeNetworks (value : Json) : List Str :=
  match value.dict? with
  | some networks => (sorted (networks.keys.filter (·.length ≤ 255))).take 64
  | none => []

/-- `_lifecycle_timestamp`. -/
def lifecycleTimestamp (value : Json) : Except Exn (Option Str) := do
  let timestamp ← boundedOptional value 128 "lifecycle timestamp"
  pure (timestamp.filter fun t => !(lit "0001-01-01").isPrefixOf t)

/-- The health status, where there is a health document. -/
def healthOf (value : Json) : Except Exn (Option Str) :=
  match value.dict? with
  | some health => boundedOptional (get health "Status") 64 "health"
  | none => .ok none

theorem assertMatches_ok_iff {a : DockerAddress} {c : Container} :
    assertMatches a c = .ok () ↔ a.project = c.project ∧ a.service = c.service ∧
      (a.container = some c.addressName ∨ a.container = some c.id ∨
        a.container = some (shortId c.id)) := by
  unfold assertMatches
  split
  case isTrue h =>
    simp only [reduceCtorEq, false_iff]
    rintro ⟨hp, hs, hc⟩
    simp [hp, hs, hc] at h
  case isFalse h =>
    simp only [not_or, not_not, List.mem_cons, List.not_mem_nil, or_false, ne_eq] at h
    exact ⟨fun _ => ⟨h.1, h.2.1, by tauto⟩, fun _ => rfl⟩

section Python

variable [Python]

/-- The guard in front of every operation on an address: it parses, and it is this
driver's. -/
def ownAddress (reference uri : Str) : Except Exn DockerAddress :=
  match parseDockerUri uri with
  | .ok address =>
    if address.targetReference ≠ reference then
      .error (.driverOperationInvalid (lit "address does not belong to this driver's target"))
    else .ok address
  | .error (.dockerUriInvalid message) => .error (.driverOperationInvalid message)
  | .error e => .error e

/-- The inspect document and the container in it, once it is the addressed one. -/
def checkedInspect (address : DockerAddress) (document : Json) : Except Exn (Object × Container) := do
  let inspect ← require document.dict? "Docker inspect response must be an object"
  let container ← containerFromInspect inspect
  assertMatches address container
  pure (inspect, container)

/-- `describe` of a container, of the decoded inspect reply. -/
def describeDocument (reference : Str) (address : DockerAddress) (document : Json) :
    Except Exn DriverResourceDetails := do
  let (inspect, container) ← checkedInspect address document
  let state := (get inspect "State").dictOrEmpty
  let networkSettings := (get inspect "NetworkSettings").dictOrEmpty
  let health ← healthOf (get state "Health")
  let createdAt ← boundedOptional (get inspect "Created") 128 "created timestamp"
  let startedAt ← lifecycleTimestamp (get state "StartedAt")
  let finishedAt ← lifecycleTimestamp (get state "FinishedAt")
  pure {
    resource := containerResource reference container
    createdAt
    health
    restartCount := (get inspect "RestartCount").int?.filter (0 ≤ ·.toInt)
    ports := safePorts (get networkSettings "Ports")
    networks := safeNetworks (get networkSettings "Networks")
    exitCode := (get state "ExitCode").plainInt?
    oomKilled := (get state "OOMKilled").bool?
    startedAt
    finishedAt }

theorem ownAddress_ok_iff {reference uri : Str} {a : DockerAddress} :
    ownAddress reference uri = .ok a ↔ Canonical a ∧ a.uri = uri ∧ a.targetReference = reference := by
  unfold ownAddress
  split
  case h_1 b hb =>
    obtain ⟨hcanonical, huri⟩ := canonical_of_parse hb
    by_cases hr : b.targetReference = reference
    · simp only [hr, ne_eq, not_true_eq_false, ↓reduceIte, Except.ok.injEq]
      constructor
      · rintro rfl
        exact ⟨hcanonical, huri, hr⟩
      · rintro ⟨ha, hau, -⟩
        exact hcanonical.slashless.eq_of_uri_eq ha.slashless (huri.trans hau.symm)
    · simp only [ne_eq, hr, not_false_eq_true, ↓reduceIte, reduceCtorEq, false_iff]
      rintro ⟨ha, hau, har⟩
      have he := hcanonical.slashless.eq_of_uri_eq ha.slashless (huri.trans hau.symm)
      exact hr (he ▸ har)
  all_goals
    rename_i he
    simp only [reduceCtorEq, false_iff]
    rintro ⟨ha, hau, -⟩
    rw [(parseDockerUri_ok_iff _ _).mpr ⟨ha, hau⟩] at he
    cases he

theorem checkedInspect_ok_iff {a : DockerAddress} {document : Json} {inspect : Object} {c : Container} :
    checkedInspect a document = .ok (inspect, c) ↔ document.dict? = some inspect ∧
      containerFromInspect inspect = .ok c ∧ assertMatches a c = .ok () := by
  simp only [checkedInspect, bind_ok_iff, require_ok_iff, pure, Except.pure, Except.ok.injEq,
    Prod.mk.injEq]
  constructor
  · rintro ⟨o, ho, d, hd, ⟨⟩, hm, rfl, rfl⟩
    exact ⟨ho, hd, hm⟩
  · rintro ⟨ho, hd, hm⟩
    exact ⟨inspect, ho, c, hd, (), hm, rfl, rfl⟩

/-- The described resource is the container the inspect document is read as. -/
theorem describeDocument_resource {reference : Str} {a : DockerAddress} {document : Json}
    {details : DriverResourceDetails} (h : describeDocument reference a document = .ok details) :
    ∃ inspect c, checkedInspect a document = .ok (inspect, c) ∧
      details.resource = containerResource reference c := by
  simp only [describeDocument, bind_ok_iff] at h
  obtain ⟨⟨inspect, c⟩, hc, health, -, createdAt, -, startedAt, -, finishedAt, -, h⟩ := h
  exact ⟨inspect, c, hc, (congrArg DriverResourceDetails.resource (Except.ok.inj h)).symm⟩

/-! ## The two views of one container -/

omit [Python] in
/-- The labels of an inspect document. -/
def inspectLabelsOf (inspect : Object) : Object := labelsOf (get inspect "Config").dictOrEmpty

omit [Python] in
/-- The name an inspect document is shown under. -/
def inspectDisplayOf (inspect : Object) : Str :=
  displayNameOf (idOf inspect) (removePrefix ['/'] ((get inspect "Name").str?.getD []))

/-- The list entry and the inspect document are of one container: the same ID, the same
labels, and a name that is among those listed. -/
structure SameContainer (entry inspect : Object) : Prop where
  id : get inspect "Id" = get entry "Id"
  labels : ∀ key, get (inspectLabelsOf inspect) key = get (labelsOf entry) key
  name : ∃ name ∈ namesOf entry, get inspect "Name" = .str name

/-- The name makes the segment of the container's address, rather than its short ID. -/
def MakesSegment (entry : Object) (name : Str) : Prop :=
  validContainerAddress (projectOf entry) (serviceOf entry) name = true ∧ name ≠ shortId (idOf entry)

/-- Both views derive one identity, and describing the listed URI by the container's own
inspect document passes the identity check and gives that URI back. -/
structure ViewsAgree (reference : Str) (listed inspected : Container) (document : Json) : Prop where
  project : listed.project = inspected.project
  service : listed.service = inspected.service
  addressName : listed.addressName = inspected.addressName
  describe : ∃ a, ownAddress reference (containerResource reference listed).uri = .ok a ∧
    assertMatches a inspected = .ok () ∧
    ∀ details, describeDocument reference a document = .ok details →
      details.resource.uri = (containerResource reference listed).uri

theorem composeIdentity_congr {l m : Object} (h : ∀ key, get l key = get m key) :
    composeIdentity l = composeIdentity m := by
  simp only [composeIdentity, h]

/-- One container as both of its documents are read. -/
theorem read_of_containerFromInspect {entry inspect : Object} {c d : Container}
    (h : SameContainer entry inspect) (hc : containerFromList entry = .ok c)
    (hd : containerFromInspect inspect = .ok d) : Identified d ∧ d.id = c.id ∧
      d.displayName = inspectDisplayOf inspect ∧ d.project = c.project ∧ d.service = c.service := by
  obtain ⟨id, names, labels, hid, hnames, hlabels, -, hcid, -, hidentity⟩ := containerFromList_ok hc
  obtain ⟨id', rawName, config, labels', hid', hname, hconfig, hlabels', hdi, hdid, hdisplay,
    hidentity'⟩ := containerFromInspect_ok hd
  have hl : labelsOf entry = labels := by rw [labelsOf, Json.dictOrEmpty, hlabels, Option.getD_some]
  have hl' : inspectLabelsOf inspect = labels' := by
    simp [inspectLabelsOf, labelsOf, Json.dictOrEmpty, hconfig, hlabels']
  have hsame := composeIdentity_congr h.labels
  rw [hl, hl', hidentity, hidentity'] at hsame
  obtain ⟨hp, hs⟩ := Prod.mk.inj (Except.ok.inj hsame)
  have hids : id' = id := by
    rw [h.id, hid] at hid'
    exact (Option.some.inj hid').symm
  have hi : idOf inspect = id' := by
    rw [idOf, (Option.mem_filter_iff.mp hid').1, Option.getD_some]
  have hn : (get inspect "Name").str? = some rawName := (Option.mem_filter_iff.mp hname).1
  refine ⟨hdi, by rw [hdid, hcid, hids], ?_, hp, hs⟩
  rw [hdisplay, inspectDisplayOf, hi, hn, Option.getD_some]

/-- The two views agree exactly when no Compose label value holds a slash, and the least
of the listed names is the inspected one, or neither makes the segment. -/
theorem viewsAgree_iff {reference : Str} (hr : validTargetReference reference = true)
    {entry inspect : Object} {c d : Container} {document : Json}
    (h : SameContainer entry inspect) (hc : containerFromList entry = .ok c)
    (hdocument : document.dict? = some inspect) (hd : containerFromInspect inspect = .ok d) :
    ViewsAgree reference c d document ↔ SlashFreeLabels entry ∧
      (displayOf entry = inspectDisplayOf inspect ∨
        (¬ MakesSegment entry (displayOf entry) ∧
          ¬ MakesSegment entry (inspectDisplayOf inspect))) := by
  have href : IsReference reference := (validReference_iff _).mp hr
  obtain ⟨hci, hcid, hcd, hcp, hcs⟩ := read_of_containerFromList hc
  obtain ⟨hdi, hdid, hdd, hdp, hds⟩ := read_of_containerFromInspect h hc hd
  have hname : c.addressName = d.addressName ↔ displayOf entry = inspectDisplayOf inspect ∨
      (¬ MakesSegment entry (displayOf entry) ∧
        ¬ MakesSegment entry (inspectDisplayOf inspect)) := by
    rw [hci.addressName, hdi.addressName, hdp, hds, hdid, hcp, hcs, hcd, hdd, hcid]
    unfold MakesSegment
    split <;> split <;> grind
  rw [← slashFree_iff hc, ← hname]
  constructor
  · intro hagree
    obtain ⟨a, ha, hm, -⟩ := hagree.describe
    obtain ⟨hcanonical, -, -⟩ := ownAddress_ok_iff.mp ha
    obtain ⟨hp, hs, -⟩ := assertMatches_ok_iff.mp hm
    refine ⟨⟨?_, fun s hservice => ?_⟩, hagree.addressName⟩
    · rw [hagree.project, ← hp]
      exact hcanonical.project.slash_not_mem
    · rw [hagree.service, ← hs] at hservice
      exact (hcanonical.service s hservice).slash_not_mem
  · rintro ⟨hfree, haddress⟩
    refine ⟨hdp.symm, hds.symm, haddress, ?_⟩
    have hcanonical := hci.canonical hfree href
    have huri : (containerResource reference d).uri = (containerResource reference c).uri := by
      simp [containerResource, hdp, hds, haddress]
    refine ⟨_, ownAddress_ok_iff.mpr ⟨hcanonical, rfl, rfl⟩,
      assertMatches_ok_iff.mpr ⟨hdp.symm, hds.symm, .inl (by rw [haddress])⟩, ?_⟩
    intro details hdetails
    obtain ⟨inspect', d', hchecked, hresource⟩ := describeDocument_resource hdetails
    obtain ⟨hinspect', hd', -⟩ := checkedInspect_ok_iff.mp hchecked
    obtain rfl : inspect = inspect' := Option.some.inj (hdocument.symm.trans hinspect')
    obtain rfl : d = d' := Except.ok.inj (hd.symm.trans hd')
    rw [hresource, huri]

end Python

/-- A container that another one links to, as Docker lists it. -/
def linkedLabels : Json :=
  .obj [(lit "com.docker.compose.project", .str (lit "shop")),
    (lit "com.docker.compose.service", .str (lit "db"))]

def linkedEntry : Object :=
  Dict.ofList [(lit "Id", .str (lit "0123456789ab")),
    (lit "Names", .arr [.str (lit "/app/db"), .str (lit "/db")]), (lit "Labels", linkedLabels)]

def linkedInspect : List (Str × Json) :=
  [(lit "Id", .str (lit "0123456789ab")), (lit "Name", .str (lit "/db")),
    (lit "Config", .obj [(lit "Labels", linkedLabels)])]

def linkedListed : Container :=
  ⟨lit "0123456789ab", lit "0123456789ab", lit "app/db", lit "shop", some (lit "db"), none, none⟩

def linkedInspected : Container :=
  ⟨lit "0123456789ab", lit "db", lit "db", lit "shop", some (lit "db"), none, none⟩

theorem sameContainer_linked : SameContainer linkedEntry (Dict.ofList linkedInspect) := by
  have hid : get (Dict.ofList linkedInspect) "Id" = get linkedEntry "Id" := by
    simp [Document.get, linkedInspect, linkedEntry, Dict.ofList, Dict.get?_set]
  have hconfig : (get (Dict.ofList linkedInspect) "Config").dictOrEmpty =
      Dict.ofList [(lit "Labels", linkedLabels)] := by
    simp [Document.get, linkedInspect, Dict.ofList, Json.dictOrEmpty, Json.dict?]
  have hlabels : get (Dict.ofList [(lit "Labels", linkedLabels)]) "Labels" = get linkedEntry "Labels" := by
    simp [Document.get, linkedEntry, Dict.ofList]
  refine ⟨hid, fun key => by rw [inspectLabelsOf, hconfig, labelsOf, labelsOf, hlabels],
    lit "/db", by decide +kernel, ?_⟩
  simp [Document.get, linkedInspect, Dict.ofList, Dict.get?_set]

theorem containerFromList_linked :
    @containerFromList Python.ascii linkedEntry = .ok linkedListed := by
  decide +kernel

theorem containerFromInspect_linked :
    @containerFromInspect Python.ascii (Dict.ofList linkedInspect) = .ok linkedInspected := by
  decide +kernel

theorem viewsAgree_iff_linked :
    @ViewsAgree Python.ascii (lit "local") linkedListed linkedInspected (.obj linkedInspect) ↔
      SlashFreeLabels linkedEntry ∧
        (displayOf linkedEntry = inspectDisplayOf (Dict.ofList linkedInspect) ∨
          (¬ @MakesSegment Python.ascii linkedEntry (displayOf linkedEntry) ∧
            ¬ @MakesSegment Python.ascii linkedEntry (inspectDisplayOf (Dict.ofList linkedInspect)))) :=
  @viewsAgree_iff Python.ascii (lit "local") validTargetReference_local linkedEntry
    (Dict.ofList linkedInspect) linkedListed linkedInspected (.obj linkedInspect)
    sameContainer_linked containerFromList_linked rfl containerFromInspect_linked

/-- The least listed name is the link's alias, which fits no address. -/
theorem not_viewsAgree_linked : validTargetReference (lit "local") = true ∧
    SameContainer linkedEntry (Dict.ofList linkedInspect) ∧
    @containerFromList Python.ascii linkedEntry = .ok linkedListed ∧
    @containerFromInspect Python.ascii (Dict.ofList linkedInspect) = .ok linkedInspected ∧
    ¬ @ViewsAgree Python.ascii (lit "local") linkedListed linkedInspected (.obj linkedInspect) := by
  refine ⟨validTargetReference_local, sameContainer_linked, containerFromList_linked,
    containerFromInspect_linked, fun h => ?_⟩
  have hne : linkedListed.addressName ≠ linkedInspected.addressName := by
    simp [linkedListed, linkedInspected, lit_def]
  exact hne (@ViewsAgree.addressName Python.ascii _ _ _ _ h)

end MiraDriver.Inspect
