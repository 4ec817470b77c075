import MiraDriver.Identity

/-!
# The inventory and its three views

`query` reads one container list and shows it as containers, as services, or as
projects. Containers keep the order of the list; services and projects come in the
order in which they first occur.
-/
namespace MiraDriver.Inventory

open MiraDriver.Text MiraDriver.Mapping MiraDriver.Base MiraDriver.Uri MiraDriver.Document
  MiraDriver.Identity

def maxContainers : Nat := 10000

/-- `_container_resource`. -/
def containerResource (reference : Str) (c : Container) : DriverResource :=
  ⟨buildDockerUri reference c.project c.service (some c.addressName), .container, c.displayName,
    some c.project, c.service, c.state, c.image, none⟩

/-- `_aggregate`: the one value there is, if there is one. -/
def aggregate (values : List (Option Str)) : Option Str :=
  match (values.filterMap id).dedup with
  | [] => none
  | [v] => some v
  | _ => some (lit "mixed")

/-- The labelled containers, each under its project and service. -/
def byService (containers : List Container) : List ((Str × Str) × Container) :=
  containers.filterMap fun c => c.service.map fun service => ((c.project, service), c)

/-- `_service_resources`. -/
def serviceResources (reference : Str) (containers : List Container) : List DriverResource :=
  (Dict.group (byService containers)).entries.map fun group =>
    ⟨buildDockerUri reference group.1.1 (some group.1.2) none, .service, group.1.2,
      some group.1.1, some group.1.2, aggregate (group.2.map Container.state),
      aggregate (group.2.map Container.image), some group.2.length⟩

def byProject (containers : List Container) : List (Str × Container) :=
  containers.map fun c => (c.project, c)

/-- `_project_resources`. -/
def projectResources (reference : Str) (containers : List Container) : List DriverResource :=
  (Dict.group (byProject containers)).entries.map fun group =>
    ⟨buildDockerUri reference group.1 none none, .project, group.1, some group.1, none,
      aggregate (group.2.map Container.state), none, some group.2.length⟩

/-- `_matches`. -/
def queryMatches (resource : DriverResource) (query : DriverResourceQuery) : Bool :=
  (query.project = none || resource.project = query.project) &&
    (query.service = none || resource.service = query.service) &&
    (query.name = none || some resource.name = query.name) &&
    (query.state = none || resource.state = query.state)

/-- An unfiltered query returns its whole view. -/
@[simp] theorem filter_queryMatches_all (t : ResourceType) (listed : List DriverResource) :
    (listed.filter fun r => queryMatches r (.all t)) = listed := by
  simp [queryMatches, DriverResourceQuery.all]

/-- The view a query asks for. -/
def view (reference : Str) (containers : List Container) :
    ResourceType → Except Exn (List DriverResource)
  | .container => .ok (containers.map (containerResource reference))
  | .service => .ok (serviceResources reference containers)
  | .project => .ok (projectResources reference containers)
  | .other _ => .error (.driverOperationInvalid (lit "unsupported resource type"))

/-- What a view shows of the services: each comes from a container of it. -/
theorem mem_serviceResources {reference : Str} {containers : List Container} {r : DriverResource}
    (h : r ∈ serviceResources reference containers) : ∃ c ∈ containers, ∃ s, c.service = some s ∧
      r.uri = DockerAddress.uri ⟨reference, c.project, some s, none⟩ ∧ r.resourceType = .service ∧
      r.project = some c.project ∧ r.service = some s := by
  obtain ⟨⟨⟨project, service⟩, items⟩, hg, rfl⟩ := List.mem_map.mp h
  obtain ⟨rfl, hne⟩ := (Dict.mem_entries_group _ _ _).mp hg
  obtain ⟨c, hc⟩ := List.exists_mem_of_ne_nil _ hne
  rw [Dict.mem_matching, byService, List.mem_filterMap] at hc
  obtain ⟨c', hc', he⟩ := hc
  obtain ⟨s, hs, he⟩ := Option.map_eq_some_iff.mp he
  simp only [Prod.mk.injEq] at he
  obtain ⟨⟨rfl, rfl⟩, rfl⟩ := he
  exact ⟨c', hc', s, hs, rfl, rfl, rfl, rfl⟩

theorem mem_projectResources {reference : Str} {containers : List Container} {r : DriverResource}
    (h : r ∈ projectResources reference containers) : ∃ c ∈ containers,
      r.uri = DockerAddress.uri ⟨reference, c.project, none, none⟩ ∧ r.resourceType = .project ∧
      r.project = some c.project ∧ r.service = none := by
  obtain ⟨⟨project, items⟩, hg, rfl⟩ := List.mem_map.mp h
  obtain ⟨rfl, hne⟩ := (Dict.mem_entries_group _ _ _).mp hg
  obtain ⟨c, hc⟩ := List.exists_mem_of_ne_nil _ hne
  rw [Dict.mem_matching, byProject, List.mem_map] at hc
  obtain ⟨c', hc', he⟩ := hc
  simp only [Prod.mk.injEq] at he
  obtain ⟨rfl, rfl⟩ := he
  exact ⟨c', hc', rfl, rfl, rfl, rfl⟩

/-- Every labelled container has its service in the view of the services. -/
theorem exists_serviceResource (reference : Str) {containers : List Container} {c : Container}
    (hc : c ∈ containers) {s : Str} (hs : c.service = some s) :
    ∃ r ∈ serviceResources reference containers,
      r.resourceType = .service ∧ r.project = some c.project ∧ r.service = some s := by
  have hm : c ∈ Dict.matching (c.project, s) (byService containers) := by
    rw [Dict.mem_matching, byService, List.mem_filterMap]
    exact ⟨c, hc, by simp [hs]⟩
  have hg := (Dict.mem_entries_group (c.project, s) _ (byService containers)).mpr
    ⟨rfl, List.ne_nil_of_mem hm⟩
  exact ⟨_, List.mem_map.mpr ⟨_, hg, rfl⟩, rfl, rfl, rfl⟩

section Python

variable [Python]

/-- One item of the container list. -/
def entryContainer (item : Json) : Except Exn Container := do
  let entry ← require item.dict? "Docker container list contains a non-object"
  containerFromList entry

/-- `_list_containers`, of the decoded reply. -/
def inventory (document : Json) : Except Exn (List Container) := do
  let items ← require document.list? "Docker container list must be an array"
  let _ ← require (if items.length ≤ maxContainers then some () else none)
    "Docker container inventory exceeds limit"
  items.mapM entryContainer

/-- `query`, of the decoded reply. -/
def queryDocument (reference : Str) (query : DriverResourceQuery) (document : Json) :
    Except Exn (List DriverResource) := do
  let containers ← inventory document
  let resources ← view reference containers query.resourceType
  pure (resources.filter fun r => queryMatches r query)

/-- The objects of a container list. -/
def entries (document : Json) : List Object := (document.list?.getD []).filterMap Json.dict?

/-- The labels of a list entry. -/
def labelsOf (entry : Object) : Object := (get entry "Labels").dictOrEmpty

/-- No Compose label value of the entry holds a slash. -/
def SlashFreeLabels (entry : Object) : Prop :=
  ∀ key ∈ ["com.docker.compose.project", "com.docker.compose.service"], ∀ value,
    (get (labelsOf entry) key).str? = some value → '/' ∉ value

/-- The driver's own parser reads the URI as the resource's project and service, and as
the given container. -/
def ReadsAs (reference : Str) (r : DriverResource) (container : Option Str) : Prop :=
  ∃ a, parseDockerUri r.uri = .ok a ∧ a.targetReference = reference ∧ r.project = some a.project ∧
    r.service = a.service ∧ a.container = container

theorem inventory_ok {document : Json} {containers : List Container}
    (h : inventory document = .ok containers) :
    List.Forall₂ (fun entry c => containerFromList entry = .ok c) (entries document) containers := by
  simp only [inventory, bind_ok_iff, require_ok_iff, mapM_ok_iff] at h
  obtain ⟨items, hitems, -, -, h⟩ := h
  rw [entries, hitems, Option.getD_some]
  clear hitems
  induction h with
  | nil => exact .nil
  | @cons item c items containers hc hrest ih =>
    simp only [entryContainer, bind_ok_iff, require_ok_iff] at hc
    obtain ⟨entry, hentry, hc⟩ := hc
    rw [List.filterMap_cons_some hentry]
    exact .cons hc ih

theorem queryDocument_ok_iff {reference : Str} {query : DriverResourceQuery} {document : Json}
    {resources : List DriverResource} :
    queryDocument reference query document = .ok resources ↔
      ∃ containers listed, inventory document = .ok containers ∧
        view reference containers query.resourceType = .ok listed ∧
        resources = listed.filter fun r => queryMatches r query := by
  simp only [queryDocument, bind_ok_iff]
  constructor
  · rintro ⟨containers, hd, listed, hview, h⟩
    exact ⟨containers, listed, hd, hview, (Except.ok.inj h).symm⟩
  · rintro ⟨containers, listed, hd, hview, rfl⟩
    exact ⟨containers, hd, listed, hview, rfl⟩

theorem identified_of_inventory {document : Json} {containers : List Container}
    (h : inventory document = .ok containers) : ∀ c ∈ containers, Identified c := by
  intro c hc
  obtain ⟨entry, -, he⟩ := exists_of_mem_right (inventory_ok h) hc
  obtain ⟨_, _, _, -, -, -, hi, -⟩ := containerFromList_ok he
  exact hi

/-- The labels as the container keeps them. -/
theorem slashFree_iff {entry : Object} {c : Container} (h : containerFromList entry = .ok c) :
    c.SlashFree ↔ SlashFreeLabels entry := by
  obtain ⟨_, _, labels, -, -, hlabels, hc, -, -, hidentity⟩ := containerFromList_ok h
  have hl : labelsOf entry = labels := by rw [labelsOf, Json.dictOrEmpty, hlabels, Option.getD_some]
  simp only [SlashFreeLabels, hl, List.mem_cons, List.not_mem_nil, or_false, forall_eq_or_imp,
    forall_eq, Container.SlashFree]
  rcases composeIdentity_ok hidentity with ⟨hp, hs, hnp, hns⟩ | ⟨s, hs, hp, hsv, -⟩
  · have hslash : '/' ∉ orphans := IsSegment.slash_not_mem (.inl rfl)
    simp [hp, hs, Json.str?_of_isNull hnp, Json.str?_of_isNull hns, hslash]
  · simp [hp, hs, hsv]

theorem slashFree_all_iff {document : Json} {containers : List Container}
    (h : inventory document = .ok containers) :
    (∀ c ∈ containers, c.SlashFree) ↔ ∀ entry ∈ entries document, SlashFreeLabels entry := by
  constructor
  · intro hall entry hentry
    obtain ⟨c, hc, he⟩ := exists_of_mem_left (inventory_ok h) hentry
    exact (slashFree_iff he).mp (hall c hc)
  · intro hall c hc
    obtain ⟨entry, hentry, he⟩ := exists_of_mem_right (inventory_ok h) hc
    exact (slashFree_iff he).mpr (hall entry hentry)

theorem readsAs_of_canonical {a : DockerAddress} (h : Canonical a) {r : DriverResource}
    (huri : r.uri = a.uri) (hp : r.project = some a.project) (hs : r.service = a.service) :
    ReadsAs a.targetReference r a.container :=
  ⟨a, huri ▸ h.parse_uri, rfl, hp, hs, rfl⟩

/-- Every resource a query returns is read back as what it says: a container as that
container, a service or project as no container. -/
def ViewsReadBack (reference : Str) (document : Json) : Prop :=
  ∀ containers, inventory document = .ok containers →
    ∀ query resources, queryDocument reference query document = .ok resources →
      ∀ r ∈ resources,
        (r.resourceType = .container → ∃ c ∈ containers, r = containerResource reference c ∧
          ReadsAs reference r (some c.addressName)) ∧
        (r.resourceType ≠ .container → ReadsAs reference r none)

theorem readsAs_containerResource {reference : Str} (href : IsReference reference) {c : Container}
    (hc : Identified c) (hfree : c.SlashFree) :
    ReadsAs reference (containerResource reference c) (some c.addressName) :=
  readsAs_of_canonical (hc.canonical hfree href) rfl rfl rfl

theorem readsAs_of_mem_serviceResources {reference : Str} (href : IsReference reference)
    {containers : List Container} (hidentified : ∀ c ∈ containers, Identified c)
    (hfree : ∀ c ∈ containers, c.SlashFree) {r : DriverResource}
    (h : r ∈ serviceResources reference containers) : ReadsAs reference r none := by
  obtain ⟨c, hc, s, hs, huri, -, hp, hservice⟩ := mem_serviceResources h
  have hl := (hidentified c hc).canonical_labels (hfree c hc)
  have hcanonical : Canonical ⟨reference, c.project, some s, none⟩ :=
    ⟨href, hl.project, hs ▸ hl.service, by simp, hs ▸ hl.orphan, by simp⟩
  exact readsAs_of_canonical hcanonical huri hp hservice

theorem readsAs_of_mem_projectResources {reference : Str} (href : IsReference reference)
    {containers : List Container} (hidentified : ∀ c ∈ containers, Identified c)
    (hfree : ∀ c ∈ containers, c.SlashFree) {r : DriverResource}
    (h : r ∈ projectResources reference containers) : ReadsAs reference r none := by
  obtain ⟨c, hc, huri, -, hp, hservice⟩ := mem_projectResources h
  have hl := (hidentified c hc).canonical_labels (hfree c hc)
  have hcanonical : Canonical ⟨reference, c.project, none, none⟩ :=
    ⟨href, hl.project, by simp, by simp, by simp, by simp⟩
  exact readsAs_of_canonical hcanonical huri hp hservice

/-- A service that is read as a service has labels without slashes. -/
theorem slashFree_of_readsAs {reference : Str} {c : Container} {s : Str} {r : DriverResource}
    (hs : c.service = some s) (hp : r.project = some c.project) (hservice : r.service = some s)
    (h : ReadsAs reference r none) : c.SlashFree := by
  obtain ⟨a, ha, -, hpa, hsa, -⟩ := h
  have hcanonical := (canonical_of_parse ha).1
  have hproject : a.project = c.project := Option.some.inj (hpa.symm.trans hp)
  refine ⟨hproject ▸ hcanonical.project.slash_not_mem, fun t ht => ?_⟩
  obtain rfl : s = t := by simpa [hs] using ht
  exact (hcanonical.service s (hsa ▸ hservice)).slash_not_mem

/-- The views read back exactly when no Compose label value holds a slash. -/
theorem viewsReadBack_iff {reference : Str} (hr : validTargetReference reference = true)
    {document : Json} {containers : List Container} (hd : inventory document = .ok containers) :
    ViewsReadBack reference document ↔ ∀ entry ∈ entries document, SlashFreeLabels entry := by
  have href : IsReference reference := (validReference_iff _).mp hr
  have hidentified := identified_of_inventory hd
  rw [← slashFree_all_iff hd]
  constructor
  · intro h c hc
    cases hs : c.service with
    | none =>
      have hp := (hidentified c hc).orphan hs
      exact ⟨hp ▸ IsSegment.slash_not_mem (.inl rfl), by simp [hs]⟩
    | some s =>
      obtain ⟨r, hm, ht, hp, hservice⟩ := exists_serviceResource reference hc hs
      have hq : queryDocument reference (.all .service) document =
          .ok (serviceResources reference containers) :=
        queryDocument_ok_iff.mpr ⟨containers, _, hd, rfl, by simp⟩
      exact slashFree_of_readsAs hs hp hservice ((h _ hd _ _ hq r hm).2 (by simp [ht]))
  · intro hfree _ hd' query resources hq r hm
    obtain rfl := Except.ok.inj (hd.symm.trans hd')
    obtain ⟨_, listed, hd', hview, rfl⟩ := queryDocument_ok_iff.mp hq
    obtain rfl := Except.ok.inj (hd.symm.trans hd')
    have hmem := (List.mem_filter.mp hm).1
    cases ht : query.resourceType with
    | container =>
      rw [ht] at hview
      obtain rfl := Except.ok.inj hview
      obtain ⟨c, hc, rfl⟩ := List.mem_map.mp hmem
      have hreads := readsAs_containerResource href (hidentified c hc) (hfree c hc)
      exact ⟨fun _ => ⟨c, hc, rfl, hreads⟩, fun hne => absurd rfl hne⟩
    | service =>
      rw [ht] at hview
      obtain rfl := Except.ok.inj hview
      obtain ⟨_, _, _, _, _, htype, _⟩ := mem_serviceResources hmem
      exact ⟨fun he => by simp [htype] at he,
        fun _ => readsAs_of_mem_serviceResources href hidentified hfree hmem⟩
    | project =>
      rw [ht] at hview
      obtain rfl := Except.ok.inj hview
      obtain ⟨_, _, _, htype, _⟩ := mem_projectResources hmem
      exact ⟨fun he => by simp [htype] at he,
        fun _ => readsAs_of_mem_projectResources href hidentified hfree hmem⟩
    | other name =>
      rw [ht] at hview
      cases hview

end Python

/-- A service label that spells the rest of a container address. -/
def slashLabelled : Json :=
  .arr [.obj [(lit "Id", .str (lit "0123456789ab")), (lit "Names", .arr [.str (lit "/web")]),
    (lit "Labels", .obj [(lit "com.docker.compose.project", .str (lit "x")),
      (lit "com.docker.compose.service", .str (lit "y/container/z"))])]]

def slashLabelledContainer : Container :=
  ⟨lit "0123456789ab", lit "0123456789ab", lit "web", lit "x", some (lit "y/container/z"), none, none⟩

def slashLabelledService : DriverResource :=
  ⟨lit "env://local/docker/project/x/service/y/container/z", .service, lit "y/container/z",
    some (lit "x"), some (lit "y/container/z"), none, none, some 1⟩

theorem inventory_slashLabelled :
    @inventory Python.ascii slashLabelled = .ok [slashLabelledContainer] := by
  decide +kernel

theorem viewsReadBack_iff_slashLabelled :
    @ViewsReadBack Python.ascii (lit "local") slashLabelled ↔
      ∀ entry ∈ entries slashLabelled, SlashFreeLabels entry :=
  @viewsReadBack_iff Python.ascii (lit "local") validTargetReference_local slashLabelled
    [slashLabelledContainer] inventory_slashLabelled

/-- The service of such a label is read as a container of another service. -/
theorem not_viewsReadBack_slashLabelled : validTargetReference (lit "local") = true ∧
    @inventory Python.ascii slashLabelled = .ok [slashLabelledContainer] ∧
    ¬ @ViewsReadBack Python.ascii (lit "local") slashLabelled := by
  refine ⟨validTargetReference_local, inventory_slashLabelled, fun h => ?_⟩
  have hquery : @queryDocument Python.ascii (lit "local") (.all .service) slashLabelled =
      .ok [slashLabelledService] := by decide +kernel
  obtain ⟨a, ha, -, -, -, hc⟩ :=
    (h _ inventory_slashLabelled _ _ hquery slashLabelledService (by simp)).2 (by decide)
  have hparse : @parseDockerUri Python.ascii slashLabelledService.uri =
      .ok ⟨lit "local", lit "x", some (lit "y"), some (lit "z")⟩ := by decide +kernel
  obtain rfl := Except.ok.inj (ha.symm.trans hparse)
  cases hc

/-! ## Addresses within one inventory -/

def idOf (entry : Object) : Str := (get entry "Id").str?.getD []

def namesOf (entry : Object) : List Str := (names? (get entry "Names")).getD []

def projectOf (entry : Object) : Str :=
  (get (labelsOf entry) "com.docker.compose.project").str?.getD orphans

def serviceOf (entry : Object) : Option Str :=
  (get (labelsOf entry) "com.docker.compose.service").str?

/-- The name a list entry is shown under. -/
def displayOf (entry : Object) : Str := displayNameOf (idOf entry) (rawNameOf (namesOf entry))

section Python

variable [Python]

/-- Whether that name fits an address. -/
def NameFits (entry : Object) : Prop :=
  validContainerAddress (projectOf entry) (serviceOf entry) (displayOf entry) = true

/-- Two entries of one project and service whose names both fit and are equal once the
slash in front is gone, or one whose name fits and is the short ID of the other, whose
own name does not fit. -/
def Clash (e f : Object) : Prop :=
  projectOf e = projectOf f ∧ serviceOf e = serviceOf f ∧
    ((NameFits e ∧ NameFits f ∧ displayOf e = displayOf f) ∨
      (NameFits e ∧ ¬ NameFits f ∧ displayOf e = shortId (idOf f)) ∨
      (¬ NameFits e ∧ NameFits f ∧ shortId (idOf e) = displayOf f))

theorem read_of_containerFromList {entry : Object} {c : Container}
    (h : containerFromList entry = .ok c) : Identified c ∧ c.id = idOf entry ∧
      c.displayName = displayOf entry ∧ c.project = projectOf entry ∧ c.service = serviceOf entry := by
  obtain ⟨id, names, labels, hid, hnames, hlabels, hc, hcid, hname, hidentity⟩ := containerFromList_ok h
  have hl : labelsOf entry = labels := by rw [labelsOf, Json.dictOrEmpty, hlabels, Option.getD_some]
  have hi : idOf entry = id := by
    rw [idOf, (Option.mem_filter_iff.mp hid).1, Option.getD_some]
  have hn : namesOf entry = names := by rw [namesOf, hnames, Option.getD_some]
  refine ⟨hc, hcid.trans hi.symm, by rw [hname, displayOf, hi, hn], ?_⟩
  rcases composeIdentity_ok hidentity with ⟨hp, hs, hnp, hns⟩ | ⟨s, hs, hp, hsv, -⟩
  · simp [projectOf, serviceOf, hl, hp, hs, Json.str?_of_isNull hnp, Json.str?_of_isNull hns]
  · simp [projectOf, serviceOf, hl, hp, hs, hsv]

/-- The address of a container whose labels hold a slash has too many segments to be
that of one whose labels hold none. -/
theorem uri_ne_of_slashFree {reference : Str} (hr : IsReference reference) {c d : Container}
    (hc : Identified c) (hd : Identified d) (hsc : c.SlashFree) (hsd : ¬ d.SlashFree) :
    (containerResource reference c).uri ≠ (containerResource reference d).uri := by
  intro h
  have hcanonical := hc.canonical hsc hr
  have hslash : '/' ∉ reference := not_mem_of_class hr.chars (by decide)
  have hsegments := (flatMap_splitOn_eq_of_uri_eq h hslash hslash).2
  rw [flatMap_splitOn_of_slashless hcanonical.slashless.2] at hsegments
  obtain ⟨s, hs⟩ : ∃ s, d.service = some s := by
    refine Option.ne_none_iff_exists'.mp fun hnone => hsd ⟨?_, by simp [hnone]⟩
    exact hd.orphan hnone ▸ IsSegment.slash_not_mem (.inl rfl)
  have hlen : 3 ≤ (d.project.splitOn '/').length + (s.splitOn '/').length := by
    have hp := List.length_pos_iff.mpr (List.splitOn_ne_nil '/' d.project)
    have hq := List.length_pos_iff.mpr (List.splitOn_ne_nil '/' s)
    by_cases hproject : '/' ∈ d.project
    · have := two_le_length_splitOn hproject
      omega
    · have hservice : '/' ∈ s := by
        by_contra hn
        exact hsd ⟨hproject, fun t ht => by rwa [← Option.some.inj (hs.symm.trans ht)]⟩
      have := two_le_length_splitOn hservice
      omega
  have hpos : ∀ t : Str, 1 ≤ (t.splitOn '/').length := fun t =>
    List.length_pos_iff.mpr (List.splitOn_ne_nil '/' t)
  have h₁ := hpos (lit "docker")
  have h₂ := hpos (lit "project")
  have h₃ := hpos (lit "service")
  have h₄ := hpos (lit "container")
  have h₅ := hpos d.addressName
  have hcount := congrArg List.length hsegments
  simp only [DockerAddress.segments, DockerAddress.level, hs, List.length_flatMap, List.map_append,
    List.map_cons, List.map_nil, List.sum_append, List.sum_cons, List.sum_nil, List.length_append,
    List.length_cons, List.length_nil] at hcount
  have hshort : (DockerAddress.level "service" c.service).length ≤ 2 := by
    cases c.service <;> simp [DockerAddress.level]
  simp only [DockerAddress.level] at hshort hcount
  omega

/-- Containers with different short IDs share an address exactly when they share
project, service and segment. -/
theorem uri_eq_iff {reference : Str} (hr : IsReference reference) {c d : Container}
    (hc : Identified c) (hd : Identified d) (hid : shortId c.id ≠ shortId d.id) :
    (containerResource reference c).uri = (containerResource reference d).uri ↔
      c.project = d.project ∧ c.service = d.service ∧ c.addressName = d.addressName := by
  constructor
  · intro h
    by_cases hsc : c.SlashFree
    · by_cases hsd : d.SlashFree
      · have he := (hc.canonical hsc hr).slashless.eq_of_uri_eq (hd.canonical hsd hr).slashless h
        simpa using he
      · exact absurd h (uri_ne_of_slashFree hr hc hd hsc hsd)
    · by_cases hsd : d.SlashFree
      · exact absurd h.symm (uri_ne_of_slashFree hr hd hc hsd hsc)
      · have hslash : '/' ∉ reference := not_mem_of_class hr.chars (by decide)
        have hsegments := (flatMap_splitOn_eq_of_uri_eq h hslash hslash).2
        have hlast : ∀ e : Container, Identified e →
            (DockerAddress.segments ⟨reference, e.project, e.service, some e.addressName⟩ |>.flatMap
              (·.splitOn '/')).getLast? = some e.addressName := by
          intro e he
          simp [DockerAddress.segments, DockerAddress.level,
            List.splitOn_eq_singleton he.addressName_isSegment.slash_not_mem]
        have haddress : c.addressName = d.addressName := by
          have := congrArg List.getLast? hsegments
          rw [hlast c hc, hlast d hd] at this
          exact Option.some.inj this
        rw [hc.addressName_of_not_slashFree hsc, hd.addressName_of_not_slashFree hsd] at haddress
        exact absurd haddress hid
  · rintro ⟨hp, hs, ha⟩
    simp [containerResource, hp, hs, ha]

/-- Two entries share an address exactly when they clash. -/
theorem uri_eq_iff_clash {reference : Str} (hr : IsReference reference) {e f : Object}
    {c d : Container} (he : containerFromList e = .ok c) (hf : containerFromList f = .ok d)
    (hid : shortId (idOf e) ≠ shortId (idOf f)) :
    (containerResource reference c).uri = (containerResource reference d).uri ↔ Clash e f := by
  obtain ⟨hc, hcid, hcd, hcp, hcs⟩ := read_of_containerFromList he
  obtain ⟨hd, hdid, hdd, hdp, hds⟩ := read_of_containerFromList hf
  have hca := hc.addressName
  have hda := hd.addressName
  rw [hcp, hcs, hcd, hcid] at hca
  rw [hdp, hds, hdd, hdid] at hda
  rw [uri_eq_iff hr hc hd (by rwa [hcid, hdid]), Clash, hcp, hdp, hcs, hds, hca, hda]
  refine and_congr_right fun _ => and_congr_right fun _ => ?_
  unfold NameFits
  split <;> split <;> simp_all

/-- Where the short IDs of an inventory are distinct, the addresses of its containers
are distinct exactly when no two entries clash. -/
theorem container_uris_nodup_iff {reference : Str} (hr : validTargetReference reference = true)
    {document : Json} {resources : List DriverResource}
    (hq : queryDocument reference (.all .container) document = .ok resources)
    (hid : (entries document).Pairwise fun e f => shortId (idOf e) ≠ shortId (idOf f)) :
    (resources.map DriverResource.uri).Nodup ↔
      (entries document).Pairwise fun e f => ¬ Clash e f := by
  have href : IsReference reference := (validReference_iff _).mp hr
  obtain ⟨containers, listed, hd, hview, rfl⟩ := queryDocument_ok_iff.mp hq
  obtain rfl := Except.ok.inj hview
  have hread := inventory_ok hd
  rw [filter_queryMatches_all, List.map_map, List.Nodup, List.pairwise_map]
  generalize entries document = es at hid hread
  clear hd hview hq
  induction hread with
  | nil => simp
  | @cons e c es cs he hrest ih =>
    rw [List.pairwise_cons] at hid
    simp only [List.pairwise_cons]
    refine and_congr ?_ (ih hid.2)
    constructor
    · intro h f hf
      obtain ⟨d, hd, hfd⟩ := exists_of_mem_left hrest hf
      rw [← uri_eq_iff_clash href he hfd (hid.1 f hf)]
      exact h d hd
    · intro h d hd
      obtain ⟨f, hf, hfd⟩ := exists_of_mem_right hrest hd
      have := h f hf
      rwa [← uri_eq_iff_clash href he hfd (hid.1 f hf)] at this

end Python

/-- A name that fits no address, beside a name that is the first container's short ID. -/
def clashing : Json :=
  .arr [.obj [(lit "Id", .str (lit "0123456789ab")), (lit "Names", .arr [.str (lit "/web-")]),
      (lit "Labels", .obj [])],
    .obj [(lit "Id", .str (lit "ba9876543210")), (lit "Names", .arr [.str (lit "/0123456789ab")]),
      (lit "Labels", .obj [])]]

def clashingResource (name : Str) : DriverResource :=
  ⟨lit "env://local/docker/project/_orphans/container/0123456789ab", .container, name,
    some orphans, none, none, none, none⟩

def clashingResources : List DriverResource :=
  [clashingResource (lit "web-"), clashingResource (lit "0123456789ab")]

theorem shortIds_distinct_clashing :
    (entries clashing).Pairwise fun e f => shortId (idOf e) ≠ shortId (idOf f) := by
  decide +kernel

theorem queryDocument_clashing :
    @queryDocument Python.ascii (lit "local") (.all .container) clashing = .ok clashingResources := by
  decide +kernel

theorem container_uris_nodup_iff_clashing :
    (clashingResources.map DriverResource.uri).Nodup ↔
      (entries clashing).Pairwise fun e f => ¬ @Clash Python.ascii e f :=
  @container_uris_nodup_iff Python.ascii (lit "local") validTargetReference_local clashing
    clashingResources queryDocument_clashing shortIds_distinct_clashing

/-- Short IDs and names are distinct, and the two containers have one address. -/
theorem not_nodup_clashing : validTargetReference (lit "local") = true ∧
    @queryDocument Python.ascii (lit "local") (.all .container) clashing = .ok clashingResources ∧
    ((entries clashing).Pairwise fun e f => shortId (idOf e) ≠ shortId (idOf f)) ∧
    ((entries clashing).Pairwise fun e f => ∀ name ∈ namesOf e, name ∉ namesOf f) ∧
    ¬ (clashingResources.map DriverResource.uri).Nodup := by
  refine ⟨validTargetReference_local, queryDocument_clashing, shortIds_distinct_clashing, ?_, ?_⟩
  · decide +kernel
  · simp [clashingResources, clashingResource]

end MiraDriver.Inventory
