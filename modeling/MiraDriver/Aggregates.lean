import MiraDriver.Partition
import MiraDriver.Docker

/-!
# Describing a service or a project

`describe` takes the address of an aggregate apart and asks for what it spells. The
services and projects of an inventory have distinct keys, so it finds the one that the
query listed under the address, or none.
-/
namespace MiraDriver.Aggregates

open MiraDriver.Text MiraDriver.Mapping MiraDriver.Base MiraDriver.Uri MiraDriver.Document
  MiraDriver.Identity MiraDriver.Inventory MiraDriver.Inspect MiraDriver.Http MiraDriver.Docker
  MiraDriver.Program MiraDriver.Partition

/-- Among what is made of distinct keys, a test that one key alone passes finds this one. -/
theorem filter_map_of_nodup {κ α : Type} [DecidableEq κ] {keys : List κ} (hkeys : keys.Nodup)
    {f : κ → α} {p : α → Bool} {k : κ} (hp : ∀ j, p (f j) = true ↔ j = k) :
    (k ∈ keys ∧ (keys.map f).filter p = [f k]) ∨ (k ∉ keys ∧ (keys.map f).filter p = []) := by
  have htest : p ∘ f = fun j => decide (j = k) := by
    funext j
    rw [Function.comp, Bool.eq_iff_iff, hp, decide_eq_true_eq]
  rw [List.filter_map, htest, List.filter_eq]
  by_cases hk : k ∈ keys
  · left
    rw [List.count_eq_one_of_mem hkeys hk]
    exact ⟨hk, rfl⟩
  · right
    rw [List.count_eq_zero_of_not_mem hk]
    exact ⟨hk, rfl⟩

section Find

variable (reference : Str) (containers : List Container) {a : DockerAddress}

/-- The address of a service asks for the service under its project and its name. -/
theorem aggregateQuery_service {s : Str} (hs : a.service = some s) (hne : s ≠ []) :
    aggregateQuery a = ⟨.service, some a.project, some s, some s, none⟩ := by
  have hfilter : a.service.filter (· ≠ []) = some s := by
    rw [hs, Option.filter_some_pos (p := fun t => decide (t ≠ [])) (decide_eq_true hne)]
  rw [aggregateQuery, hfilter, hs]
  rfl

theorem aggregateQuery_project (hs : a.service = none) :
    aggregateQuery a = ⟨.project, some a.project, none, some a.project, none⟩ := by
  rw [aggregateQuery, hs]
  rfl

/-- Of the services, the query behind `describe` finds the addressed one or none. -/
theorem find_service {s : Str} (hs : a.service = some s) (hne : s ≠ []) :
    ((a.project, s) ∈ serviceKeys containers ∧
        ((serviceResources reference containers).filter fun r => queryMatches r (aggregateQuery a)) =
          [serviceResource containers reference (a.project, s)]) ∨
      ((a.project, s) ∉ serviceKeys containers ∧
        ((serviceResources reference containers).filter fun r => queryMatches r (aggregateQuery a)) =
          []) := by
  have hkeys : (serviceKeys containers).Nodup := Dict.nodup_keys _
  rw [serviceResources_eq]
  refine filter_map_of_nodup hkeys fun key => ?_
  rw [aggregateQuery_service hs hne]
  simp [queryMatches, serviceResource, Prod.ext_iff]

theorem find_project (hs : a.service = none) :
    (a.project ∈ projectKeys containers ∧
        ((projectResources reference containers).filter fun r => queryMatches r (aggregateQuery a)) =
          [projectResource containers reference a.project]) ∨
      (a.project ∉ projectKeys containers ∧
        ((projectResources reference containers).filter fun r => queryMatches r (aggregateQuery a)) =
          []) := by
  have hkeys : (projectKeys containers).Nodup := Dict.nodup_keys _
  rw [projectResources_eq]
  refine filter_map_of_nodup hkeys fun project => ?_
  rw [aggregateQuery_project hs]
  simp [queryMatches, projectResource]

/-- The resources of the service view and of the project view. -/
def aggregates : List DriverResource :=
  serviceResources reference containers ++ projectResources reference containers

variable {reference containers}

theorem mem_aggregates {r : DriverResource} : r ∈ aggregates reference containers ↔
    (∃ key ∈ serviceKeys containers, serviceResource containers reference key = r) ∨
      ∃ project ∈ projectKeys containers, projectResource containers reference project = r := by
  rw [aggregates, serviceResources_eq, projectResources_eq, List.mem_append, List.mem_map, List.mem_map]

/-- An aggregate is determined by its project and its service. -/
theorem eq_of_mem_aggregates {r r' : DriverResource} (hr : r ∈ aggregates reference containers)
    (hr' : r' ∈ aggregates reference containers) (hp : r.project = r'.project)
    (hs : r.service = r'.service) : r = r' := by
  rcases mem_aggregates.mp hr with ⟨key, -, rfl⟩ | ⟨project, -, rfl⟩ <;>
    rcases mem_aggregates.mp hr' with ⟨key', -, rfl⟩ | ⟨project', -, rfl⟩
  · rw [Prod.ext (Option.some.inj hp) (Option.some.inj hs)]
  · cases hs
  · cases hs
  · rw [Option.some.inj hp]

end Find

section Python

variable [Python]

/-- For the address of an aggregate, the one that is listed under it is found, or nothing
where none is. -/
theorem find_aggregate {document : Json} {containers : List Container}
    (hd : inventory document = .ok containers) {a : DockerAddress} (ha : Canonical a)
    (hc : a.container = none) :
    (∃ r ∈ aggregates a.targetReference containers,
        r.uri = a.uri ∧ r.project = some a.project ∧ r.service = a.service ∧
          queryDocument a.targetReference (aggregateQuery a) document = .ok [r]) ∨
      (∀ r ∈ aggregates a.targetReference containers,
          r.project = some a.project → r.service ≠ a.service) ∧
        queryDocument a.targetReference (aggregateQuery a) document = .ok [] := by
  obtain ⟨reference, project, service, container⟩ := a
  obtain rfl : container = none := hc
  cases service with
  | some s =>
    have hne : s ≠ [] := (ha.service s rfl).ne_nil
    have hquery := aggregateQuery_service (a := ⟨reference, project, some s, none⟩) rfl hne
    rcases find_service reference containers (a := ⟨reference, project, some s, none⟩) rfl hne with
      ⟨hkey, hfound⟩ | ⟨hkey, hfound⟩
    · left
      refine ⟨_, mem_aggregates.mpr (.inl ⟨_, hkey, rfl⟩), rfl, rfl, rfl, ?_⟩
      exact queryDocument_ok_iff.mpr ⟨containers, _, hd, by rw [hquery]; rfl, hfound.symm⟩
    · right
      refine ⟨?_, queryDocument_ok_iff.mpr ⟨containers, _, hd, by rw [hquery]; rfl, hfound.symm⟩⟩
      intro r hr hp hs
      rcases mem_aggregates.mp hr with ⟨key, hmem, rfl⟩ | ⟨p, -, rfl⟩
      · obtain rfl : key = (project, s) := Prod.ext (Option.some.inj hp) (Option.some.inj hs)
        exact hkey hmem
      · cases hs
  | none =>
    rcases find_project reference containers (a := ⟨reference, project, none, none⟩) rfl with
      ⟨hkey, hfound⟩ | ⟨hkey, hfound⟩
    · left
      refine ⟨_, mem_aggregates.mpr (.inr ⟨_, hkey, rfl⟩), rfl, rfl, rfl, ?_⟩
      exact queryDocument_ok_iff.mpr ⟨containers, _, hd, rfl, hfound.symm⟩
    · right
      refine ⟨?_, queryDocument_ok_iff.mpr ⟨containers, _, hd, rfl, hfound.symm⟩⟩
      intro r hr hp hs
      rcases mem_aggregates.mp hr with ⟨key, -, rfl⟩ | ⟨p, hmem, rfl⟩
      · cases hs
      · obtain rfl : p = project := Option.some.inj hp
        exact hkey hmem

def listRequest : Request := ⟨lit "containers/json", [(lit "all", lit "true")]⟩

/-- What `describe` makes of the resources found. -/
def aggregateDetails (resources : List DriverResource) : Except Exn DriverResourceDetails :=
  match resources with
  | [resource] => .ok (bareDetails resource)
  | _ => .error (.driverOperationInvalid (lit "target resource was not found"))

variable [Loads]

omit [Python] in
theorem answer_getJson {h : Request → Reply} {path : Str} {params : List (Str × Str)} :
    (getJson path params).answer h = readJson (h ⟨path, params⟩) := by
  obtain ⟨t, ht, hreplies⟩ := Prog.exec_answer h (getJson path params)
  obtain ⟨reply, rfl, hout⟩ := exec_getJson.mp ht
  obtain rfl : reply = h ⟨path, params⟩ := hreplies _ List.mem_cons_self
  exact hout

/-- The address of an aggregate is answered from one container list. -/
theorem answer_describe {reference : Str} {a : DockerAddress} (ha : Canonical a)
    (hr : a.targetReference = reference) (hc : a.container = none) {h : Request → Reply}
    {document : Json} (hdocument : readJson (h listRequest) = .ok document) :
    (describe reference a.uri).answer h =
      (queryDocument reference (aggregateQuery a) document >>= aggregateDetails) := by
  have hown : ownAddress reference a.uri = .ok a := ownAddress_ok_iff.mpr ⟨ha, rfl, hr⟩
  have hquery : (query reference (aggregateQuery a)).answer h =
      queryDocument reference (aggregateQuery a) document := by
    rw [query, Prog.answer_bind, answer_getJson]
    change (readJson (h listRequest) >>= _) = _
    rw [hdocument]
    exact Prog.answer_ofExcept (I := http) h _
  rw [describe, Prog.answer_bind, Prog.answer_ofExcept, hown]
  change (_ : Prog http Exn DriverResourceDetails).answer h = _
  rw [hc]
  dsimp only
  rw [Prog.answer_bind, hquery]
  cases queryDocument reference (aggregateQuery a) document with
  | error e => rfl
  | ok resources =>
    rcases resources with _ | ⟨r, _ | ⟨r', rest⟩⟩ <;> rfl

/-- `describe` of an aggregate and the unfiltered views of one document agree. -/
structure Agrees (reference : Str) (document : Json) (v : Views) : Prop where
  /-- A listed aggregate is described as it is listed. -/
  listed : ∀ h : Request → Reply, readJson (h listRequest) = .ok document →
    ∀ r ∈ v.services ++ v.projects, (describe reference r.uri).answer h = .ok (bareDetails r)
  /-- The address of no listed aggregate is refused. -/
  unlisted : ∀ h : Request → Reply, readJson (h listRequest) = .ok document →
    ∀ a, Canonical a → a.targetReference = reference → a.container = none →
      a.uri ∉ (v.services ++ v.projects).map DriverResource.uri →
        ∃ message, (describe reference a.uri).answer h = .error (.driverOperationInvalid message)
  /-- Never is more than one found. -/
  unique : ∀ a, Canonical a → a.targetReference = reference → a.container = none →
    ∀ found, queryDocument reference (aggregateQuery a) document = .ok found → found.length ≤ 1

omit [Loads] in
/-- Labels without slashes make every aggregate's address read as that aggregate. -/
theorem exists_canonical_of_mem {reference : Str} (hr : validTargetReference reference = true)
    {document : Json} {containers : List Container} (hd : inventory document = .ok containers)
    (hfree : ∀ entry ∈ entries document, SlashFreeLabels entry) {r : DriverResource}
    (h : r ∈ aggregates reference containers) :
    ∃ a, Canonical a ∧ a.uri = r.uri ∧ a.targetReference = reference ∧ r.project = some a.project ∧
      r.service = a.service ∧ a.container = none := by
  have href : IsReference reference := (validReference_iff _).mp hr
  have hidentified := identified_of_inventory hd
  have hslash := (slashFree_all_iff hd).mpr hfree
  have hreads : ReadsAs reference r none := by
    rcases List.mem_append.mp h with h | h
    · exact readsAs_of_mem_serviceResources href hidentified hslash h
    · exact readsAs_of_mem_projectResources href hidentified hslash h
  obtain ⟨a, ha, htarget, hp, hs, hc⟩ := hreads
  obtain ⟨hcanonical, huri⟩ := canonical_of_parse ha
  exact ⟨a, hcanonical, huri, htarget, hp, hs, hc⟩

/-- Without slashes in Compose labels, what is described is what is listed. -/
theorem agrees_of_slashFree {reference : Str} (hr : validTargetReference reference = true)
    {document : Json} {v : Views} (hv : Shown reference document v)
    (hfree : ∀ entry ∈ entries document, SlashFreeLabels entry) : Agrees reference document v := by
  obtain ⟨containers, hd, rfl⟩ := eq_viewsOf_of_shown hv
  constructor
  case listed =>
    intro h hdocument r hmem
    obtain ⟨a, ha, huri, rfl, hp, hs, hc⟩ := exists_canonical_of_mem hr hd hfree hmem
    rw [← huri, answer_describe ha rfl hc hdocument]
    rcases find_aggregate hd ha hc with ⟨r', hmem', -, hp', hs', hfound⟩ | ⟨hnone, -⟩
    · obtain rfl : r = r' := eq_of_mem_aggregates hmem hmem' (hp.trans hp'.symm) (hs.trans hs'.symm)
      rw [hfound]
      rfl
    · exact absurd hs (hnone r hmem hp)
  case unlisted =>
    intro h hdocument a ha htarget hc hnot
    obtain rfl := htarget
    rw [answer_describe ha rfl hc hdocument]
    rcases find_aggregate hd ha hc with ⟨r, hmem, huri, -⟩ | ⟨-, hfound⟩
    · exact absurd (List.mem_map.mpr ⟨r, hmem, huri⟩) hnot
    · rw [hfound]
      exact ⟨_, rfl⟩
  case unique =>
    intro a ha htarget hc found hq
    obtain rfl := htarget
    rcases find_aggregate hd ha hc with ⟨r, -, -, -, -, hfound⟩ | ⟨-, hfound⟩
    · rw [Except.ok.inj (hq.symm.trans hfound), List.length_singleton]
    · rw [Except.ok.inj (hq.symm.trans hfound)]
      exact Nat.zero_le 1

end Python

theorem slashFree_mixed : ∀ entry ∈ entries mixed, SlashFreeLabels entry := by
  rw [← @slashFree_all_iff Python.ascii _ _ inventory_mixed]
  simp [mixedContainers, mixedContainers.web, Container.SlashFree, lit_def, orphans]

/-- The text of that container list. -/
def mixedText : List UInt8 := Utf8.encode
  (lit "[" ++ entry "0123456789ab" "/web-1" "running" labels ++ lit "," ++
    entry "123456789abc" "/web-2" "exited" labels ++ lit "," ++
    entry "23456789abcd" "/tool" "running" "" ++ lit "]")
where
  labels := "\"com.docker.compose.project\":\"shop\",\"com.docker.compose.service\":\"web\""
  entry (id name state labels : String) : Str :=
    lit "\x7b\"Id\":\"" ++ lit id ++ lit "\",\"Names\":[\"" ++ lit name ++ lit "\"],\"State\":\"" ++
      lit state ++ lit "\",\"Labels\":\x7b" ++ lit labels ++ lit "\x7d\x7d"

abbrev mixedLoads : Loads where
  loads body := if body = mixedText then .value mixed else .refused

theorem agrees_of_slashFree_mixed :
    @Agrees Python.ascii mixedLoads (lit "local") mixed (viewsOf (lit "local") mixedContainers) :=
  @agrees_of_slashFree Python.ascii mixedLoads (lit "local") validTargetReference_local mixed
    (viewsOf (lit "local") mixedContainers)
    (@shown_viewsOf Python.ascii _ _ inventory_mixed (lit "local")) slashFree_mixed

end MiraDriver.Aggregates
