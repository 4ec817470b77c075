import Mathlib.Data.List.Dedup
import MiraDriver.Inventory

/-!
# One partition in three views

The containers of a document, its services and its projects are three readings of one
partition: every container is counted once under its project, and once under its service
if it has Compose labels.
-/
namespace MiraDriver.Partition

open MiraDriver.Text MiraDriver.Mapping MiraDriver.Base MiraDriver.Uri MiraDriver.Document
  MiraDriver.Identity MiraDriver.Inventory

/-- The results of the three unfiltered queries. -/
structure Views where
  containers : List DriverResource
  services : List DriverResource
  projects : List DriverResource

def count (r : DriverResource) : Nat := r.containerCount.getD 0

/-- The container resources of a project and a service. -/
def members (v : Views) (project service : Option Str) : List DriverResource :=
  v.containers.filter fun r => r.project = project ∧ r.service = service

/-- The value shared by all that have one, None if none has one, and mixed if two differ. -/
def Summary (values : List (Option Str)) (result : Option Str) : Prop :=
  (∀ v ∈ values, v = none) ∧ result = none ∨
    (∃ s, some s ∈ values ∧ (∀ t, some t ∈ values → t = s) ∧ result = some s) ∨
      ∃ s t, some s ∈ values ∧ some t ∈ values ∧ s ≠ t ∧ result = some (lit "mixed")

theorem aggregate_summary (values : List (Option Str)) : Summary values (aggregate values) := by
  have hmem : ∀ s, s ∈ (values.filterMap id).dedup ↔ some s ∈ values := by simp
  unfold aggregate
  cases hd : (values.filterMap id).dedup with
  | nil =>
    rw [hd] at hmem
    refine .inl ⟨?_, rfl⟩
    intro v hv
    cases v with
    | none => rfl
    | some s => exact absurd ((hmem s).mpr hv) List.not_mem_nil
  | cons s rest =>
    rw [hd] at hmem
    have hs := (hmem s).mp List.mem_cons_self
    cases rest with
    | nil =>
      refine .inr (.inl ⟨s, hs, ?_, rfl⟩)
      intro t ht
      simpa using (hmem t).mpr ht
    | cons t rest =>
      have ht := (hmem t).mp (List.mem_cons_of_mem s List.mem_cons_self)
      have hnodup := (values.filterMap id).nodup_dedup
      rw [hd, List.nodup_cons] at hnodup
      refine .inr (.inr ⟨s, t, hs, ht, ?_, rfl⟩)
      rintro rfl
      exact hnodup.1 List.mem_cons_self

/-- The order of the values does not matter. -/
theorem aggregate_perm {values values' : List (Option Str)} (h : values.Perm values') :
    aggregate values = aggregate values' := by
  have hd := (h.filterMap id).dedup
  unfold aggregate
  cases hl : (values.filterMap id).dedup with
  | nil =>
    rw [hl] at hd
    rw [List.nil_perm.mp hd]
  | cons s rest =>
    cases hl' : (values'.filterMap id).dedup with
    | nil =>
      rw [hl, hl'] at hd
      exact absurd hd.length_eq (by simp)
    | cons s' rest' =>
      rw [hl, hl'] at hd
      have hlength := hd.length_eq
      cases rest with
      | nil =>
        cases rest' with
        | nil => rw [List.singleton_perm_singleton.mp hd]
        | cons t' rest' => simp at hlength
      | cons t rest =>
        cases rest' with
        | nil => simp at hlength
        | cons t' rest' => rfl

section Groups

variable (containers : List Container)

/-- The containers of a project. -/
def ofProject (project : Str) : List Container := containers.filter fun c => c.project = project

/-- The containers of a service of a project. -/
def ofService (key : Str × Str) : List Container :=
  containers.filter fun c => c.project = key.1 ∧ c.service = some key.2

def serviceKeys : List (Str × Str) := (Dict.group (byService containers)).keys

def projectKeys : List Str := (Dict.group (byProject containers)).keys

theorem matching_byProject (project : Str) :
    Dict.matching project (byProject containers) = ofProject containers project := by
  simp only [Dict.matching, byProject, ofProject, List.filter_map, List.map_map]
  exact List.map_id _

theorem matching_byService (key : Str × Str) :
    Dict.matching key (byService containers) = ofService containers key := by
  induction containers with
  | nil => rfl
  | cons c containers ih =>
    cases hs : c.service with
    | none =>
      have hcons : byService (c :: containers) = byService containers := by simp [byService, hs]
      rw [hcons, ih]
      simp [ofService, hs]
    | some s =>
      have hcons : byService (c :: containers) = ((c.project, s), c) :: byService containers := by
        simp [byService, hs]
      rw [hcons, Dict.matching_cons, ih]
      by_cases h : (c.project, s) = key
      · simp [ofService, hs, ← h]
      · have hnot : ¬ (c.project = key.1 ∧ s = key.2) := fun he => h (Prod.ext he.1 he.2)
        simp [ofService, hs, h, hnot]

def serviceResource (reference : Str) (key : Str × Str) : DriverResource :=
  ⟨buildDockerUri reference key.1 (some key.2) none, .service, key.2, some key.1, some key.2,
    aggregate ((ofService containers key).map Container.state),
    aggregate ((ofService containers key).map Container.image),
    some (ofService containers key).length⟩

def projectResource (reference : Str) (project : Str) : DriverResource :=
  ⟨buildDockerUri reference project none none, .project, project, some project, none,
    aggregate ((ofProject containers project).map Container.state), none,
    some (ofProject containers project).length⟩

theorem serviceResources_eq (reference : Str) : serviceResources reference containers =
    (serviceKeys containers).map (serviceResource containers reference) := by
  rw [serviceResources, Dict.entries_group, List.map_map]
  refine List.map_congr_left fun key _ => ?_
  simp only [Function.comp, matching_byService, serviceResource]

theorem projectResources_eq (reference : Str) : projectResources reference containers =
    (projectKeys containers).map (projectResource containers reference) := by
  rw [projectResources, Dict.entries_group, List.map_map]
  refine List.map_congr_left fun project _ => ?_
  simp only [Function.comp, matching_byProject, projectResource]

variable {containers}

theorem mem_projectKeys {project : Str} :
    project ∈ projectKeys containers ↔ ∃ c ∈ containers, c.project = project := by
  simp [projectKeys, Dict.mem_keys_group, byProject]

theorem mem_serviceKeys {key : Str × Str} :
    key ∈ serviceKeys containers ↔
      ∃ c ∈ containers, c.project = key.1 ∧ c.service = some key.2 := by
  simp only [serviceKeys, Dict.mem_keys_group, ← Dict.mem_matching, matching_byService, ofService,
    List.mem_filter, decide_eq_true_eq]

/-- The keys of the services of one project, and how many containers each counts. -/
theorem sum_ofService {project : Str} (hservice : ∀ c ∈ containers, c.project = project → c.service ≠ none) :
    (((serviceKeys containers).filter fun key => key.1 = project).map fun key =>
      (ofService containers key).length).sum = (ofProject containers project).length := by
  have hnodup : ((serviceKeys containers).filter fun key => key.1 = project).Nodup :=
    (Dict.nodup_keys _).filter _
  have hcover : ∀ e ∈ byService (ofProject containers project),
      e.1 ∈ (serviceKeys containers).filter fun key => key.1 = project := by
    rintro ⟨key, c⟩ he
    have hc : c ∈ ofService (ofProject containers project) key := by
      rwa [← matching_byService, Dict.mem_matching]
    simp only [ofService, ofProject, List.mem_filter, decide_eq_true_eq] at hc
    rw [List.mem_filter, mem_serviceKeys, decide_eq_true_eq]
    exact ⟨⟨c, hc.1.1, hc.2⟩, hc.2.1.symm.trans hc.1.2⟩
  have hlength : (byService (ofProject containers project)).length =
      (ofProject containers project).length := by
    rw [byService, List.length_filterMap_eq_countP, List.countP_eq_length]
    intro c hc
    simp only [ofProject, List.mem_filter, decide_eq_true_eq] at hc
    simpa [Option.isSome_iff_ne_none] using hservice c hc.1 hc.2
  rw [← hlength, ← Dict.sum_length_matching hnodup hcover]
  refine congrArg List.sum (List.map_congr_left fun key hkey => ?_)
  have hproject : key.1 = project := by simpa using (List.mem_filter.mp hkey).2
  rw [matching_byService, ofService, ofService, ofProject, List.filter_filter]
  congr 1
  refine List.filter_congr fun c _ => ?_
  rw [← hproject]
  by_cases h : c.project = key.1 <;> simp [h]

theorem sum_ofProject (containers : List Container) :
    ((projectKeys containers).map fun project => (ofProject containers project).length).sum =
      containers.length := by
  have hcover : ∀ e ∈ byProject containers, e.1 ∈ projectKeys containers := by
    intro e he
    obtain ⟨c, hc, rfl⟩ := List.mem_map.mp he
    exact mem_projectKeys.mpr ⟨c, hc, rfl⟩
  have hsum := Dict.sum_length_matching (Dict.nodup_keys (Dict.group (byProject containers))) hcover
  simp only [matching_byProject] at hsum
  rw [projectKeys, hsum, byProject, List.length_map]

theorem sum_ofService_all (containers : List Container) :
    ((serviceKeys containers).map fun key => (ofService containers key).length).sum =
      containers.countP fun c => c.service.isSome := by
  have hcover : ∀ e ∈ byService containers, e.1 ∈ serviceKeys containers := by
    rintro ⟨key, c⟩ he
    exact (Dict.mem_keys_group key _).mpr ⟨c, he⟩
  have hsum := Dict.sum_length_matching (Dict.nodup_keys (Dict.group (byService containers))) hcover
  simp only [matching_byService] at hsum
  rw [serviceKeys, hsum, byService, List.length_filterMap_eq_countP]
  refine List.countP_congr fun c _ => ?_
  simp

/-- Permuting the containers permutes the services, and changes nothing else of them. -/
theorem serviceResources_perm {containers' : List Container} (h : containers.Perm containers')
    (reference : Str) :
    (serviceResources reference containers).Perm (serviceResources reference containers') := by
  have hgroup : ∀ key, (ofService containers key).Perm (ofService containers' key) :=
    fun _ => h.filter _
  have hsame : serviceResource containers reference = serviceResource containers' reference := by
    funext key
    rw [serviceResource, aggregate_perm ((hgroup key).map _), aggregate_perm ((hgroup key).map _),
      (hgroup key).length_eq, serviceResource]
  rw [serviceResources_eq, serviceResources_eq, hsame]
  exact (Dict.keys_group_perm (h.filterMap _)).map _

theorem projectResources_perm {containers' : List Container} (h : containers.Perm containers')
    (reference : Str) :
    (projectResources reference containers).Perm (projectResources reference containers') := by
  have hgroup : ∀ project, (ofProject containers project).Perm (ofProject containers' project) :=
    fun _ => h.filter _
  have hsame : projectResource containers reference = projectResource containers' reference := by
    funext project
    rw [projectResource, aggregate_perm ((hgroup project).map _), (hgroup project).length_eq,
      projectResource]
  rw [projectResources_eq, projectResources_eq, hsame]
  exact (Dict.keys_group_perm (h.map _)).map _

end Groups

/-! ## The views of a document -/

def items (document : Json) : List Json := document.list?.getD []

/-- An entry without Compose labels. -/
def Unlabelled (entry : Object) : Prop :=
  (get (labelsOf entry) "com.docker.compose.project").isNull = true ∧
    (get (labelsOf entry) "com.docker.compose.service").isNull = true

instance (entry : Object) : Decidable (Unlabelled entry) := inferInstanceAs (Decidable (_ ∧ _))

/-- A container resource shows the name, project and service of its entry. -/
def ShownAs (entry : Object) (r : DriverResource) : Prop :=
  r.name = displayOf entry ∧ r.project = some (projectOf entry) ∧ r.service = serviceOf entry

/-- The three views are one partition of the entries. -/
structure Consistent (document : Json) (v : Views) : Prop where
  total : v.containers.length = (items document).length
  shown : List.Forall₂ ShownAs (entries document) v.containers
  projectTotal : (v.projects.map count).sum = (items document).length
  serviceTotal : (v.services.map count).sum =
    (entries document).countP fun entry => ¬ Unlabelled entry
  service : ∀ r ∈ v.services,
    r.containerCount = some (members v r.project r.service).length ∧
      Summary ((members v r.project r.service).map DriverResource.state) r.state ∧
      Summary ((members v r.project r.service).map DriverResource.image) r.image
  project : ∀ r ∈ v.projects, r.project ≠ some orphans →
    r.containerCount = some ((v.services.filter fun s => s.project = r.project).map count).sum
  orphan : List.Forall₂ (fun entry r => Unlabelled entry ↔ r.project = some orphans)
    (entries document) v.containers
  orphanTotal : ∀ r ∈ v.projects, r.project = some orphans →
    r.containerCount = some ((entries document).countP fun entry => Unlabelled entry)
  covered : ∀ r ∈ v.containers, (∃ p ∈ v.projects, p.project = r.project) ∧
    (r.service ≠ none → ∃ s ∈ v.services, s.project = r.project ∧ s.service = r.service)
  servicesDistinct : (v.services.map fun r => (r.project, r.service)).Nodup
  projectsDistinct : (v.projects.map DriverResource.project).Nodup

/-- The views that are made of containers. -/
def viewsOf (reference : Str) (containers : List Container) : Views :=
  ⟨containers.map (containerResource reference), serviceResources reference containers,
    projectResources reference containers⟩

theorem members_viewsOf (reference : Str) (containers : List Container) (key : Str × Str) :
    members (viewsOf reference containers) (some key.1) (some key.2) =
      (ofService containers key).map (containerResource reference) := by
  rw [members, viewsOf, ofService, List.filter_map]
  refine congrArg _ (List.filter_congr fun c _ => ?_)
  by_cases hp : c.project = key.1 <;> by_cases hs : c.service = some key.2 <;>
    simp [containerResource, hp, hs]

theorem countP_of_forall₂ {α β : Type} {R : α → β → Prop} {p : α → Bool} {q : β → Bool} {l : List α}
    {r : List β} (h : List.Forall₂ R l r) (hpq : ∀ a b, R a b → p a = q b) : l.countP p = r.countP q := by
  induction h with
  | nil => rfl
  | cons hab _ ih => rw [List.countP_cons, List.countP_cons, ih, hpq _ _ hab]

section Python

variable [Python]

theorem inventory_ok_iff {document : Json} {containers : List Container} :
    inventory document = .ok containers ↔ document.list? ≠ none ∧
      (items document).length ≤ maxContainers ∧
      List.Forall₂ (fun item c => entryContainer item = .ok c) (items document) containers := by
  simp only [inventory, bind_ok_iff, require_ok_iff, mapM_ok_iff, items]
  cases document.list? with
  | none => simp
  | some items => simp

/-- A container has a service exactly if its entry has labels. -/
theorem unlabelled_iff {entry : Object} {c : Container} (h : containerFromList entry = .ok c) :
    Unlabelled entry ↔ c.service = none := by
  obtain ⟨_, _, labels, -, -, hlabels, -, -, -, hidentity⟩ := containerFromList_ok h
  have hl : labelsOf entry = labels := by rw [labelsOf, Json.dictOrEmpty, hlabels, Option.getD_some]
  rw [Unlabelled, hl]
  rcases composeIdentity_ok hidentity with ⟨-, hs, hnp, hns⟩ | ⟨s, hs, hp, -, -⟩
  · simp [hs, hnp, hns]
  · rw [hs]
    refine iff_of_false ?_ (Option.some_ne_none s)
    intro hnull
    rw [Json.str?_of_isNull hnull.1] at hp
    cases hp

/-- The three unfiltered queries are answered from the document with these views. -/
def Shown (reference : Str) (document : Json) (v : Views) : Prop :=
  queryDocument reference (.all .container) document = .ok v.containers ∧
    queryDocument reference (.all .service) document = .ok v.services ∧
    queryDocument reference (.all .project) document = .ok v.projects

theorem shown_viewsOf {document : Json} {containers : List Container}
    (h : inventory document = .ok containers) (reference : Str) :
    Shown reference document (viewsOf reference containers) :=
  ⟨queryDocument_ok_iff.mpr ⟨containers, _, h, rfl, by simp; rfl⟩,
    queryDocument_ok_iff.mpr ⟨containers, _, h, rfl, by simp; rfl⟩,
    queryDocument_ok_iff.mpr ⟨containers, _, h, rfl, by simp; rfl⟩⟩

theorem eq_viewsOf_of_shown {reference : Str} {document : Json} {v : Views}
    (h : Shown reference document v) :
    ∃ containers, inventory document = .ok containers ∧ v = viewsOf reference containers := by
  obtain ⟨hcontainers, hservices, hprojects⟩ := h
  obtain ⟨containers, _, hd, -, -⟩ := queryDocument_ok_iff.mp hcontainers
  obtain ⟨hc, hs, hp⟩ := shown_viewsOf hd reference
  refine ⟨containers, hd, ?_⟩
  obtain ⟨_, _, _⟩ := v
  obtain rfl := Except.ok.inj (hcontainers.symm.trans hc)
  obtain rfl := Except.ok.inj (hservices.symm.trans hs)
  obtain rfl := Except.ok.inj (hprojects.symm.trans hp)
  rfl

section Consistency

variable {document : Json} {containers : List Container} (h : inventory document = .ok containers)

include h

theorem length_containers : containers.length = (items document).length :=
  ((inventory_ok_iff.mp h).2.2.length_eq).symm

theorem countP_unlabelled : ((entries document).countP fun entry => Unlabelled entry) =
    containers.countP fun c => c.service = none :=
  countP_of_forall₂ (inventory_ok h) fun entry c he => by simp [unlabelled_iff he]

theorem countP_labelled : ((entries document).countP fun entry => ¬ Unlabelled entry) =
    containers.countP fun c => c.service.isSome :=
  countP_of_forall₂ (inventory_ok h) fun entry c he => by
    cases hs : c.service <;> simp [unlabelled_iff he, hs]

/-- Each project but that of the unlabelled containers counts what its services count. -/
theorem project_eq_sum_services (reference : Str) {project : Str} (hproject : project ≠ orphans) :
    (ofProject containers project).length =
      (((serviceResources reference containers).filter fun s => s.project = some project).map count).sum := by
  have hservice : ∀ c ∈ containers, c.project = project → c.service ≠ none := by
    intro c hc hp hs
    exact hproject (hp ▸ (identified_of_inventory h c hc).orphan hs)
  have hkeys : ((serviceResources reference containers).filter fun s => s.project = some project) =
      ((serviceKeys containers).filter fun key => key.1 = project).map
        (serviceResource containers reference) := by
    rw [serviceResources_eq, List.filter_map]
    refine congrArg _ (List.filter_congr fun key _ => ?_)
    simp [serviceResource]
  rw [← sum_ofService hservice, hkeys, List.map_map]
  rfl

/-- The project of the unlabelled containers counts just these. -/
theorem orphans_eq_unlabelled : (ofProject containers orphans).length =
    (entries document).countP fun entry => Unlabelled entry := by
  rw [countP_unlabelled h, ofProject, ← List.countP_eq_length_filter]
  refine List.countP_congr fun c hc => ?_
  simp [(identified_of_inventory h c hc).project_eq_orphans_iff]

/-- The containers are shown as the entries, in their order. -/
theorem shownAs_viewsOf (reference : Str) :
    List.Forall₂ ShownAs (entries document) (viewsOf reference containers).containers := by
  apply List.forall₂_map_right_iff.mpr
  refine (inventory_ok h).imp fun entry c he => ?_
  obtain ⟨-, -, hname, hproject, hservice⟩ := read_of_containerFromList he
  exact ⟨hname, congrArg some hproject, hservice⟩

theorem unlabelled_viewsOf (reference : Str) :
    List.Forall₂ (fun entry r => Unlabelled entry ↔ r.project = some orphans) (entries document)
      (viewsOf reference containers).containers := by
  apply List.forall₂_map_right_iff.mpr
  refine (inventory_ok h).imp fun entry c he => ?_
  obtain ⟨hc, -⟩ := read_of_containerFromList he
  rw [unlabelled_iff he, ← hc.project_eq_orphans_iff]
  exact (Option.some.injEq _ _).to_iff.symm

omit h [Python] in
/-- A service is an aggregate of its members. -/
theorem aggregate_viewsOf (reference : Str) {r : DriverResource} (hr : r ∈ (viewsOf reference containers).services) :
    r.containerCount = some (members (viewsOf reference containers) r.project r.service).length ∧
      Summary ((members (viewsOf reference containers) r.project r.service).map DriverResource.state) r.state ∧
      Summary ((members (viewsOf reference containers) r.project r.service).map DriverResource.image) r.image := by
  rw [viewsOf, serviceResources_eq] at hr
  obtain ⟨key, -, rfl⟩ := List.mem_map.mp hr
  have hmembers : members (viewsOf reference containers) (serviceResource containers reference key).project
      (serviceResource containers reference key).service =
        (ofService containers key).map (containerResource reference) :=
    members_viewsOf reference containers key
  rw [hmembers, List.length_map, List.map_map, List.map_map]
  exact ⟨rfl, aggregate_summary _, aggregate_summary _⟩

omit h [Python] in
/-- A container has its project, and its service if it has one. -/
theorem covered_viewsOf (reference : Str) {r : DriverResource} (hr : r ∈ (viewsOf reference containers).containers) :
    (∃ p ∈ (viewsOf reference containers).projects, p.project = r.project) ∧
      (r.service ≠ none →
        ∃ s ∈ (viewsOf reference containers).services, s.project = r.project ∧ s.service = r.service) := by
  obtain ⟨c, hc, rfl⟩ := List.mem_map.mp hr
  rw [viewsOf, serviceResources_eq, projectResources_eq]
  constructor
  · exact ⟨_, List.mem_map_of_mem (mem_projectKeys.mpr ⟨c, hc, rfl⟩), rfl⟩
  · intro hservice
    obtain ⟨s, hs⟩ := Option.ne_none_iff_exists'.mp hservice
    have hkey : (c.project, s) ∈ serviceKeys containers := mem_serviceKeys.mpr ⟨c, hc, rfl, hs⟩
    exact ⟨_, List.mem_map_of_mem hkey, rfl, hs.symm⟩

/-- The views of the containers of a document are one partition of its entries. -/
theorem consistent_viewsOf (reference : Str) : Consistent document (viewsOf reference containers) := by
  constructor
  case total => rw [viewsOf, List.length_map, length_containers h]
  case shown => exact shownAs_viewsOf h reference
  case projectTotal =>
    rw [← length_containers h, ← sum_ofProject, viewsOf, projectResources_eq, List.map_map]
    rfl
  case serviceTotal =>
    rw [countP_labelled h, ← sum_ofService_all, viewsOf, serviceResources_eq, List.map_map]
    rfl
  case service => exact fun r hr => aggregate_viewsOf reference hr
  case project =>
    intro r hr hproject
    rw [viewsOf, projectResources_eq] at hr
    obtain ⟨project, -, rfl⟩ := List.mem_map.mp hr
    exact congrArg some (project_eq_sum_services h reference fun he => hproject (congrArg some he))
  case orphan => exact unlabelled_viewsOf h reference
  case orphanTotal =>
    intro r hr hproject
    rw [viewsOf, projectResources_eq] at hr
    obtain ⟨project, -, rfl⟩ := List.mem_map.mp hr
    obtain rfl : project = orphans := Option.some.inj hproject
    exact congrArg some (orphans_eq_unlabelled h)
  case covered => exact fun r hr => covered_viewsOf reference hr
  case servicesDistinct =>
    rw [viewsOf, serviceResources_eq, List.map_map]
    refine (Dict.nodup_keys _).map fun key key' he => ?_
    simpa [serviceResource, Prod.ext_iff] using he
  case projectsDistinct =>
    rw [viewsOf, projectResources_eq, List.map_map]
    exact (Dict.nodup_keys _).map fun project project' he => Option.some.inj he

/-- Permuting the entries permutes the containers read from them. -/
theorem inventory_perm {rearranged : List Json} (hperm : rearranged.Perm (items document)) :
    ∃ containers', inventory (.arr rearranged) = .ok containers' ∧ containers'.Perm containers := by
  obtain ⟨-, hlength, hread⟩ := inventory_ok_iff.mp h
  obtain ⟨containers', hread', hcontainers⟩ := List.perm_comp_forall₂ hperm hread
  refine ⟨containers', inventory_ok_iff.mpr ⟨nofun, ?_, hread'⟩, hcontainers⟩
  rw [← hperm.length_eq] at hlength
  exact hlength

end Consistency

/-- Some query of the document is answered. -/
def Accepted (reference : Str) (document : Json) : Prop :=
  ∃ query resources, queryDocument reference query document = .ok resources

/-- The three views are answered, consistent, and the same up to order however the entries
are arranged. -/
def Partitioned (reference : Str) (document : Json) : Prop :=
  ∃ v, Shown reference document v ∧ Consistent document v ∧
    ∀ rearranged : List Json, rearranged.Perm (items document) →
      ∃ v', Shown reference (.arr rearranged) v' ∧ v'.containers.Perm v.containers ∧
        v'.services.Perm v.services ∧ v'.projects.Perm v.projects

theorem partitioned_of_accepted {reference : Str} {document : Json} (h : Accepted reference document) :
    Partitioned reference document := by
  obtain ⟨query, resources, hq⟩ := h
  obtain ⟨containers, _, hd, -, -⟩ := queryDocument_ok_iff.mp hq
  refine ⟨viewsOf reference containers, shown_viewsOf hd reference, consistent_viewsOf hd reference, ?_⟩
  intro rearranged hperm
  obtain ⟨containers', hd', hcontainers⟩ := inventory_perm hd hperm
  exact ⟨viewsOf reference containers', shown_viewsOf hd' reference, hcontainers.map _,
    serviceResources_perm hcontainers reference, projectResources_perm hcontainers reference⟩

end Python

/-- Two containers of one service, which are in different states, and an unlabelled one. -/
def mixed : Json :=
  .arr [entry "0123456789ab" "/web-1" "running" labels, entry "123456789abc" "/web-2" "exited" labels,
    entry "23456789abcd" "/tool" "running" []]
where
  labels : List (Str × Json) := [(lit "com.docker.compose.project", .str (lit "shop")),
    (lit "com.docker.compose.service", .str (lit "web"))]
  entry (id name state : String) (labels : List (Str × Json)) : Json :=
    .obj [(lit "Id", .str (lit id)), (lit "Names", .arr [.str (lit name)]),
      (lit "State", .str (lit state)), (lit "Labels", .obj labels)]

def mixedContainers : List Container :=
  [web "0123456789ab" "web-1" "running", web "123456789abc" "web-2" "exited",
    ⟨lit "23456789abcd", lit "tool", lit "tool", orphans, none, some (lit "running"), none⟩]
where
  web (id name state : String) : Container :=
    ⟨lit id, lit name, lit name, lit "shop", some (lit "web"), some (lit state), none⟩

theorem inventory_mixed : @inventory Python.ascii mixed = .ok mixedContainers := by decide +kernel

theorem partitioned_of_accepted_mixed : @Partitioned Python.ascii (lit "local") mixed :=
  @partitioned_of_accepted Python.ascii (lit "local") mixed
    ⟨_, _, (@shown_viewsOf Python.ascii _ _ inventory_mixed (lit "local")).1⟩

end MiraDriver.Partition
