import MiraDriver.Docker

/-!
# Totals of a stats document

Network and block counters are added up over the entries of a document. A total is right
if every entry that belongs to it has been counted; entries of an unknown shape are left
out of the sums, so this is a condition on the document.
-/
namespace MiraDriver.Stats

open MiraDriver.Text MiraDriver.Mapping MiraDriver.Base MiraDriver.Document MiraDriver.Docker

/-- A total is reported only if every part is known, and is then their sum. -/
def ExactOrAbsent (parts : List (Option Int)) (total : Option Int) : Prop :=
  ∀ n, total = some n → ∃ values : List Int, parts = values.map some ∧ n = values.sum

theorem exactOrAbsent_none (parts : List (Option Int)) : ExactOrAbsent parts none := nofun

/-- Parts without an unknown one are those known. -/
theorem eq_map_some_filterMap {parts : List (Option Int)} (h : ∀ p ∈ parts, p.isSome = true) :
    parts = (parts.filterMap id).map some := by
  induction parts with
  | nil => rfl
  | cons p parts ih =>
    obtain ⟨v, rfl⟩ := Option.isSome_iff_exists.mp (h p List.mem_cons_self)
    rw [List.filterMap_cons_some (l := parts) (id_eq (some v)), List.map_cons,
      ← ih fun q hq => h q (List.mem_cons_of_mem _ hq)]

/-- The sum of the known parts is exact only where none is unknown. -/
theorem exactOrAbsent_sum_iff {parts : List (Option Int)} :
    ExactOrAbsent parts (some (parts.filterMap id).sum) ↔ ∀ p ∈ parts, p.isSome = true := by
  constructor
  · intro h p hp
    obtain ⟨values, rfl, -⟩ := h _ rfl
    obtain ⟨v, -, rfl⟩ := List.mem_map.mp hp
    rfl
  · intro h n hn
    obtain rfl := Option.some.inj hn
    exact ⟨parts.filterMap id, eq_map_some_filterMap h, rfl⟩

/-! ## Networks -/

def interfaces (document : Object) : List Json := (get document "networks").dictOrEmpty.values

/-- The counter of an interface, if it is an object that has one. -/
def interfaceCounter (counter : String) (entry : Json) : Option Int :=
  entry.dict?.bind fun entry => safeCounter (get entry counter)

/-- The interfaces are all objects, or none is, or one that is lacks the counter. -/
def InterfacesWhole (document : Object) (counter : String) : Prop :=
  (∀ entry ∈ interfaces document, entry.dict?.isSome = true) ∨
    (∀ entry ∈ interfaces document, entry.dict? = none) ∨
      ∃ entry ∈ interfaces document, entry.dict?.isSome = true ∧ interfaceCounter counter entry = none

/-- The counters of the interfaces that are objects. -/
def objectCounters (document : Object) (counter : String) : List (Option Int) :=
  ((interfaces document).filterMap Json.dict?).map fun v => safeCounter (get v counter)

theorem mem_objectCounters {document : Object} {counter : String} {v : Option Int} :
    v ∈ objectCounters document counter ↔ ∃ entry ∈ interfaces document,
      entry.dict?.isSome = true ∧ interfaceCounter counter entry = v := by
  simp only [objectCounters, List.mem_map, List.mem_filterMap, interfaceCounter]
  constructor
  · rintro ⟨o, ⟨entry, hentry, ho⟩, rfl⟩
    exact ⟨entry, hentry, by simp [ho]⟩
  · rintro ⟨entry, hentry, ho, rfl⟩
    obtain ⟨o, ho⟩ := Option.isSome_iff_exists.mp ho
    exact ⟨o, ⟨entry, hentry, ho⟩, by simp [ho]⟩

theorem networkTotal_eq (document : Object) (counter : String) :
    networkTotal document counter =
      if objectCounters document counter ≠ [] ∧
          ∀ v ∈ objectCounters document counter, v.isSome = true then
        some (((interfaces document).map (interfaceCounter counter)).filterMap id).sum
      else none := by
  have hsum : (objectCounters document counter).filterMap id =
      ((interfaces document).map (interfaceCounter counter)).filterMap id := by
    simp only [objectCounters, List.filterMap_map, List.filterMap_filterMap]
    rfl
  rw [← hsum]
  cases hd : (get document "networks").dict? with
  | none => simp [networkTotal, hd, objectCounters, interfaces, Json.dictOrEmpty, Dict.values, Dict.empty]
  | some networks =>
    have hcounters : objectCounters document counter =
        (networks.values.filterMap Json.dict?).map fun v => safeCounter (get v counter) := by
      rw [objectCounters, interfaces, Json.dictOrEmpty, hd, Option.getD_some]
    simp only [networkTotal, hd, ← hcounters, Bool.and_eq_true, decide_eq_true_eq, List.all_eq_true]

/-- The total of a network counter is exact or absent just where the interfaces are whole. -/
theorem networkTotal_exact_iff (document : Object) (counter : String) :
    ExactOrAbsent ((interfaces document).map (interfaceCounter counter))
      (networkTotal document counter) ↔ InterfacesWhole document counter := by
  rw [networkTotal_eq]
  split
  · rename_i hreported
    obtain ⟨hne, hknown⟩ := hreported
    rw [exactOrAbsent_sum_iff, List.forall_mem_map]
    constructor
    · intro hall
      left
      intro entry hentry
      obtain ⟨n, hn⟩ := Option.isSome_iff_exists.mp (hall entry hentry)
      obtain ⟨o, ho, -⟩ := Option.bind_eq_some_iff.mp hn
      exact Option.isSome_of_eq_some ho
    · rintro (hobjects | hnone | ⟨entry, hentry, ho, hbad⟩)
      · intro entry hentry
        exact hknown _ (mem_objectCounters.mpr ⟨entry, hentry, hobjects entry hentry, rfl⟩)
      · obtain ⟨v, hv⟩ := List.exists_mem_of_ne_nil _ hne
        obtain ⟨entry, hentry, ho, -⟩ := mem_objectCounters.mp hv
        simp [hnone entry hentry] at ho
      · have hsome := hknown _ (mem_objectCounters.mpr ⟨entry, hentry, ho, rfl⟩)
        simp [hbad] at hsome
  · rename_i habsent
    refine iff_of_true (exactOrAbsent_none _) (.inr ?_)
    by_cases hne : objectCounters document counter = []
    · left
      intro entry hentry
      by_contra ho
      have hmem : interfaceCounter counter entry ∈ objectCounters document counter :=
        mem_objectCounters.mpr ⟨entry, hentry, Option.isSome_iff_ne_none.mpr ho, rfl⟩
      rw [hne] at hmem
      exact List.not_mem_nil hmem
    · right
      have hunknown : ¬ ∀ v ∈ objectCounters document counter, v.isSome = true :=
        fun h => habsent ⟨hne, h⟩
      push Not at hunknown
      obtain ⟨v, hv, hnone⟩ := hunknown
      obtain ⟨entry, hentry, ho, rfl⟩ := mem_objectCounters.mp hv
      exact ⟨entry, hentry, ho, by simpa using hnone⟩

/-! ## Block devices -/

section Python

variable [Python]

def blockItems (document : Object) : List Json :=
  ((get (get document "blkio_stats").dictOrEmpty "io_service_bytes_recursive").list?).getD []

/-- What an entry adds to the total of an operation: nothing where it is well formed and of
another operation, and an unknown value where it is malformed. -/
def blockPart (operation : String) (entry : Json) : Option (Option Int) :=
  match entry.dict? with
  | none => some none
  | some entry =>
    match (get entry "op").str? with
    | none => some none
    | some op => if lower op = lit operation then some (safeCounter (get entry "value")) else none

def blockParts (document : Object) (operation : String) : List (Option Int) :=
  (blockItems document).filterMap (blockPart operation)

/-- What is to be added up for the operation is all known or all unknown. -/
def BlockWhole (document : Object) (operation : String) : Prop :=
  (∀ p ∈ blockParts document operation, p.isSome = true) ∨
    ∀ p ∈ blockParts document operation, p = none

theorem blockValue_eq (operation : String) (entry : Json) :
    blockValue operation entry = (blockPart operation entry).bind id := by
  unfold blockValue blockPart
  cases entry.dict? with
  | none => rfl
  | some entry =>
    cases hop : (get entry "op").str? with
    | none => simp [hop]
    | some op =>
      cases hvalue : safeCounter (get entry "value") with
      | none => by_cases h : lower op = lit operation <;> simp [hop, hvalue, h]
      | some value => by_cases h : lower op = lit operation <;> simp [hop, hvalue, h]

theorem blockTotal_eq (document : Object) (operation : String) :
    blockTotal document operation =
      if (blockParts document operation).filterMap id = [] then none
      else some ((blockParts document operation).filterMap id).sum := by
  have hvalues : (blockItems document).filterMap (blockValue operation) =
      (blockParts document operation).filterMap id := by
    rw [blockParts, List.filterMap_filterMap]
    exact List.filterMap_congr fun entry _ => blockValue_eq operation entry
  rw [← hvalues]
  unfold blockTotal blockItems Json.dictOrEmpty
  cases (get document "blkio_stats").dict? with
  | none => simp [Document.get, Json.list?]
  | some blkio =>
    cases hitems : (get blkio "io_service_bytes_recursive").list? with
    | none => simp [hitems]
    | some items => simp [hitems]

/-- The total of a block operation is exact or absent just where the entries are whole. -/
theorem blockTotal_exact_iff (document : Object) (operation : String) :
    ExactOrAbsent (blockParts document operation) (blockTotal document operation) ↔
      BlockWhole document operation := by
  have hunknown : (blockParts document operation).filterMap id = [] ↔
      ∀ p ∈ blockParts document operation, p = none := by simp
  rw [blockTotal_eq]
  split
  · rename_i hnil
    exact iff_of_true (exactOrAbsent_none _) (.inr (hunknown.mp hnil))
  · rename_i hne
    rw [exactOrAbsent_sum_iff, BlockWhole, ← hunknown]
    exact (or_iff_left hne).symm

/-! ## Documents -/

/-- None of the four totals is a part of the real one. -/
structure TotalsExact (document : Object) (stats : DriverContainerStats) : Prop where
  networkRx : ExactOrAbsent ((interfaces document).map (interfaceCounter "rx_bytes"))
    stats.networkRxBytes
  networkTx : ExactOrAbsent ((interfaces document).map (interfaceCounter "tx_bytes"))
    stats.networkTxBytes
  blockRead : ExactOrAbsent (blockParts document "read") stats.blockReadBytes
  blockWrite : ExactOrAbsent (blockParts document "write") stats.blockWriteBytes

/-- The document is whole for each of the totals. -/
structure Whole (document : Object) : Prop where
  networkRx : InterfacesWhole document "rx_bytes"
  networkTx : InterfacesWhole document "tx_bytes"
  blockRead : BlockWhole document "read"
  blockWrite : BlockWhole document "write"

theorem totalsExact_iff {uri : Str} {document : Object} {stats : DriverContainerStats}
    (h : statsFromDocument uri document = .ok stats) : TotalsExact document stats ↔ Whole document := by
  obtain ⟨readAt, -, hstats⟩ := Base.bind_ok_iff.mp h
  obtain rfl := Except.ok.inj hstats
  have hrx := networkTotal_exact_iff document "rx_bytes"
  have htx := networkTotal_exact_iff document "tx_bytes"
  have hread := blockTotal_exact_iff document "read"
  have hwrite := blockTotal_exact_iff document "write"
  constructor
  · rintro ⟨hr, ht, hb, hw⟩
    exact ⟨hrx.mp hr, htx.mp ht, hread.mp hb, hwrite.mp hw⟩
  · rintro ⟨hr, ht, hb, hw⟩
    exact ⟨hrx.mpr hr, htx.mpr ht, hread.mpr hb, hwrite.mpr hw⟩

end Python

/-- One interface is counted and the other, which is no object, is left out. -/
def uncountedDocument : Object := Dict.ofList [(lit "networks", .obj
  [(lit "eth0", .obj [(lit "rx_bytes", .int 5)]), (lit "eth1", .int 7)])]

def uncountedStats : DriverContainerStats where
  uri := lit "env://local"
  readAt := none
  cpuTotalNs := none
  cpuSystemNs := none
  onlineCpus := none
  memoryUsageBytes := none
  memoryLimitBytes := none
  networkRxBytes := some 5
  networkTxBytes := none
  blockReadBytes := none
  blockWriteBytes := none

theorem statsFromDocument_uncounted :
    @statsFromDocument Python.ascii (lit "env://local") uncountedDocument = .ok uncountedStats := by
  decide +kernel

theorem totalsExact_iff_uncounted :
    @TotalsExact Python.ascii uncountedDocument uncountedStats ↔ @Whole Python.ascii uncountedDocument :=
  @totalsExact_iff Python.ascii (lit "env://local") uncountedDocument uncountedStats
    statsFromDocument_uncounted

/-- The five bytes of one interface are reported as the total of both. -/
theorem not_totalsExact_uncounted :
    @statsFromDocument Python.ascii (lit "env://local") uncountedDocument = .ok uncountedStats ∧
      ¬ @TotalsExact Python.ascii uncountedDocument uncountedStats := by
  refine ⟨statsFromDocument_uncounted, ?_⟩
  intro hexact
  obtain ⟨values, hparts, -⟩ := @TotalsExact.networkRx Python.ascii _ _ hexact 5 rfl
  have hunknown : none ∈ (interfaces uncountedDocument).map (interfaceCounter "rx_bytes") := by
    decide +kernel
  rw [hparts] at hunknown
  simp at hunknown

end MiraDriver.Stats
