import MiraDriver.Reporter
import MiraDriver.Dumps

/-!
# The report to mirarun

`MirarunReportSink`, and the rules of the receiver, which refuses a whole report for one bad
field of one container.
-/
namespace MiraDriver.Sinks

open MiraDriver.Text MiraDriver.Base MiraDriver.Program MiraDriver.Document MiraDriver.Uri
  MiraDriver.Identity MiraDriver.Inventory MiraDriver.Inspect MiraDriver.Http MiraDriver.Runner
  MiraDriver.Cycle MiraDriver.Lifecycle MiraDriver.Reporter MiraDriver.Dumps

def maxReportResources : Nat := 10000

def maxReportBodyBytes : Nat := 8 * 1024 * 1024

def maxReportedPortChars : Nat := 256

/-- What a sink raises: its own exception, or one that comes out of the client. -/
inductive PublishError where
  | sinkPublishError (message : Str)
  | exception (name : Str)
  deriving DecidableEq, Repr

structure Post where
  url : Str
  content : List UInt8
  headers : List (Str × Str)
  deriving DecidableEq, Repr

inductive PostReply where
  /-- `httpx.RequestError`. -/
  | requestError
  /-- Any other exception. -/
  | exception (name : Str)
  | response (status : Nat) (text : Str)
  deriving DecidableEq, Repr

abbrev posts : Interface := ⟨Post, fun _ => PostReply⟩

/-- `_post_json`, of a payload that is encoded: the status and the text of the response. -/
def postJson (url token : Str) (content : List UInt8) : Prog posts PublishError (Nat × Str) := do
  let reply ← Prog.ask (I := posts) ⟨url, content, [(lit "Authorization", lit "Bearer " ++ token),
    (lit "Content-Type", lit "application/json")]⟩
  match reply with
  | .requestError => throw (.sinkPublishError (lit "destination is unreachable: " ++ url))
  | .exception name => throw (.exception name)
  | .response status text => pure (status, text)

def strOrNull : Option Str → Value
  | some s => .str s
  | none => .null

/-- The fields that are left out where they are None. -/
def optionalFields (details : DriverResourceDetails) : List (Str × Option Value) :=
  [(lit "service", details.resource.service.map .str), (lit "state", details.resource.state.map .str),
    (lit "image", details.resource.image.map .str), (lit "created_at", details.createdAt.map .str),
    (lit "health", details.health.map .str), (lit "restart_count", details.restartCount.map .int)]

/-- `_reported_resource`. -/
def reportedResource (observation : ContainerObservation) : Members :=
  let details := observation.details
  [(lit "uri", .str details.resource.uri), (lit "name", .str details.resource.name),
    (lit "project", strOrNull details.resource.project),
    (lit "ports", .strs (details.ports.map (·.take maxReportedPortChars))),
    (lit "networks", .strs details.networks)] ++
    (optionalFields details).filterMap fun field => field.2.map (field.1, ·)

/-- The resources of a report. -/
def reported (snapshot : DriverSnapshot) : List Members :=
  (snapshot.containers.filter fun o => o.details.resource.resourceType = .container).map
    reportedResource

/-- `json.dumps({"resources": resources})`. -/
def reportText (resources : List Members) : Str :=
  '{' :: (dumpsStr (lit "resources") ++ ':' :: ' ' :: '[' ::
    (joined (resources.map dumpsObject) ++ [']', '}']))

def reportBody (resources : List Members) : List UInt8 := Utf8.encode (reportText resources)

structure MirarunReportSink where
  reportUrl : Str
  token : Str
  deriving DecidableEq, Repr

/-- `publish`. -/
def MirarunReportSink.publish (sink : MirarunReportSink) (snapshot : DriverSnapshot) :
    Prog posts PublishError Unit :=
  let resources := reported snapshot
  if resources.length > maxReportResources then
    throw (.sinkPublishError (lit "inventory exceeds mirarun's per-report resource cap"))
  else if (reportBody resources).length > maxReportBodyBytes then
    throw (.sinkPublishError (lit "report body exceeds mirarun's size cap"))
  else do
    let (status, text) ← postJson sink.reportUrl sink.token (reportBody resources)
    if status ≠ 204 then
      throw (.sinkPublishError (lit "mirarun rejected the report: HTTP " ++
        (Nat.repr status).toList ++ ' ' :: text.take 200))
    else pure ()

/-! ## The contract -/

/-- The fields that the receiver knows. -/
def reportFields : List Str :=
  [lit "uri", lit "name", lit "project", lit "service", lit "state", lit "image", lit "created_at",
    lit "health", lit "restart_count", lit "ports", lit "networks"]

/-- Those of them that are optional strings. -/
def optionalStringFields : List Str :=
  [lit "service", lit "state", lit "image", lit "created_at", lit "health"]

/-- The rules for one resource. -/
structure Admissible [Python] (resource : Members) : Prop where
  known : ∀ m ∈ resource, m.1 ∈ reportFields
  uri : ∀ v, (lit "uri", v) ∈ resource →
    ∃ s a, v = .str s ∧ parseDockerUri s = .ok a ∧ a.container ≠ none
  notNull : ∀ m ∈ resource, m.2 ≠ .null
  filled : ∀ m ∈ resource, m.1 ∈ optionalStringFields → ∃ s, m.2 = .str s ∧ s ≠ []
  ports : ∀ v, (lit "ports", v) ∈ resource →
    ∃ ports, v = .strs ports ∧ ∀ p ∈ ports, p.length ≤ maxReportedPortChars

/-- The rules for a report. -/
structure AcceptedBody [Python] (content : List UInt8) (resources : List Members) : Prop where
  encoded : content = reportBody resources
  few : resources.length ≤ maxReportResources
  short : content.length ≤ maxReportBodyBytes
  admissible : ∀ resource ∈ resources, Admissible resource

/-- The sink raises before it has made a request, or posts a report within the rules. -/
def KeepsContract [Python] (t : List (Exchange posts)) (x : Except PublishError Unit) : Prop :=
  (t = [] ∧ ∃ m, x = .error (.sinkPublishError m)) ∨
    ∃ post reply resources, t = [⟨post, reply⟩] ∧ AcceptedBody post.content resources

/-- A report is too long, and not made. -/
def OverCap (snapshot : DriverSnapshot) : Prop :=
  maxReportResources < (reported snapshot).length ∨
    maxReportBodyBytes < (reportBody (reported snapshot)).length

/-- The optional strings that are known of a container. -/
def optionalStrings (details : DriverResourceDetails) : List (Option Str) :=
  [details.resource.service, details.resource.state, details.resource.image, details.createdAt,
    details.health]

/-- No optional string of a container is empty. -/
def Filled (snapshot : DriverSnapshot) : Prop :=
  ∀ o ∈ snapshot.containers, o.details.resource.resourceType = .container →
    some [] ∉ optionalStrings o.details

/-- The body of a report tells its resources. -/
theorem reportBody_inj {a b : List Members} (h : reportBody a = reportBody b) : a = b := by
  have htext : reportText a = reportText b := by
    rw [← Utf8.decode_encode (reportText a), ← Utf8.decode_encode (reportText b)]
    exact congrArg Utf8.decode h
  simp only [reportText, List.cons.injEq, true_and, List.append_cancel_left_eq] at htext
  exact (joined_inj (by simp) (fun a b r s _ _ => dumpsObject_inj) (dumpsObject_ne (by decide)) htext).1

theorem exec_postJson {url token : Str} {content : List UInt8} {t : List (Exchange posts)}
    {x : Except PublishError (Nat × Str)} (h : (postJson url token content).Exec t x) :
    ∃ post reply, t = [⟨post, reply⟩] ∧ post.content = content := by
  obtain ⟨reply, s, rfl, hrest⟩ := h
  refine ⟨_, reply, ?_, rfl⟩
  cases reply with
  | requestError => rw [hrest.1]
  | exception name => rw [hrest.1]
  | response status text => rw [hrest.1]

/-- A sink that looks at the response and asks for nothing more makes this one request. -/
theorem exec_postJson_bind {url token : Str} {content : List UInt8}
    {f : Nat × Str → Prog posts PublishError Unit} (hf : ∀ response u y, (f response).Exec u y → u = [])
    {t : List (Exchange posts)} {x : Except PublishError Unit}
    (h : (postJson url token content >>= f).Exec t x) :
    ∃ post reply, t = [⟨post, reply⟩] ∧ post.content = content := by
  obtain ⟨t₁, t₂, y, rfl, hpost, hrest⟩ := Prog.exec_bind_outcome h
  obtain ⟨post, reply, rfl, hcontent⟩ := exec_postJson hpost
  refine ⟨post, reply, ?_, hcontent⟩
  cases y with
  | error e => rw [hrest.1, List.append_nil]
  | ok response => rw [hf response t₂ x hrest, List.append_nil]

/-- The sink makes one request, or none if the report is too long. -/
theorem exec_publish {sink : MirarunReportSink} {snapshot : DriverSnapshot}
    {t : List (Exchange posts)} {x : Except PublishError Unit} (h : (sink.publish snapshot).Exec t x) :
    (OverCap snapshot ∧ t = [] ∧ ∃ m, x = .error (.sinkPublishError m)) ∨
      (¬ OverCap snapshot ∧ ∃ post reply, t = [⟨post, reply⟩] ∧
        post.content = reportBody (reported snapshot)) := by
  unfold MirarunReportSink.publish at h
  dsimp only at h
  split at h
  · rename_i hmany
    exact .inl ⟨.inl hmany, h.1, _, h.2⟩
  · rename_i hfew
    split at h
    · rename_i hlong
      exact .inl ⟨.inr hlong, h.1, _, h.2⟩
    · rename_i hshort
      refine .inr ⟨not_or.mpr ⟨hfew, hshort⟩, ?_⟩
      refine exec_postJson_bind ?_ h
      intro response u y hend
      split at hend
      · exact hend.1
      · exact hend.1

section Python

variable [Python]

/-- Whether a report is within the rules is a question of its resources. -/
theorem keepsContract_iff {sink : MirarunReportSink} {snapshot : DriverSnapshot}
    {t : List (Exchange posts)} {x : Except PublishError Unit} (h : (sink.publish snapshot).Exec t x) :
    KeepsContract t x ↔ OverCap snapshot ∨ ∀ resource ∈ reported snapshot, Admissible resource := by
  cases exec_publish h with
  | inl hover =>
    obtain ⟨hcap, rfl, hraised⟩ := hover
    exact iff_of_true (.inl ⟨rfl, hraised⟩) (.inl hcap)
  | inr hposted =>
    obtain ⟨hcap, post, reply, rfl, hcontent⟩ := hposted
    rw [or_iff_right hcap]
    constructor
    · rintro (⟨hnil, -⟩ | ⟨post', reply', resources, ht, haccepted⟩)
      · cases hnil
      · cases ht
        cases reportBody_inj (hcontent.symm.trans haccepted.encoded)
        exact haccepted.admissible
    · intro hall
      unfold OverCap at hcap
      push Not at hcap
      exact .inr ⟨post, reply, reported snapshot, rfl, hcontent, hcap.1, hcontent ▸ hcap.2, hall⟩

/-! ## What a runner reports -/

/-- The query behind the description of an aggregate shows no containers. -/
theorem aggregate_of_query {reference : Str} {address : DockerAddress} {document : Json}
    {resources : List DriverResource} {r : DriverResource}
    (h : queryDocument reference (Docker.aggregateQuery address) document = .ok resources)
    (hr : r ∈ resources) : r.resourceType ≠ .container := by
  obtain ⟨containers, listed, -, hview, rfl⟩ := queryDocument_ok_iff.mp h
  have hlisted : r ∈ listed := (List.mem_filter.mp hr).1
  unfold Docker.aggregateQuery at hview
  dsimp only at hview
  split at hview
  · obtain rfl := Except.ok.inj hview
    obtain ⟨_, _, _, _, -, htype, -⟩ := mem_serviceResources hlisted
    simp [htype]
  · obtain rfl := Except.ok.inj hview
    obtain ⟨_, _, -, htype, -⟩ := mem_projectResources hlisted
    simp [htype]

/-- A described container is one that an inspect document identifies, with labels that make
an address. -/
theorem exec_describe_container [Loads] {reference uri : Str} {t : List (Exchange http)}
    {details : DriverResourceDetails} (h : (Docker.describe reference uri).Exec t (.ok details))
    (hcontainer : details.resource.resourceType = .container) :
    ∃ c, Identified c ∧ c.SlashFree ∧ IsReference reference ∧
      details.resource = containerResource reference c := by
  obtain ⟨_, t, address, rfl, haddress, h⟩ := Prog.exec_bind_ok.mp h
  obtain ⟨hcanonical, -, hreference⟩ := ownAddress_ok_iff.mp ((Prog.exec_ofExcept _ _ _).mp haddress).2.symm
  have href : IsReference reference := hreference ▸ hcanonical.reference
  cases hname : address.container with
  | none =>
    -- an aggregate is described as what it is
    simp only [hname] at h
    obtain ⟨_, _, resources, rfl, hquery, hrest⟩ := Prog.exec_bind_ok.mp h
    obtain ⟨_, _, document, rfl, -, hview⟩ := Prog.exec_bind_ok.mp hquery
    have hresources := ((Prog.exec_ofExcept _ _ _).mp hview).2.symm
    split at hrest
    · rename_i resource
      obtain ⟨-, hout⟩ := hrest
      obtain rfl := Except.ok.inj hout
      exact absurd hcontainer (aggregate_of_query hresources List.mem_cons_self)
    · cases hrest.2
  | some name =>
    simp only [hname] at h
    obtain ⟨_, _, document, rfl, -, hrest⟩ := Prog.exec_bind_ok.mp h
    obtain ⟨inspect, c, hchecked, hresource⟩ :=
      describeDocument_resource ((Prog.exec_ofExcept _ _ _).mp hrest).2.symm
    obtain ⟨-, hread, hmatches⟩ := checkedInspect_ok_iff.mp hchecked
    obtain ⟨_, _, _, _, -, -, -, -, hidentified, -⟩ := containerFromInspect_ok hread
    obtain ⟨hproject, hservice, -⟩ := assertMatches_ok_iff.mp hmatches
    refine ⟨c, hidentified, ⟨?_, ?_⟩, href, hresource⟩
    · exact hproject ▸ hcanonical.project.slash_not_mem
    · intro s hs
      exact (hcanonical.service s (hservice.trans hs)).slash_not_mem

omit [Python] in
/-- The members of a reported resource. -/
theorem mem_reportedResource {o : ContainerObservation} {m : Str × Value} :
    m ∈ reportedResource o ↔ m ∈ [(lit "uri", Value.str o.details.resource.uri),
        (lit "name", .str o.details.resource.name), (lit "project", strOrNull o.details.resource.project),
        (lit "ports", .strs (o.details.ports.map (·.take maxReportedPortChars))),
        (lit "networks", .strs o.details.networks)] ∨
      (∃ s, (m.1, some s) ∈ optionalStringFields.zip (optionalStrings o.details) ∧ m.2 = .str s) ∨
      ∃ n, o.details.restartCount = some n ∧ m = (lit "restart_count", .int n) := by
  have hfields : optionalFields o.details =
      ((optionalStringFields.zip (optionalStrings o.details)).map fun f => (f.1, f.2.map Value.str)) ++
        [(lit "restart_count", o.details.restartCount.map .int)] := rfl
  obtain ⟨k, v⟩ := m
  rw [reportedResource, List.mem_append, hfields, List.filterMap_append, List.mem_append]
  refine or_congr_right (or_congr ?_ ?_)
  · simp only [List.mem_filterMap, List.mem_map]
    constructor
    · rintro ⟨_, ⟨⟨k', x⟩, hmem, rfl⟩, hv⟩
      cases x with
      | none => cases hv
      | some s =>
        cases hv
        exact ⟨s, hmem, rfl⟩
    · rintro ⟨s, hmem, rfl⟩
      exact ⟨_, ⟨_, hmem, rfl⟩, rfl⟩
  · cases o.details.restartCount <;> simp [eq_comm]

omit [Python] in
/-- The members that are always there. -/
theorem required_of_mem {o : ContainerObservation} {k : Str} {v : Value} (h : (k, v) ∈ reportedResource o)
    (hk : k ∉ optionalStringFields) (hcount : k ≠ lit "restart_count") :
    (k, v) ∈ [(lit "uri", Value.str o.details.resource.uri), (lit "name", .str o.details.resource.name),
      (lit "project", strOrNull o.details.resource.project),
      (lit "ports", .strs (o.details.ports.map (·.take maxReportedPortChars))),
      (lit "networks", .strs o.details.networks)] := by
  rcases mem_reportedResource.mp h with h | ⟨s, hzip, -⟩ | ⟨n, -, hn⟩
  · exact h
  · exact absurd (List.of_mem_zip hzip).1 hk
  · exact absurd (Prod.mk.inj hn).1 hcount

omit [Python] in
theorem exists_field_of_mem {details : DriverResourceDetails} {x : Option Str}
    (h : x ∈ optionalStrings details) :
    ∃ k ∈ optionalStringFields, (k, x) ∈ optionalStringFields.zip (optionalStrings details) := by
  have hsnd : (optionalStringFields.zip (optionalStrings details)).map Prod.snd =
      optionalStrings details := rfl
  rw [← hsnd] at h
  obtain ⟨⟨k, x⟩, hmem, rfl⟩ := List.mem_map.mp h
  exact ⟨k, (List.of_mem_zip hmem).1, hmem⟩

/-- What a container is reported as is within the rules just where its strings are. -/
theorem admissible_iff {reference : Str} {o : ContainerObservation} {c : Container}
    (hidentified : Identified c) (hfree : c.SlashFree) (href : IsReference reference)
    (hresource : o.details.resource = containerResource reference c) :
    Admissible (reportedResource o) ↔ some [] ∉ optionalStrings o.details := by
  constructor
  · intro h hempty
    obtain ⟨k, hk, hzip⟩ := exists_field_of_mem hempty
    have hmem : (k, Value.str []) ∈ reportedResource o :=
      mem_reportedResource.mpr (.inr (.inl ⟨[], hzip, rfl⟩))
    obtain ⟨s, hs, hne⟩ := h.filled _ hmem hk
    cases hs
    exact hne rfl
  · intro h
    have hproject : strOrNull o.details.resource.project = .str c.project := by
      rw [hresource]
      rfl
    have hkeys : ∀ k ∈ optionalStringFields, k ∈ reportFields := by
      simp [optionalStringFields, reportFields]
    constructor
    case known =>
      intro m hm
      rcases mem_reportedResource.mp hm with hm | ⟨s, hzip, -⟩ | ⟨n, -, rfl⟩
      · simp only [List.mem_cons, List.not_mem_nil, or_false] at hm
        rcases hm with rfl | rfl | rfl | rfl | rfl <;> simp [reportFields]
      · exact hkeys _ (List.of_mem_zip hzip).1
      · simp [reportFields]
    case uri =>
      intro v hm
      have huri := required_of_mem hm (by simp [optionalStringFields]) (by simp)
      obtain ⟨a, ha, -, -, -, hcontainer⟩ := readsAs_containerResource href hidentified hfree
      refine ⟨_, a, by simpa using huri, ?_, by simp [hcontainer]⟩
      rw [hresource]
      exact ha
    case notNull =>
      intro m hm
      rcases mem_reportedResource.mp hm with hm | ⟨s, -, hs⟩ | ⟨n, -, rfl⟩
      · simp only [List.mem_cons, List.not_mem_nil, or_false, hproject] at hm
        rcases hm with rfl | rfl | rfl | rfl | rfl <;> simp
      · simp [hs]
      · simp
    case filled =>
      intro m hm hk
      rcases mem_reportedResource.mp hm with hm | ⟨s, hzip, hs⟩ | ⟨n, -, rfl⟩
      · simp only [List.mem_cons, List.not_mem_nil, or_false] at hm
        rcases hm with rfl | rfl | rfl | rfl | rfl <;> simp [optionalStringFields] at hk
      · refine ⟨s, hs, ?_⟩
        rintro rfl
        exact h (List.of_mem_zip hzip).2
      · simp [optionalStringFields] at hk
    case ports =>
      intro v hm
      have hports := required_of_mem hm (by simp [optionalStringFields]) (by simp)
      refine ⟨_, by simpa using hports, ?_⟩
      simp

variable {σ : Type}

/-- Every container of a snapshot is as the driver has described it. -/
theorem described_of_run [Loads] {reference : Str} {r r' : DriverRunner σ} {cs : List (PollCycle σ)}
    (h : Run r cs r') (hd : ∀ c ∈ cs, ∀ x ∈ c.trace, FromDocker reference x) {c : PollCycle σ}
    (hc : c ∈ cs) {s : DriverSnapshot} (hs : c.outcome = .ok s) {o : ContainerObservation}
    (ho : o ∈ s.containers) : ∃ uri t, (Docker.describe reference uri).Exec t (.ok o.details) := by
  obtain ⟨q, q', hstep⟩ := h.exists_step hc
  have hcontained : ∀ x ∈ c.trace, Contained x := by
    intro x hx
    obtain ⟨u, hserves⟩ := hd c hc x hx
    exact contained_of_serves hserves
  cases runOnce_atomic _ _ _ _ hstep hcontained with
  | inl hfail =>
    obtain ⟨e, he, -⟩ := hfail
    rw [hs] at he
    cases he
  | inr hdone =>
    obtain ⟨snapshot, resources, hout, -, -, -, hdetails, -⟩ := hdone
    obtain rfl := Except.ok.inj (hs.symm.trans hout)
    have hmem : o.details ∈ (returned (describes c.trace)).map Prod.snd :=
      hdetails ▸ List.mem_map_of_mem ho
    obtain ⟨⟨uri, details⟩, hreturned, rfl⟩ := List.mem_map.mp hmem
    obtain ⟨⟨uri', reply⟩, hdescribed, hsome⟩ := List.mem_filterMap.mp hreturned
    obtain ⟨⟨call, reply'⟩, hexchange, hcall⟩ := List.mem_filterMap.mp hdescribed
    cases call with
    | describe uri'' =>
      obtain ⟨rfl, rfl⟩ := Prod.mk.inj (Option.some.inj hcall)
      cases reply' with
      | ok details' =>
        obtain ⟨rfl, rfl⟩ := Prod.mk.inj (Option.some.inj hsome)
        obtain ⟨t, ht⟩ := hd c hc _ hexchange
        exact ⟨uri'', t, ht⟩
      | error e => cases hsome
    | _ => cases hcall

/-- A snapshot of a run is reported within the rules just where none of its containers has
an empty string, or the report is too long to be made. -/
theorem publish_keepsContract_iff [Loads] {reference : Str} {r r' : DriverRunner σ}
    {cs : List (PollCycle σ)} (h : Run r cs r')
    (hd : ∀ c ∈ cs, ∀ x ∈ c.trace, FromDocker reference x) {c : PollCycle σ} (hc : c ∈ cs)
    {s : DriverSnapshot} (hs : c.outcome = .ok s) {sink : MirarunReportSink}
    {t : List (Exchange posts)} {x : Except PublishError Unit} (hp : (sink.publish s).Exec t x) :
    KeepsContract t x ↔ Filled s ∨ OverCap s := by
  have hadmissible : ∀ o ∈ s.containers, o.details.resource.resourceType = .container →
      (Admissible (reportedResource o) ↔ some [] ∉ optionalStrings o.details) := by
    intro o ho htype
    obtain ⟨uri, u, hdescribe⟩ := described_of_run h hd hc hs ho
    obtain ⟨container, hidentified, hfree, href, hresource⟩ := exec_describe_container hdescribe htype
    exact admissible_iff hidentified hfree href hresource
  have hfilled : (∀ resource ∈ reported s, Admissible resource) ↔ Filled s := by
    unfold reported Filled
    rw [List.forall_mem_map]
    constructor
    · intro hall o ho htype
      exact (hadmissible o ho htype).mp (hall o (List.mem_filter.mpr ⟨ho, by simpa using htype⟩))
    · intro hall o ho
      obtain ⟨hmem, htype⟩ := List.mem_filter.mp ho
      have htype : o.details.resource.resourceType = .container := by simpa using htype
      exact (hadmissible o hmem htype).mpr (hall o hmem htype)
  rw [keepsContract_iff hp, hfilled]
  exact or_comm

end Python

/-! ## An image without a name -/

section Nameless

def namelessInspect : Str := lit
  "\x7b\"Id\":\"0123456789ab\",\"Name\":\"/web\",\"Config\":\x7b\"Labels\":\x7b\x7d,\"Image\":\"\"\x7d\x7d"

abbrev namelessLoads : Loads := Loads.known [
  (Utf8.encode listText, .arr [.obj [(lit "Id", .str (lit "0123456789ab")), (lit "Names", .arr [.str (lit "/web")]),
    (lit "Labels", .obj [])]]),
  (Utf8.encode namelessInspect, .obj [(lit "Id", .str (lit "0123456789ab")), (lit "Name", .str (lit "/web")),
    (lit "Config", .obj [(lit "Labels", .obj []), (lit "Image", .str [])])])]

def namelessDaemon (w : Unit) (q : Request) : Http.Reply × Unit :=
  if q.path = lit "containers/json" then (.response 200 [Utf8.encode listText] true, w)
  else if q.path = lit "containers/web/json" then (.response 200 [Utf8.encode namelessInspect] true, w)
  else (.response 404 [] true, w)

def namelessSink : MirarunReportSink := ⟨lit "http://mirarun/report", lit "token"⟩

def namelessRunner : DriverRunner MirarunReportSink :=
  ⟨[namelessSink], by simp, lit "local", false, 50, false, false, Mapping.Dict.empty⟩

def namelessRun : List (PollCycle MirarunReportSink) × DriverRunner MirarunReportSink :=
  serveCycles (@linked _ Python.ascii namelessLoads (lit "local") Unit namelessDaemon) 1
    namelessRunner ()

def namelessSnapshot : DriverSnapshot :=
  ⟨lit "local", [], [⟨⟨⟨lit "env://local/docker/project/_orphans/container/web", .container, lit "web",
    some (lit "_orphans"), none, none, some [], none⟩, none, none, none, [], [], none, none, none, none⟩,
    none, none, none⟩], [], []⟩

theorem run_namelessRun : Run namelessRunner namelessRun.1 namelessRun.2 :=
  run_serveCycles _ 1 _ ()

theorem fromDocker_namelessRun : ∀ c ∈ namelessRun.1, ∀ x ∈ c.trace,
    @FromDocker _ Python.ascii namelessLoads (lit "local") x :=
  serveCycles_forall _ (@fromDocker_linked _ Python.ascii namelessLoads _ _ _ (Failures.tame_known _)) 1 _ ()

theorem exists_namelessCycle : ∃ c ∈ namelessRun.1, c.outcome = .ok namelessSnapshot := by
  have houtcomes : namelessRun.1.map PollCycle.outcome = [.ok namelessSnapshot] := by decide +kernel
  exact List.mem_map.mp (houtcomes ▸ List.mem_cons_self)

/-- The report is received. -/
def namelessReport : Except PublishError Unit × List (Exchange posts) × Unit :=
  (namelessSink.publish namelessSnapshot).serve (fun w _ => (.response 204 [], w)) ()

theorem exec_namelessReport :
    (namelessSink.publish namelessSnapshot).Exec namelessReport.2.1 namelessReport.1 :=
  Prog.exec_serve (I := posts) _ _ _

theorem publish_keepsContract_iff_nameless :
    @KeepsContract Python.ascii namelessReport.2.1 namelessReport.1 ↔
      Filled namelessSnapshot ∨ OverCap namelessSnapshot := by
  obtain ⟨c, hc, hs⟩ := exists_namelessCycle
  exact @publish_keepsContract_iff Python.ascii _ namelessLoads (lit "local") _ _ _ run_namelessRun
    fromDocker_namelessRun c hc _ hs _ _ _ exec_namelessReport

/-- The empty name is posted. -/
theorem not_keepsContract_nameless : validTargetReference (lit "local") = true ∧
    Run namelessRunner namelessRun.1 namelessRun.2 ∧
    (∀ c ∈ namelessRun.1, ∀ x ∈ c.trace, @FromDocker _ Python.ascii namelessLoads (lit "local") x) ∧
    (∃ c ∈ namelessRun.1, c.outcome = .ok namelessSnapshot) ∧
    (namelessSink.publish namelessSnapshot).Exec namelessReport.2.1 namelessReport.1 ∧
    ¬ @KeepsContract Python.ascii namelessReport.2.1 namelessReport.1 := by
  refine ⟨validTargetReference_local, run_namelessRun, fromDocker_namelessRun, exists_namelessCycle,
    exec_namelessReport, ?_⟩
  rw [@keepsContract_iff Python.ascii _ _ _ _ exec_namelessReport]
  rintro (hcap | hall)
  · have hbytes : (reportBody (reported namelessSnapshot)).length ≤ maxReportBodyBytes := by
      decide +kernel
    cases hcap with
    | inl hmany => exact absurd hmany (by decide +kernel)
    | inr hlong => omega
  · have hmem : (lit "image", Value.str []) ∈ (reported namelessSnapshot).flatten := by
      decide +kernel
    obtain ⟨resource, hresource, hmember⟩ := List.mem_flatten.mp hmem
    obtain ⟨s, hs, hne⟩ := @Admissible.filled Python.ascii _ (hall resource hresource) _ hmember
      (by simp [optionalStringFields])
    cases hs
    exact hne rfl

end Nameless

end MiraDriver.Sinks
