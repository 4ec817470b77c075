import MiraDriver.Docker

/-!
# The daemon between two requests

`logs`, `stats` and `revision` make two requests with the same segment: an inspect, and
the read of a payload. Here the daemon is a set of containers, each under a name of its
own, that others create, remove and rename at any time, and it answers each request
from the containers it has at that moment.
-/
namespace MiraDriver.Daemon

open MiraDriver.Text MiraDriver.Mapping MiraDriver.Base MiraDriver.Uri MiraDriver.Document
  MiraDriver.Identity MiraDriver.Inventory MiraDriver.Inspect MiraDriver.Http MiraDriver.LogFrames
  MiraDriver.Docker MiraDriver.Program

variable [Loads]

/-- A container. What it is stays with it when it is renamed; its inspect document shows
its ID, its labels and the name of the moment. -/
structure Resident where
  id : Str
  labels : Object
  inspect : Str → Object
  inspectBody : Str → List UInt8
  logBody : List UInt8
  statsBody : List UInt8
  archiveBody : Option (List UInt8)
  decodes : ∀ name, ∃ document : Json,
    Loads.loads (inspectBody name) = .value document ∧ document.dict? = some (inspect name)
  showsId : ∀ name, get (inspect name) "Id" = .str id
  showsLabels : ∀ name,
    (get (get (inspect name) "Config").dictOrEmpty "Labels").dict? = some labels

/-- The containers by name. -/
abbrev Containers := Dict Str Resident

/-- Something that others do to the daemon. -/
inductive Change where
  | create (name : Str) (r : Resident)
  | remove (name : Str)
  | rename (name newName : Str)

/-- A name that is taken is refused. -/
def Change.apply (d : Containers) : Change → Containers
  | .create name r => if (d.get? name).isSome then d else d.set name r
  | .remove name => d.erase name
  | .rename name newName =>
    match d.get? name with
    | some r => if (d.get? newName).isSome then d else (d.erase name).set newName r
    | none => d

def applyAll (d : Containers) (changes : List Change) : Containers := changes.foldl Change.apply d

/-- The container that a path segment stands for: by its whole ID, by its name, or by
the beginning of its ID where no other ID begins so. -/
def resolve (d : Containers) (segment : Str) : Option (Str × Resident) :=
  match d.entries.find? (fun e => e.2.id = segment) with
  | some e => some e
  | none =>
    match d.get? segment with
    | some r => some (segment, r)
    | none =>
      match d.entries.filter (fun e => segment.isPrefixOf e.2.id) with
      | [e] => some e
      | _ => none

/-- The container behind a segment, whatever it is called at the moment. -/
def holder (d : Containers) (segment : Str) : Option Resident := (resolve d segment).map Prod.snd

/-- The daemon, the changes still to come before each further request, and the container
that each request so far was answered from. -/
structure World where
  containers : Containers
  pending : List (List Change)
  served : List (Option Resident)

/-- The segment and the endpoint of a path below `containers/`. -/
def route (path : Str) : Option (Str × Str) :=
  match path.splitOn '/' with
  | [_, segment, endpoint] => some (segment, endpoint)
  | _ => none

def notFound : Reply := .response 404 [] true

def found (body : List UInt8) : Reply := .response 200 [body] true

/-- What an endpoint of a container answers. -/
def endpointReply (endpoint name : Str) (r : Resident) : Reply :=
  if endpoint = lit "json" then found (r.inspectBody name)
  else if endpoint = lit "logs" then found r.logBody
  else if endpoint = lit "stats" then found r.statsBody
  else if endpoint = lit "archive" then
    match r.archiveBody with
    | some body => found body
    | none => notFound
  else notFound

namespace World

/-- The containers as the next request finds them. -/
def next (w : World) : Containers := applyAll w.containers (w.pending.headD [])

/-- One request: the changes due come first, then the answer. -/
def answer (w : World) (request : http.Call) : Reply × World :=
  match route request.path with
  | none => (notFound, ⟨w.next, w.pending.tail, w.served ++ [none]⟩)
  | some (segment, endpoint) =>
    ((match resolve w.next segment with
      | some (name, r) => endpointReply endpoint name r
      | none => notFound),
      ⟨w.next, w.pending.tail, w.served ++ [holder w.next segment]⟩)

end World

/-- The operations of two requests. -/
inductive Operation where
  | logs (tail : Int)
  | stats
  | revision

variable [Python]

/-- Run an operation and say whether it returned a payload. -/
def Operation.run (reference uri : Str) : Operation → Prog http Exn Bool
  | .logs tail => do
    let _ ← Docker.logs reference uri tail
    pure true
  | .stats => do
    let _ ← Docker.stats reference uri
    pure true
  | .revision => do
    let revision ← Docker.revision reference uri
    pure revision.isSome

omit [Loads] [Python] in
theorem route_containerPath {container endpoint : Str} {leaf : String} (hc : '/' ∉ container)
    (hl : lit leaf = '/' :: endpoint) (he : '/' ∉ endpoint) :
    route (containerPath container leaf) = some (container, endpoint) := by
  have hhead : lit "containers/" = lit "containers" ++ ['/'] := by simp [lit_def]
  have hslash : '/' ∉ lit "containers" := by simp [lit_def]
  have hpath : containerPath container leaf = lit "containers" ++ '/' :: (container ++ '/' :: endpoint) := by
    simp [containerPath, hhead, hl]
  rw [route, hpath, List.splitOn_append_cons_self_of_not_mem hslash,
    List.splitOn_append_cons_self_of_not_mem hc, List.splitOn_eq_singleton he]

/-- An operation that returns a payload made two requests with one segment: an inspect
that passed the check, and a read that was answered. -/
theorem exec_run_true {op : Operation} {reference uri : Str} {t : List (Exchange http)}
    (h : (op.run reference uri).Exec t (.ok true)) :
    ∃ message check container inspect t₁ leaf endpoint params, ∃ reply : Reply,
      (inspectAddressed reference uri message check).Exec t₁ (.ok (container, inspect)) ∧
      t = t₁ ++ [⟨⟨containerPath container leaf, params⟩, reply⟩] ∧
      lit leaf = '/' :: endpoint ∧ '/' ∉ endpoint ∧ reply ≠ notFound := by
  have hnot : ∀ maximumBytes truncate out, readReply maximumBytes truncate notFound ≠ .ok out := by
    intro maximumBytes truncate out hr
    simp [notFound, readReply] at hr
  cases op with
  | logs tail =>
    simp only [Operation.run, Docker.logs, Prog.exec_bind_ok, exec_readResponse, Prog.exec_ofExcept,
      Prog.exec_pure] at h
    obtain ⟨_, _, _, rfl, ⟨t₁, _, ⟨container, inspect⟩, rfl, hinspect, _, _, response, rfl,
      ⟨reply, rfl, hr⟩, rfl, -⟩, rfl, -⟩ := h
    refine ⟨_, _, container, inspect, t₁, "/logs", lit "logs", logParams tail, reply, hinspect, by simp,
      by simp [lit_def], by simp [lit_def], ?_⟩
    rintro rfl
    exact hnot _ _ _ hr.symm
  | stats =>
    simp only [Operation.run, Docker.stats, Prog.exec_bind_ok, exec_getJson, Prog.exec_ofExcept,
      Prog.exec_pure] at h
    obtain ⟨_, _, _, rfl, ⟨t₁, _, ⟨container, inspect⟩, rfl, hinspect, _, _, document, rfl,
      ⟨reply, rfl, hr⟩, rfl, -⟩, rfl, -⟩ := h
    refine ⟨_, _, container, inspect, t₁, "/stats", lit "stats",
      [(lit "stream", lit "false"), (lit "one-shot", lit "true")], reply, hinspect, by simp,
      by simp [lit_def], by simp [lit_def], ?_⟩
    rintro rfl
    simp [readJson, notFound, readReply, Except.bind] at hr
  | revision =>
    simp only [Operation.run, Docker.revision, Docker.revision.readArchive, Prog.exec_bind_ok,
      Prog.exec_attempt, exec_readResponse, Prog.exec_pure] at h
    obtain ⟨_, _, sha, rfl, ⟨t₁, _, ⟨container, inspect⟩, rfl, hinspect, _, _, archive, rfl,
      ⟨_, ⟨reply, rfl, rfl⟩, harchive⟩, hrest⟩, rfl, hsome⟩ := h
    obtain rfl := Except.ok.inj harchive
    cases hr : readReply maxRevisionArchiveBytes false reply with
    | error e =>
      simp only [hr] at hrest
      split at hrest
      · obtain ⟨-, hnone⟩ := (Prog.exec_pure _ _ _).mp hrest
        obtain rfl := Except.ok.inj hnone
        simp at hsome
      · cases ((Prog.exec_throw _ _ _).mp hrest).2
    | ok response =>
      simp only [hr, Prog.exec_ofExcept] at hrest
      obtain ⟨rfl, -⟩ := hrest
      refine ⟨_, _, container, inspect, t₁, "/archive", lit "archive",
        [(lit "path", lit "/GIT_REVISION")], reply, hinspect, ?_, by simp [lit_def],
        by simp [lit_def], ?_⟩
      · simp
      · rintro rfl
        exact hnot _ _ _ hr

/-- The second request was answered from the container whose inspect document passed the
identity check at the first, and that container carries the addressed labels. -/
def ReadsInspected (w w' : World) (address : DockerAddress) : Prop :=
  ∃ r : Resident, w'.served = w.served ++ [some r, some r] ∧
    composeIdentity r.labels = .ok (address.project, address.service)

/-- The container an inspect request is answered from, once its document passes the
check, carries the addressed labels. -/
theorem labels_of_checkedInspect {r : Resident} {name : Str} {address : DockerAddress}
    {document : Json} {inspect : Object} {c : Container}
    (hd : readJson (found (r.inspectBody name)) = .ok document)
    (hc : checkedInspect address document = .ok (inspect, c)) :
    composeIdentity r.labels = .ok (address.project, address.service) := by
  obtain ⟨document', hloads, hdict⟩ := r.decodes name
  obtain rfl : document = document' :=
    Parsed.value.inj ((readJson_singleton hd).symm.trans hloads)
  obtain ⟨hinspect, hcontainer, hmatches⟩ := checkedInspect_ok_iff.mp hc
  obtain rfl : inspect = r.inspect name := Option.some.inj (hinspect.symm.trans hdict)
  obtain ⟨_, _, config, labels, -, -, hconfig, hlabels, -, -, -, hidentity⟩ :=
    containerFromInspect_ok hcontainer
  have hshown := r.showsLabels name
  rw [Json.dictOrEmpty, hconfig, Option.getD_some, hlabels] at hshown
  obtain ⟨hp, hs, -⟩ := assertMatches_ok_iff.mp hmatches
  rw [hp, hs, ← hidentity, Option.some.inj hshown]

/-- The containers as the second request finds them. -/
def World.afterNext (w : World) : Containers := applyAll w.next (w.pending.tail.headD [])

/-- A payload comes from the container behind the segment at the second request, and the
one behind it at the first request carries the addressed labels. -/
theorem served_of_run {op : Operation} {reference uri segment : Str} {address : DockerAddress}
    (ha : ownAddress reference uri = .ok address) (hs : address.container = some segment)
    {t : List (Exchange http)} (hrun : (op.run reference uri).Exec t (.ok true)) {w w' : World}
    (hw : Prog.Follows World.answer w t w') :
    ∃ inspected owner : Resident, holder w.next segment = some inspected ∧
      holder w.afterNext segment = some owner ∧
      w'.served = w.served ++ [some inspected, some owner] ∧
      composeIdentity inspected.labels = .ok (address.project, address.service) := by
  obtain ⟨message, check, container, inspect, t₁, leaf, endpoint, params, reply, hinspect, rfl, hleaf,
    hendpoint, hreply⟩ := exec_run_true hrun
  obtain ⟨address', document, c, inspectReply, ha', hcontainer, -, rfl, hdocument, hchecked⟩ :=
    exec_inspectAddressed_ok.mp hinspect
  obtain rfl : address = address' := Except.ok.inj (ha.symm.trans ha')
  obtain rfl : segment = container := Option.some.inj (hs.symm.trans hcontainer)
  have hslash : '/' ∉ segment :=
    ((ownAddress_ok_iff.mp ha).1.container segment hs).slash_not_mem
  have hroute₁ : route (inspectRequest segment).path = some (segment, lit "json") :=
    route_containerPath hslash (by simp [lit_def]) (by simp [lit_def])
  have hroute₂ : route (containerPath segment leaf) = some (segment, endpoint) :=
    route_containerPath hslash hleaf hendpoint
  obtain ⟨hfirst, hsecond, rfl⟩ := hw
  have hafter : World.next (World.answer w (inspectRequest segment)).2 = w.afterNext := by
    simp only [World.answer, hroute₁]
    rfl
  have hserved : (World.answer (World.answer w (inspectRequest segment)).2
      ⟨containerPath segment leaf, params⟩).2.served =
        w.served ++ [holder w.next segment, holder w.afterNext segment] := by
    rw [← hafter]
    simp [World.answer, hroute₁, hroute₂]
  rw [World.answer, hroute₁] at hfirst
  rw [World.answer, hroute₂, hafter] at hsecond
  cases hinspected : resolve w.next segment with
  | none =>
    simp only [hinspected] at hfirst
    rw [hfirst] at hdocument
    simp [readJson, notFound, readReply, Except.bind] at hdocument
  | some e =>
    obtain ⟨name, r⟩ := e
    cases howner : resolve w.afterNext segment with
    | none =>
      simp only [howner] at hsecond
      exact absurd hsecond hreply
    | some e' =>
      obtain ⟨name', r'⟩ := e'
      have hnext : holder w.next segment = some r := by rw [holder, hinspected, Option.map_some]
      have hlast : holder w.afterNext segment = some r' := by rw [holder, howner, Option.map_some]
      refine ⟨r, r', hnext, hlast, by rw [hserved, hnext, hlast], ?_⟩
      simp only [hinspected, endpointReply, ↓reduceIte] at hfirst
      exact labels_of_checkedInspect (hfirst ▸ hdocument) hchecked

/-- Whenever an operation returns a payload, it is the inspected container's exactly when
the segment stands for one container at both requests. -/
theorem readsInspected_iff {op : Operation} {reference uri segment : Str} {address : DockerAddress}
    (ha : ownAddress reference uri = .ok address) (hs : address.container = some segment)
    {t : List (Exchange http)} (hrun : (op.run reference uri).Exec t (.ok true)) {w w' : World}
    (hw : Prog.Follows World.answer w t w') :
    ReadsInspected w w' address ↔ holder w.afterNext segment = holder w.next segment := by
  obtain ⟨inspected, owner, hnext, hafter, hserved, hlabels⟩ := served_of_run ha hs hrun hw
  simp only [ReadsInspected, hserved, hnext, hafter, List.append_cancel_left_eq, List.cons.injEq,
    Option.some.injEq, and_true]
  constructor
  · intro h
    obtain ⟨r, ⟨rfl, rfl⟩, -⟩ := h
    rfl
  · intro h
    exact ⟨inspected, ⟨rfl, h⟩, hlabels⟩

/-- No change in turn hands the segment to a container that did not hold it. -/
def Undisturbed (segment : Str) : Containers → List Change → Prop
  | _, [] => True
  | d, change :: changes =>
    (holder (change.apply d) segment = holder d segment ∨
      holder (change.apply d) segment = none) ∧ Undisturbed segment (change.apply d) changes

omit [Python] in
/-- What stands for a segment after such changes stood for it before. -/
theorem holder_of_undisturbed {segment : Str} {d : Containers} {changes : List Change}
    (h : Undisturbed segment d changes) :
    holder (applyAll d changes) segment = holder d segment ∨
      holder (applyAll d changes) segment = none := by
  induction changes generalizing d with
  | nil => exact .inl rfl
  | cons change changes ih =>
    obtain ⟨hstep, hrest⟩ := h
    rcases hstep with hstep | hstep
    · exact hstep ▸ ih hrest
    · rcases ih hrest with hlast | hlast
      · exact .inr (hlast.trans hstep)
      · exact .inr hlast

/-- Under such changes between the requests every payload is the inspected container's. -/
theorem readsInspected_of_undisturbed {op : Operation} {reference uri segment : Str}
    {address : DockerAddress} (ha : ownAddress reference uri = .ok address)
    (hs : address.container = some segment) {t : List (Exchange http)}
    (hrun : (op.run reference uri).Exec t (.ok true)) {w w' : World}
    (hw : Prog.Follows World.answer w t w')
    (hu : Undisturbed segment w.next (w.pending.tail.headD [])) : ReadsInspected w w' address := by
  obtain ⟨inspected, owner, hnext, hafter, hserved, hlabels⟩ := served_of_run ha hs hrun hw
  have hsame : holder w.afterNext segment = holder w.next segment := by
    rcases holder_of_undisturbed hu with h | h
    · exact h
    · rw [World.afterNext] at hafter
      rw [h] at hafter
      cases hafter
  rw [hafter, hnext] at hsame
  obtain rfl := Option.some.inj hsame
  exact ⟨owner, hserved, hlabels⟩

/-! ## A container recreated under its name -/

section Recreated

/-- The inspect document of a container named web. -/
def inspectMembers (id project : Str) : List (Str × Json) :=
  [(lit "Id", .str id), (lit "Name", .str (lit "/web")),
    (lit "Config", .obj [(lit "Labels", .obj [(lit "com.docker.compose.project", .str project),
      (lit "com.docker.compose.service", .str (lit "web"))])])]

/-- Its text. -/
def inspectText (id project : Str) : Str :=
  lit "\x7b\"Id\":\"" ++ id ++
    lit "\",\"Name\":\"/web\",\"Config\":\x7b\"Labels\":\x7b\"com.docker.compose.project\":\"" ++
    project ++ lit "\",\"com.docker.compose.service\":\"web\"\x7d\x7d\x7d"

def inspectBytes (id project : Str) : List UInt8 := Utf8.encode (inspectText id project)

/-- The two documents that are decoded here. -/
abbrev recreatedLoads : Loads where
  loads body :=
    if body = inspectBytes (lit "0123456789ab") (lit "shop") then
      .value (.obj (inspectMembers (lit "0123456789ab") (lit "shop")))
    else if body = inspectBytes (lit "ba9876543210") (lit "other") then
      .value (.obj (inspectMembers (lit "ba9876543210") (lit "other")))
    else .refused

def webLabels (project : Str) : Object :=
  Dict.ofList [(lit "com.docker.compose.project", .str project),
    (lit "com.docker.compose.service", .str (lit "web"))]

omit [Loads] [Python] in
theorem get_inspectMembers_id (id project : Str) :
    get (Dict.ofList (inspectMembers id project)) "Id" = .str id := by
  simp [Document.get, inspectMembers, Dict.ofList, Dict.get?_set]

omit [Loads] [Python] in
theorem get_inspectMembers_labels (id project : Str) :
    (get (get (Dict.ofList (inspectMembers id project)) "Config").dictOrEmpty "Labels").dict? =
      some (webLabels project) := by
  have hconfig : (get (Dict.ofList (inspectMembers id project)) "Config").dictOrEmpty =
      Dict.ofList [(lit "Labels", .obj [(lit "com.docker.compose.project", .str project),
        (lit "com.docker.compose.service", .str (lit "web"))])] := by
    simp [Document.get, inspectMembers, Dict.ofList, Json.dictOrEmpty, Json.dict?]
  rw [hconfig]
  simp [Document.get, webLabels, Dict.ofList, Json.dict?]

def oldWeb : @Resident recreatedLoads :=
  @Resident.mk recreatedLoads (lit "0123456789ab") (webLabels (lit "shop"))
    (fun _ => Dict.ofList (inspectMembers (lit "0123456789ab") (lit "shop")))
    (fun _ => inspectBytes (lit "0123456789ab") (lit "shop")) [] [] none
    (fun _ => ⟨_, if_pos rfl, rfl⟩) (fun _ => get_inspectMembers_id _ _)
    (fun _ => get_inspectMembers_labels _ _)

def newWeb : @Resident recreatedLoads :=
  @Resident.mk recreatedLoads (lit "ba9876543210") (webLabels (lit "other"))
    (fun _ => Dict.ofList (inspectMembers (lit "ba9876543210") (lit "other")))
    (fun _ => inspectBytes (lit "ba9876543210") (lit "other"))
    (encodeFrame .stdout (Utf8.encode (lit "not for shop"))) [] none
    (fun _ => ⟨_, (if_neg (by decide +kernel)).trans (if_pos rfl), rfl⟩)
    (fun _ => get_inspectMembers_id _ _) (fun _ => get_inspectMembers_labels _ _)

/-- Between the two requests another project's container takes the name. -/
def recreatedWorld : @World recreatedLoads :=
  @World.mk recreatedLoads (Dict.empty.set (lit "web") oldWeb)
    [[], [@Change.remove recreatedLoads (lit "web"), @Change.create recreatedLoads (lit "web") newWeb]] []

def recreatedAddress : DockerAddress :=
  ⟨lit "local", lit "shop", some (lit "web"), some (lit "web")⟩

def recreatedRun : Except Exn Bool × List (Exchange http) × @World recreatedLoads :=
  Prog.serve (@World.answer recreatedLoads)
    (@Operation.run recreatedLoads Python.ascii (lit "local") recreatedAddress.uri (.logs 10))
    recreatedWorld

omit [Loads] [Python] in
theorem recreatedRun_result : recreatedRun.1 = .ok true := by decide +kernel

omit [Loads] [Python] in
theorem exec_recreatedRun :
    (@Operation.run recreatedLoads Python.ascii (lit "local") recreatedAddress.uri (.logs 10)).Exec
      recreatedRun.2.1 (.ok true) := by
  have h := Prog.exec_serve (@World.answer recreatedLoads)
    (@Operation.run recreatedLoads Python.ascii (lit "local") recreatedAddress.uri (.logs 10))
    recreatedWorld
  exact recreatedRun_result ▸ h

omit [Loads] [Python] in
theorem readsInspected_iff_recreated :
    @ReadsInspected recreatedLoads Python.ascii recreatedWorld recreatedRun.2.2 recreatedAddress ↔
      @holder recreatedLoads (@World.afterNext recreatedLoads recreatedWorld) (lit "web") =
        @holder recreatedLoads (@World.next recreatedLoads recreatedWorld) (lit "web") :=
  @readsInspected_iff recreatedLoads Python.ascii (.logs 10) (lit "local") recreatedAddress.uri
    (lit "web") recreatedAddress (by decide +kernel) rfl recreatedRun.2.1 exec_recreatedRun
    recreatedWorld recreatedRun.2.2 (Prog.serve_follows _ _ _)

omit [Loads] [Python] in
/-- The log that is returned is the other project's. -/
theorem not_readsInspected_recreated :
    (@Operation.run recreatedLoads Python.ascii (lit "local") recreatedAddress.uri (.logs 10)).Exec
      recreatedRun.2.1 (.ok true) ∧
    Prog.Follows (@World.answer recreatedLoads) recreatedWorld recreatedRun.2.1 recreatedRun.2.2 ∧
    ¬ @ReadsInspected recreatedLoads Python.ascii recreatedWorld recreatedRun.2.2
      recreatedAddress := by
  refine ⟨exec_recreatedRun, Prog.serve_follows _ _ _, ?_⟩
  intro h
  obtain ⟨r, hserved, -⟩ := h
  have hids : (@World.served recreatedLoads recreatedRun.2.2).map
      (Option.map (@Resident.id recreatedLoads)) =
      [some (lit "0123456789ab"), some (lit "ba9876543210")] := by decide +kernel
  rw [hserved] at hids
  have hne : lit "0123456789ab" ≠ lit "ba9876543210" := by simp [lit_def]
  simp only [recreatedWorld, List.nil_append, List.map_cons, Option.map_some, List.map_nil,
    List.cons.injEq, Option.some.injEq, and_true] at hids
  exact hne (hids.1.symm.trans hids.2)

end Recreated

end MiraDriver.Daemon
