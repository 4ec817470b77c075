import MiraDriver.Inspect
import MiraDriver.LogFrames

/-!
# The driver's operations

`DockerDriver`: `query`, `describe`, `logs`, `stats` and `revision`, as programs that
make requests to the daemon. The driver keeps no state between operations but its
connection, so an operation is determined by the reference, its arguments and the
replies it meets.
-/
namespace MiraDriver.Docker

open MiraDriver.Text MiraDriver.Mapping MiraDriver.Base MiraDriver.Uri MiraDriver.Document
  MiraDriver.Identity MiraDriver.Inventory MiraDriver.Inspect MiraDriver.Http MiraDriver.LogFrames
  MiraDriver.Program

/-- `f"containers/{container}/..."`. -/
def containerPath (container : Str) (leaf : String) : Str :=
  lit "containers/" ++ container ++ lit leaf

/-- `bool(config.get("Tty"))`, where there is a configuration. -/
def ttyOf (inspect : Object) : Bool :=
  match (get inspect "Config").dict? with
  | some config => (get config "Tty").truthy
  | none => false

/-- `entries[-n:]`, for a positive `n`. -/
def lastN {α : Type} (n : Nat) (l : List α) : List α := l.drop (l.length - n)

/-- The exact sum of a counter over the interfaces that are objects, if all of those
have it and there is one. -/
def networkTotal (document : Object) (counter : String) : Option Int :=
  match (get document "networks").dict? with
  | some networks =>
    let values := (networks.values.filterMap Json.dict?).map fun v => safeCounter (get v counter)
    if values ≠ [] && values.all Option.isSome then some (values.filterMap id).sum else none
  | none => none

section Python

variable [Python]

/-- The value of a block entry of the given operation, in either letter case. -/
def blockValue (operation : String) (entry : Json) : Option Int := do
  let entry ← entry.dict?
  let op ← (get entry "op").str?
  let value ← safeCounter (get entry "value")
  if lower op = lit operation then some value else none

def blockTotal (document : Object) (operation : String) : Option Int :=
  match (get document "blkio_stats").dict? with
  | some blkio =>
    match (get blkio "io_service_bytes_recursive").list? with
    | some items =>
      let values := items.filterMap (blockValue operation)
      if values = [] then none else some values.sum
    | none => none
  | none => none

/-- `_stats_from_document`. -/
def statsFromDocument (uri : Str) (document : Object) : Except Exn DriverContainerStats := do
  let cpu := (get document "cpu_stats").dictOrEmpty
  let cpuUsage := (get cpu "cpu_usage").dictOrEmpty
  let memory := (get document "memory_stats").dictOrEmpty
  let readAt ← boundedOptional (get document "read") 128 "stats timestamp"
  pure {
    uri
    readAt
    cpuTotalNs := safeCounter (get cpuUsage "total_usage")
    cpuSystemNs := safeCounter (get cpu "system_cpu_usage")
    onlineCpus := safeCounter (get cpu "online_cpus")
    memoryUsageBytes := safeCounter (get memory "usage")
    memoryLimitBytes := safeCounter (get memory "limit")
    networkRxBytes := networkTotal document "rx_bytes"
    networkTxBytes := networkTotal document "tx_bytes"
    blockReadBytes := blockTotal document "read"
    blockWriteBytes := blockTotal document "write" }

/-- `_GIT_SHA.fullmatch`. -/
def matchesGitSha (s : Str) : Bool := (s.length = 40 || s.length = 64) && s.all isHexDigit

/-- `content.decode("ascii", errors="replace").strip()`. -/
def asciiStripped (content : List UInt8) : Str :=
  let text := content.map fun b => if b < 128 then Char.ofNat b.toNat else Utf8.replacement
  (text.dropWhile isSpace).reverse.dropWhile isSpace |>.reverse

/-- `_revision_from_archive`. -/
def revisionFromArchive (payload : List UInt8) : Except Exn (Option Str) :=
  match Python.firstFile payload with
  | .value none => .ok none
  | .value (some content) => .ok (some (asciiStripped content) |>.filter matchesGitSha)
  | .refused => .error (.driverProtocolError (lit "Docker archive response is not a valid tar"))
  | .raised name => .error (.exception name)

/-- What `logs` makes of a log body. -/
def logResult (tail : Nat) (multiplexed : Bool) (response : List UInt8 × Bool) :
    Except Exn DriverLogResult := do
  let decoded ← decodeLogs response.1 multiplexed
  pure ⟨lastN tail decoded.1, response.2 || decoded.2 || decoded.1.length > tail⟩

variable [Loads] (reference : Str)

/-- `query`. -/
def query (q : DriverResourceQuery) : Prog http Exn (List DriverResource) := do
  let document ← getJson (lit "containers/json") [(lit "all", lit "true")]
  Prog.ofExcept (queryDocument reference q document)

/-- The query behind `describe` of a service or a project. -/
def aggregateQuery (address : DockerAddress) : DriverResourceQuery where
  resourceType := if (address.service.filter (· ≠ [])).isSome then .service else .project
  project := some address.project
  service := address.service
  name := some ((address.service.filter (· ≠ [])).getD address.project)
  state := none

/-- A resource and nothing more of it. -/
def bareDetails (resource : DriverResource) : DriverResourceDetails :=
  ⟨resource, none, none, none, [], [], none, none, none, none⟩

@[simp] theorem bareDetails_resource (resource : DriverResource) : (bareDetails resource).resource = resource := rfl

/-- `describe`. -/
def describe (uri : Str) : Prog http Exn DriverResourceDetails := do
  let address ← Prog.ofExcept (ownAddress reference uri)
  match address.container with
  | none =>
    let resources ← query reference (aggregateQuery address)
    match resources with
    | [resource] => pure (bareDetails resource)
    | _ => throw (.driverOperationInvalid (lit "target resource was not found"))
  | some container =>
    let document ← getJson (containerPath container "/json") []
    Prog.ofExcept (describeDocument reference address document)

/-- The container segment of an address, or a refusal. -/
def requireContainer (address : DockerAddress) (message : String) : Except Exn Str :=
  match address.container with
  | some container => .ok container
  | none => .error (.driverOperationInvalid (lit message))

/-- What `logs`, `stats` and `revision` begin with: an address of a container of this
driver, the operation's own check of its arguments, and an inspect reply that passes the
identity check. It gives the segment the second request is made with. -/
def inspectAddressed (uri : Str) (message : String) (check : Except Exn Unit) :
    Prog http Exn (Str × Object) := do
  let address ← Prog.ofExcept (ownAddress reference uri)
  let container ← Prog.ofExcept (requireContainer address message)
  Prog.ofExcept check
  let document ← getJson (containerPath container "/json") []
  let checked ← Prog.ofExcept (checkedInspect address document)
  pure (container, checked.1)

def checkTail (tail : Int) : Except Exn Unit :=
  if tail < 1 ∨ tail > 1000 then
    .error (.driverOperationInvalid (lit "tail must be between 1 and 1000"))
  else .ok ()

def logParams (tail : Int) : List (Str × Str) :=
  [(lit "stdout", lit "true"), (lit "stderr", lit "true"), (lit "timestamps", lit "true"),
    (lit "tail", (toString tail).toList)]

/-- `logs`. -/
def logs (uri : Str) (tail : Int) : Prog http Exn DriverLogResult := do
  let (container, inspect) ← inspectAddressed reference uri
    "Docker logs require a container address" (checkTail tail)
  let response ← readResponse (containerPath container "/logs") (logParams tail) maxLogBytes true
  Prog.ofExcept (logResult tail.toNat (!ttyOf inspect) response)

/-- What `stats` makes of its second reply. -/
def statsDocument (uri : Str) (document : Json) : Except Exn DriverContainerStats := do
  let document ← require document.dict? "Docker stats response must be an object"
  statsFromDocument uri document

/-- `stats`. -/
def stats (uri : Str) : Prog http Exn DriverContainerStats := do
  let (container, _) ← inspectAddressed reference uri
    "Docker stats require a container address" (.ok ())
  let document ← getJson (containerPath container "/stats")
    [(lit "stream", lit "false"), (lit "one-shot", lit "true")]
  Prog.ofExcept (statsDocument uri document)

/-- `revision`. -/
def revision (uri : Str) : Prog http Exn (Option Str) := do
  let (container, _) ← inspectAddressed reference uri
    "Docker archive reads require a container address" (.ok ())
  let archive ← (readArchive container).attempt
  match archive with
  | .ok response => Prog.ofExcept (revisionFromArchive response.1)
  | .error e => if e.isResourceNotFound then pure none else throw e
where
  readArchive (container : Str) : Prog http Exn (List UInt8 × Bool) :=
    readResponse (containerPath container "/archive") [(lit "path", lit "/GIT_REVISION")]
      maxRevisionArchiveBytes false

/-- A request for an inspect document. -/
def inspectRequest (container : Str) : Request := ⟨containerPath container "/json", []⟩

omit [Python] [Loads] in
theorem requireContainer_ok_iff {address : DockerAddress} {message : String} {container : Str} :
    requireContainer address message = .ok container ↔ address.container = some container := by
  unfold requireContainer
  split <;> simp_all

omit [Python] [Loads] in
theorem checkTail_ok_iff {tail : Int} : checkTail tail = .ok () ↔ 1 ≤ tail ∧ tail ≤ 1000 := by
  unfold checkTail
  split
  · simp only [reduceCtorEq, false_iff]
    omega
  · simp only [true_iff]
    omega

variable {reference}

/-- The shared beginning succeeds on one inspect reply that passes the identity check. -/
theorem exec_inspectAddressed_ok {uri : Str} {message : String} {check : Except Exn Unit}
    {t : List (Exchange http)} {container : Str} {inspect : Object} :
    (inspectAddressed reference uri message check).Exec t (.ok (container, inspect)) ↔
      ∃ address document c, ∃ reply : Reply, ownAddress reference uri = .ok address ∧
        address.container = some container ∧ check = .ok () ∧
        t = [⟨inspectRequest container, reply⟩] ∧ readJson reply = .ok document ∧
        checkedInspect address document = .ok (inspect, c) := by
  simp only [inspectAddressed, Prog.exec_bind_ok, Prog.exec_ofExcept, exec_getJson, Prog.exec_pure]
  constructor
  · rintro ⟨_, _, address, rfl, ⟨rfl, ha⟩, _, _, name, rfl, ⟨rfl, hn⟩, _, _, _, rfl, ⟨rfl, hcheck⟩,
      _, _, document, rfl, ⟨reply, rfl, hd⟩, _, _, ⟨inspect', c⟩, rfl, ⟨rfl, hc⟩, rfl, he⟩
    obtain ⟨rfl, rfl⟩ := Prod.mk.inj (Except.ok.inj he)
    exact ⟨address, document, c, reply, ha.symm, requireContainer_ok_iff.mp hn.symm, hcheck.symm, rfl,
      hd.symm, hc.symm⟩
  · rintro ⟨address, document, c, reply, ha, hn, hcheck, rfl, hd, hc⟩
    exact ⟨[], _, address, rfl, ⟨rfl, ha.symm⟩, [], _, container, rfl,
      ⟨rfl, (requireContainer_ok_iff.mpr hn).symm⟩, [], _, (), rfl, ⟨rfl, hcheck.symm⟩,
      _, [], document, rfl, ⟨reply, rfl, hd.symm⟩, [], [], (inspect, c), rfl, ⟨rfl, hc.symm⟩, rfl, rfl⟩

/-- Behind an inspection, `logs` makes one request and decodes the reply to it. -/
theorem exec_logs_of_inspected {uri : Str} {tail : Int} {inspected : List (Exchange http)}
    {container : Str} {inspect : Object} {reply : Reply} {response : List UInt8 × Bool}
    (hinspect : (inspectAddressed reference uri "Docker logs require a container address"
      (checkTail tail)).Exec inspected (.ok (container, inspect)))
    (hread : readReply maxLogBytes true reply = .ok response) :
    (logs reference uri tail).Exec
      (inspected ++ [⟨⟨containerPath container "/logs", logParams tail⟩, reply⟩])
      (logResult tail.toNat (!ttyOf inspect) response) := by
  apply Prog.exec_bind.mpr
  refine .inr ⟨inspected, _, (container, inspect), rfl, hinspect, ?_⟩
  apply Prog.exec_bind.mpr
  refine .inr ⟨_, [], response, (List.append_nil _).symm, ?_, ?_⟩
  · exact exec_readResponse.mpr ⟨reply, rfl, hread.symm⟩
  · exact (Prog.exec_ofExcept _ _ _).mpr ⟨rfl, rfl⟩

end Python

end MiraDriver.Docker
