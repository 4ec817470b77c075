import MiraDriver.Program
import MiraDriver.Mapping
import MiraDriver.Base

/-!
# The report loop

`DriverRunner`: one poll cycle reads the inventory through a driver, compares it with
what the last cycle left behind, and hands a snapshot to every sink. The driver, the
host metrics collector, the clock and the sinks are the environment: each call may be
answered in any way. Logging is left out.
-/
namespace MiraDriver.Runner

open MiraDriver.Text MiraDriver.Mapping MiraDriver.Base MiraDriver.Program

inductive EventKind where
  | oomKilled
  | exited
  | restarted
  deriving DecidableEq, Repr

def EventKind.name : EventKind → Str
  | .oomKilled => lit "container.oom_killed"
  | .exited => lit "container.exited"
  | .restarted => lit "container.restarted"

structure DriverEvent where
  kind : EventKind
  uri : Str
  occurredAt : Str
  exitCode : Option Int
  logTail : List Str
  deriving DecidableEq, Repr

/-- The CPU percentage is exact. -/
structure ContainerObservation where
  details : DriverResourceDetails
  stats : Option DriverContainerStats
  cpuPercent : Option Rat
  revision : Option Str
  deriving DecidableEq, Repr

structure DriverSnapshot where
  targetReference : Str
  collectedAt : Str
  containers : List ContainerObservation
  hostMetrics : List MetricSample
  events : List DriverEvent
  deriving DecidableEq, Repr

/-- `_Baseline`. -/
structure Baseline where
  restartCount : Option PyInt
  finishedAt : Option Str
  stats : Option DriverContainerStats
  deriving DecidableEq, Repr

/-- A runner over sinks of some type. There is at least one. -/
structure DriverRunner (σ : Type) where
  sinks : List σ
  nonempty : sinks ≠ []
  reference : Str
  /-- Whether there is a host metrics collector. -/
  hostMetrics : Bool
  postmortemTail : Int
  statsSupported : Bool
  revisionSupported : Bool
  baselines : Dict Str Baseline

/-- What the runner calls. -/
inductive Call (σ : Type) where
  | now
  | query (q : DriverResourceQuery)
  | describe (uri : Str)
  | stats (uri : Str)
  | revision (uri : Str)
  | logs (uri : Str) (tail : Int)
  | collect
  | publish (sink : σ) (snapshot : DriverSnapshot)

/-- What each call may return or raise. -/
abbrev Reply {σ : Type} : Call σ → Type
  | .now => Str
  | .query _ => Except Exn (List DriverResource)
  | .describe _ => Except Exn DriverResourceDetails
  | .stats _ => Except Exn DriverContainerStats
  | .revision _ => Except Exn (Option Str)
  | .logs _ _ => Except Exn DriverLogResult
  | .collect => Except Exn (List MetricSample)
  | .publish _ _ => Except Exn Unit

abbrev Env (σ : Type) : Interface := ⟨Call σ, Reply⟩

/-- From here on a number is too large for a double. -/
@[irreducible] def doubleLimit : Nat := 2 ^ 1024 - 2 ^ 970

/-- `a / b` on integers, for a divisor that is not zero. -/
def trueDivide (a b : Int) : Except Exn Rat :=
  if a.natAbs ≥ doubleLimit * b.natAbs then .error .overflowError else .ok (a / b)

/-- An integer that is multiplied with a float. -/
def toDouble (n : Int) : Except Exn Rat :=
  if n.natAbs ≥ doubleLimit then .error .overflowError else .ok n

/-- `current.online_cpus or 1`. -/
def cpusOf (stats : DriverContainerStats) : Int :=
  match stats.onlineCpus with
  | some n => if n = 0 then 1 else n
  | none => 1

/-- `_cpu_percent`. -/
def cpuPercent (previous current : Option DriverContainerStats) : Except Exn (Option Rat) :=
  match previous, current with
  | some previous, some current =>
    match previous.cpuTotalNs, previous.cpuSystemNs, current.cpuTotalNs, current.cpuSystemNs with
    | some previousTotal, some previousSystem, some currentTotal, some currentSystem =>
      let deltaTotal := currentTotal - previousTotal
      let deltaSystem := currentSystem - previousSystem
      if deltaTotal < 0 ∨ deltaSystem ≤ 0 then .ok none
      else do
        let ratio ← trueDivide deltaTotal deltaSystem
        let cpus ← toDouble (cpusOf current)
        pure (some (ratio * cpus * 100))
    | _, _, _, _ => .ok none
  | _, _ => .ok none

/-- `died` in `_detect_event`. -/
def died (previous : Baseline) (details : DriverResourceDetails) : Bool :=
  details.finishedAt ≠ none && details.finishedAt ≠ previous.finishedAt

/-- `restarted` in `_detect_event`. -/
def restarted (previous : Baseline) (details : DriverResourceDetails) : Bool :=
  match details.restartCount, previous.restartCount with
  | some now, some before => now.toInt > before.toInt
  | _, _ => false

/-- The kind of event, if there is one. -/
def eventKind (previous : Option Baseline) (details : DriverResourceDetails) : Option EventKind :=
  match previous with
  | none => none
  | some previous =>
    if !died previous details && !restarted previous details then none
    else if details.oomKilled = some true then some .oomKilled
    else if restarted previous details then some .restarted
    else some .exited

/-- A line of a post-mortem tail, cut to its maximal length. -/
def logLine (entry : DriverLogEntry) : Str :=
  let stamp := match entry.timestamp with
    | some t => if t = [] then [] else t ++ [' ']
    | none => []
  (stamp ++ '[' :: (entry.stream.name ++ ']' :: ' ' :: entry.text)).take 1000

/-- What the loop over the resources has gathered. -/
structure Progress where
  observations : List ContainerObservation
  events : List DriverEvent
  newBaselines : Dict Str Baseline

variable {σ : Type} (r : DriverRunner σ)

/-- Call the environment. -/
def call {ε : Type} (c : Call σ) : Prog (Env σ) ε (Reply c) := Prog.ask (I := Env σ) c

/-- `except DriverError: return default`. -/
def tolerate {α : Type} (fallback : α) (reply : Except Exn α) : Except Exn α :=
  match reply with
  | .ok a => .ok a
  | .error e => if e.isDriverError then .ok fallback else .error e

/-- `_sample_stats`. -/
def sampleStats (uri : Str) : Prog (Env σ) Exn (Option DriverContainerStats) :=
  if r.statsSupported then do
    let reply ← call (.stats uri)
    Prog.ofExcept (tolerate none (reply.map some))
  else pure none

/-- `_sample_revision`. -/
def sampleRevision (uri : Str) : Prog (Env σ) Exn (Option Str) :=
  if r.revisionSupported then do
    let reply ← call (.revision uri)
    Prog.ofExcept (tolerate none reply)
  else pure none

/-- The lines that a log reply comes to. -/
def postmortemLines (reply : Except Exn DriverLogResult) : Except Exn (List Str) :=
  tolerate [] (reply.map fun result => result.entries.map logLine)

/-- `_postmortem`. -/
def postmortem (uri : Str) : Prog (Env σ) Exn (List Str) := do
  let reply ← call (.logs uri r.postmortemTail)
  Prog.ofExcept (postmortemLines reply)

/-- `_detect_event`. -/
def detectEvent (previous : Option Baseline) (details : DriverResourceDetails) (occurredAt : Str) :
    Prog (Env σ) Exn (Option DriverEvent) :=
  match eventKind previous details with
  | none => pure none
  | some kind => do
    let logTail ← postmortem r details.resource.uri
    pure (some ⟨kind, details.resource.uri, occurredAt, details.exitCode, logTail⟩)

/-- The loop body, for a resource that was described. -/
def observeDetails (collectedAt : Str) (progress : Progress) (uri : Str)
    (details : DriverResourceDetails) : Prog (Env σ) Exn Progress := do
  let stats ← sampleStats r uri
  let revision ← sampleRevision r uri
  let previous := r.baselines.get? uri
  let cpu ← Prog.ofExcept (cpuPercent (previous.bind Baseline.stats) stats)
  let event ← detectEvent r previous details collectedAt
  pure ⟨progress.observations ++ [⟨details, stats, cpu, revision⟩],
    progress.events ++ event.toList,
    progress.newBaselines.set uri ⟨details.restartCount, details.finishedAt, stats⟩⟩

/-- The loop body: a vanished container is left out, any other failure ends the cycle. -/
def observe (collectedAt : Str) (progress : Progress) (resource : DriverResource) :
    Prog (Env σ) Exn Progress := do
  let described ← call (.describe resource.uri)
  match described with
  | .ok details => observeDetails r collectedAt progress resource.uri details
  | .error e => if e.isResourceNotFound then pure progress else throw e

def observeAll (collectedAt : Str) : Progress → List DriverResource → Prog (Env σ) Exn Progress
  | progress, [] => pure progress
  | progress, resource :: rest => do
    let progress ← observe r collectedAt progress resource
    observeAll collectedAt progress rest

/-- `_collect` up to the assignment of the new baselines. -/
def poll : Prog (Env σ) Exn (Str × Progress) := do
  let collectedAt ← call .now
  let listed ← call (.query (.all .container))
  let resources ← Prog.ofExcept listed
  let progress ← observeAll r collectedAt ⟨[], [], Dict.empty⟩ resources
  pure (collectedAt, progress)

/-- The host metrics: none of them where there is no collector, or where it says that they
are unavailable. -/
def collectHost : Prog (Env σ) Exn (List MetricSample) :=
  if r.hostMetrics then do
    let reply ← call .collect
    match reply with
    | .ok samples => pure samples
    | .error e => if e.isHostMetricsUnavailable then pure [] else throw e
  else pure []

/-- `_collect`, with the runner it leaves behind. The baselines are replaced before the
host metrics are asked for. -/
def collect : Prog (Env σ) Empty (Except Exn DriverSnapshot × DriverRunner σ) := do
  let polled ← (poll r).attempt
  match polled with
  | .error e => pure (.error e, r)
  | .ok (collectedAt, progress) =>
    let hostMetrics ← (collectHost r).attempt
    pure (hostMetrics.map fun hostMetrics =>
        ⟨r.reference, collectedAt, progress.observations, hostMetrics, progress.events⟩,
      { r with baselines := progress.newBaselines })

/-- The loop over the sinks. -/
def publishAll (snapshot : DriverSnapshot) : List σ → Prog (Env σ) Exn Unit
  | [] => pure ()
  | sink :: rest => do
    let reply ← call (.publish sink snapshot)
    match reply with
    | .ok () => publishAll snapshot rest
    | .error e => if e.isException then publishAll snapshot rest else throw e

/-- `run_once`. -/
def runOnce : Prog (Env σ) Empty (Except Exn DriverSnapshot × DriverRunner σ) := do
  let (collected, r') ← collect r
  match collected with
  | .error e => pure (.error e, r')
  | .ok snapshot =>
    let published ← (publishAll snapshot r'.sinks).attempt
    pure (published.map fun _ => snapshot, r')

end MiraDriver.Runner
