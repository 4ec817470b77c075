import Mathlib.Algebra.Order.Field.Basic
import Mathlib.Algebra.Order.Field.Rat
import MiraDriver.Process

/-!
# Host metrics

`HostMetricsCollector`: gauges out of procfs and of the filesystems. The utilization of the
CPU is a rate between two calls, so a collector keeps the counters of the last `cpu` line.
-/
namespace MiraDriver.Metrics

open MiraDriver.Text MiraDriver.Mapping MiraDriver.Base MiraDriver.Program MiraDriver.Numerals
open MiraDriver.Runner (trueDivide toDouble)

/-- Why a file or a filesystem could not be looked at. -/
inductive HostFailure where
  | osError
  | exception (name : Str)
  deriving DecidableEq, Repr

/-- `os.statvfs_result`. -/
structure StatVfs where
  frsize : Int
  blocks : Int
  bfree : Int
  bavail : Int
  deriving DecidableEq, Repr

/-- What the collector asks of the operating system. -/
inductive Call where
  | read (path : Str)
  | statvfs (path : Str)
  deriving DecidableEq, Repr

abbrev Reply : Call → Type
  | .read _ => Except HostFailure (List UInt8)
  | .statvfs _ => Except HostFailure StatVfs

abbrev host : Interface := ⟨Call, Reply⟩

/-- The counters of an aggregate `cpu` line. -/
structure CpuTimes where
  total : Int
  idle : Int
  deriving DecidableEq, Repr

/-- A collector with the counters that it has seen last. -/
structure HostMetricsCollector extends Process.HostMetricsCollector where
  previousCpu : Option CpuTimes

/-- `HostMetricsCollector(...)`. -/
def HostMetricsCollector.create (procPath : Str) (diskPaths : Option (Dict Str Str)) :
    HostMetricsCollector where
  proc := Drivers.rstrip '/' procPath
  disks := diskPaths.getD (Dict.ofList [(lit "/", lit "/")])
  previousCpu := none

/-- `_READ_LIMIT_BYTES`. -/
def readLimitBytes : Nat := 1024 * 1024

/-- `bytes.decode("ascii", errors="replace")`. -/
def decodeAscii (bytes : List UInt8) : Str :=
  bytes.map fun b => if b < 128 then Char.ofNat b.toNat else '\uFFFD'

/-- What a file that is opened as text makes of its line ends. -/
def universalNewlines : Str → Str
  | [] => []
  | '\r' :: '\n' :: rest => '\n' :: universalNewlines rest
  | c :: rest => (if c = '\r' then '\n' else c) :: universalNewlines rest

def textOf (bytes : List UInt8) : Str := universalNewlines (decodeAscii bytes)

/-- `raise HostMetricsUnavailable(...) from error` on an `OSError`. -/
def HostFailure.raised (message : Str) : HostFailure → Exn
  | .osError => .hostMetricsUnavailable message
  | .exception name => .exception name

/-- The content of a file, unless it fills the cap. -/
def readContent (path : Str) (reply : Except HostFailure (List UInt8)) : Except Exn Str :=
  match reply with
  | .error e => .error (e.raised (lit "cannot read " ++ path))
  | .ok bytes =>
    let content := (textOf bytes).take (readLimitBytes + 1)
    if content.length > readLimitBytes then
      .error (.hostMetricsUnavailable (path ++ lit " exceeds the " ++ (Nat.repr readLimitBytes).toList ++
        lit "-byte read cap"))
    else .ok content

def plain (name : Str) (value : Double) (unit : String) : MetricSample := ⟨name, value, some (lit unit), []⟩

/-- A field parsed, or the exception for a malformed file in place of a `ValueError`. -/
def parseOr {α : Type} (parse : Str → Option α) (message : String) (field : Str) : Except Exn α :=
  match parse field with
  | some value => .ok value
  | none => .error (.hostMetricsUnavailable (lit message))

def parseEach {α : Type} (parse : Str → Option α) (message : String) (fields : List Str) :
    Except Exn (List α) := fields.mapM (parseOr parse message)

/-- Whether a line of `stat` is that of one CPU. -/
def isCpuLine (line : Str) : Bool :=
  (lit "cpu").isPrefixOf line && ((line.drop 3).take 1).any isDigit

/-- `_cpu_count`, of the content of `stat`. -/
def cpuCountSamples (content : Str) : Except Exn (List MetricSample) :=
  let count := (splitLines content).countP isCpuLine
  if count = 0 then .error (.hostMetricsUnavailable (lit "stat has no per-cpu lines"))
  else .ok [plain (lit "system.cpu.logical.count") (.finite count) "\x7bcpu\x7d"]

/-- The sample that two readings make, if they make sense together. -/
def utilizationSamples (previous : Option CpuTimes) (now : CpuTimes) : Except Exn (List MetricSample) :=
  match previous with
  | none => .ok []
  | some previous =>
    let deltaTotal := now.total - previous.total
    let deltaIdle := now.idle - previous.idle
    if deltaTotal ≤ 0 ∨ deltaIdle < 0 ∨ deltaIdle > deltaTotal then .ok []
    else do
      let utilization ← trueDivide (deltaTotal - deltaIdle) deltaTotal
      pure [plain (lit "system.cpu.utilization") (.finite utilization) "1"]

def memoryKeys : List Str :=
  [lit "MemTotal", lit "MemFree", lit "MemAvailable", lit "Buffers", lit "Cached"]

def usage (name : String) (value : Rat) (attributes : List (Str × Str)) : MetricSample :=
  ⟨lit name, .finite value, some (lit "By"), attributes⟩

/-- The samples of one filesystem. -/
def filesystemSamples (mountpoint : Str) (stats : StatVfs) : Except Exn (List MetricSample) := do
  let block := stats.frsize
  let total := stats.blocks * block
  let free := stats.bavail * block
  let used := max (total - stats.bfree * block) 0
  let usedValue ← toDouble used
  let freeValue ← toDouble free
  let samples :=
    [usage "system.filesystem.usage" usedValue
      [(lit "mountpoint", mountpoint), (lit "state", lit "used")],
    usage "system.filesystem.usage" freeValue
      [(lit "mountpoint", mountpoint), (lit "state", lit "free")]]
  if used + free > 0 then do
    let utilization ← trueDivide used (used + free)
    pure (samples ++ [⟨lit "system.filesystem.utilization", .finite utilization, some (lit "1"),
      [(lit "mountpoint", mountpoint)]⟩])
  else pure samples

/-- Pairs of strings in the order of tuples. -/
def pairLe (a b : Str × Str) : Bool := a.1 < b.1 || (a.1 = b.1 && a.2 ≤ b.2)

/-- `sorted` on pairs. -/
def sortedPairs (l : List (Str × Str)) : List (Str × Str) := l.insertionSort fun a b => pairLe a b = true

section Parse

variable [Python] [Digits]

/-- `_load_average`, of the content of `loadavg`. -/
def loadSamples (content : Str) : Except Exn (List MetricSample) :=
  let fields := split content
  if fields.length < 3 then .error (.hostMetricsUnavailable (lit "loadavg is malformed"))
  else do
    let values ← parseEach parseFloat "loadavg is malformed" (fields.take 3)
    pure (([lit "1m", lit "5m", lit "15m"].zip values).map fun x =>
      plain (lit "system.cpu.load_average." ++ x.1) x.2 "1")

/-- The counters of `stat`: user, nice, system, idle, iowait and up to three more. -/
def cpuTimes (content : Str) : Except Exn CpuTimes :=
  match (splitLines content).find? ((lit "cpu ").isPrefixOf ·) with
  | none => .error (.hostMetricsUnavailable (lit "stat has no aggregate cpu line"))
  | some line => do
    let jiffies ← parseEach parseInt "stat cpu line is malformed" ((split line).tail.take 8)
    if jiffies.length < 5 then .error (.hostMetricsUnavailable (lit "stat cpu line is malformed"))
    else pure ⟨jiffies.sum, jiffies.getD 3 0 + jiffies.getD 4 0⟩

/-- The loop body of `_memory`. -/
def memoryLine (values : Dict Str Int) (line : Str) : Except Exn (Dict Str Int) :=
  let key := (partition ':' line).1
  if key ∈ memoryKeys then
    match split ((partition ':' line).2.getD []) with
    | [] => .ok values
    | field :: _ => do
      let n ← parseOr parseInt "meminfo is malformed" field
      pure (values.set key (n * 1024))
  else .ok values

/-- `_memory`, of the content of `meminfo`. -/
def memorySamples (content : Str) : Except Exn (List MetricSample) := do
  let values ← (splitLines content).foldlM memoryLine Dict.empty
  match values.get? (lit "MemTotal"), values.get? (lit "MemAvailable") with
  | some total, some available =>
    let used := max (total - available) 0
    let usedValue ← toDouble used
    let availableValue ← toDouble available
    let totalValue ← toDouble total
    let samples := [usage "system.memory.usage" usedValue [(lit "state", lit "used")],
      usage "system.memory.usage" availableValue [(lit "state", lit "available")],
      usage "system.memory.limit" totalValue []]
    if total > 0 then do
      let utilization ← trueDivide used total
      pure (samples ++ [plain (lit "system.memory.utilization") (.finite utilization) "1"])
    else pure samples
  | _, _ => .error (.hostMetricsUnavailable (lit "meminfo lacks MemTotal/MemAvailable"))

/-- `_uptime`, of the content of `uptime`. -/
def uptimeSamples (content : Str) : Except Exn (List MetricSample) :=
  match split content with
  | [] => .error (.hostMetricsUnavailable (lit "uptime is malformed"))
  | field :: _ => do
    let seconds ← parseOr parseFloat "uptime is malformed" field
    pure [plain (lit "system.uptime") seconds "s"]

end Parse

/-- The loop of `_filesystems`. -/
def filesystems : List (Str × Str) → Prog host Exn (List MetricSample)
  | [] => pure []
  | (mountpoint, probePath) :: rest => do
    let reply : Except HostFailure StatVfs ← Prog.ask (I := host) (.statvfs probePath)
    let stats ← Prog.ofExcept (reply.mapError fun e => e.raised
      (lit "cannot statvfs " ++ probePath ++ lit " (for mountpoint " ++ mountpoint ++ [')']))
    let samples ← Prog.ofExcept (filesystemSamples mountpoint stats)
    let more ← filesystems rest
    pure (samples ++ more)

namespace HostMetricsCollector

variable (c : HostMetricsCollector)

def path (name : String) : Str := c.proc ++ '/' :: lit name

/-- `_read`. -/
def read (name : String) : Prog host Exn Str := do
  let reply ← Prog.ask (I := host) (.read (c.path name))
  Prog.ofExcept (readContent (c.path name) reply)

/-- A reader of one file. -/
def reader {α : Type} (name : String) (parse : Str → Except Exn α) : Prog host Exn α := do
  let content ← c.read name
  Prog.ofExcept (parse content)

variable [Python] [Digits]

def loadAverage : Prog host Exn (List MetricSample) := c.reader "loadavg" loadSamples

def cpuCount : Prog host Exn (List MetricSample) := c.reader "stat" cpuCountSamples

def memory : Prog host Exn (List MetricSample) := c.reader "meminfo" memorySamples

def uptime : Prog host Exn (List MetricSample) := c.reader "uptime" uptimeSamples

/-- `_cpu_utilization`, with the collector that it leaves behind: the counters are kept before
it is known whether they make a sample. -/
def cpuUtilization : Prog host Empty (Except Exn (List MetricSample) × HostMetricsCollector) := do
  let reading ← (c.reader "stat" cpuTimes).attempt
  match reading with
  | .error e => pure (.error e, c)
  | .ok now => pure (utilizationSamples c.previousCpu now, { c with previousCpu := some now })

/-- The part of `collect` before the utilization. -/
def firstSamples : Prog host Exn (List MetricSample) := do
  let load ← c.loadAverage
  let count ← c.cpuCount
  pure (load ++ count)

/-- The part of `collect` after the utilization. -/
def lastSamples : Prog host Exn (List MetricSample) := do
  let memory ← c.memory
  let uptime ← c.uptime
  let disks ← filesystems (sortedPairs c.disks.entries)
  pure (memory ++ uptime ++ disks)

/-- `collect`, with the collector that it leaves behind. -/
def collect : Prog host Empty (Except Exn (List MetricSample) × HostMetricsCollector) := do
  let first ← c.firstSamples.attempt
  match first with
  | .error e => pure (.error e, c)
  | .ok first =>
    let (cpu, c') ← c.cpuUtilization
    match cpu with
    | .error e => pure (.error e, c')
    | .ok cpu =>
      let last ← c'.lastSamples.attempt
      pure (last.map (first ++ cpu ++ ·), c')

end HostMetricsCollector

/-! ## What is parsed -/

theorem parseOr_ok_iff {α : Type} {parse : Str → Option α} {message : String} {field : Str} {a : α} :
    parseOr parse message field = .ok a ↔ parse field = some a := by
  unfold parseOr
  cases parse field <;> simp

theorem parseEach_ok_iff {α : Type} {parse : Str → Option α} {message : String} {fields : List Str}
    {values : List α} : parseEach parse message fields = .ok values ↔
      List.Forall₂ (fun field a => parse field = some a) fields values := by
  unfold parseEach
  rw [mapM_ok_iff]
  simp only [parseOr_ok_iff]

/-- An integer between 0 and the divisor is divided by it exactly, to a number between 0 and 1. -/
theorem trueDivide_unit {a b : Int} (ha : 0 ≤ a) (hab : a ≤ b) (hb : 0 < b) :
    trueDivide a b = .ok ((a : Rat) / b) ∧ 0 ≤ (a : Rat) / b ∧ (a : Rat) / b ≤ 1 := by
  have hpos : (0 : Rat) < b := by exact_mod_cast hb
  refine ⟨?_, ?_, ?_⟩
  · have hfits : ¬ a.natAbs ≥ Runner.doubleLimit * b.natAbs := by
      have hlimit : 2 ≤ Runner.doubleLimit := by
        unfold Runner.doubleLimit
        decide +kernel
      have hmul : 2 * b.natAbs ≤ Runner.doubleLimit * b.natAbs := Nat.mul_le_mul_right _ hlimit
      omega
    rw [trueDivide, if_neg hfits]
  · exact div_nonneg (by exact_mod_cast ha) hpos.le
  · rw [div_le_one hpos]
    exact_mod_cast hab

/-- Two readings that make no sense together: the total has not increased, or the idle time has
decreased, or it has increased by more than the total. -/
def Senseless (previous now : CpuTimes) : Prop :=
  now.total - previous.total ≤ 0 ∨ now.idle - previous.idle < 0 ∨
    now.idle - previous.idle > now.total - previous.total

/-- The share of the time between two readings in which the CPU was not idle. -/
def busyShare (previous now : CpuTimes) : Rat :=
  ((now.total - previous.total - (now.idle - previous.idle) : Int) : Rat) /
    ((now.total - previous.total : Int) : Rat)

theorem utilizationSamples_withheld {previous now : CpuTimes} (h : Senseless previous now) :
    utilizationSamples (some previous) now = .ok [] := by
  unfold utilizationSamples
  exact if_pos h

theorem utilizationSamples_reported {previous now : CpuTimes} (h : ¬ Senseless previous now) :
    utilizationSamples (some previous) now =
      .ok [plain (lit "system.cpu.utilization") (.finite (busyShare previous now)) "1"] ∧
    0 ≤ busyShare previous now ∧ busyShare previous now ≤ 1 := by
  have hdelta := h
  unfold Senseless at hdelta
  push Not at hdelta
  obtain ⟨htotal, hidle, hle⟩ := hdelta
  obtain ⟨hdivide, hunit⟩ := trueDivide_unit (a := now.total - previous.total -
    (now.idle - previous.idle)) (by omega) (by omega) htotal
  refine ⟨?_, hunit⟩
  unfold utilizationSamples
  refine (if_neg h).trans ?_
  rw [hdivide]
  rfl

/-- Counters that have been kept make a sample or none, and never an exception. -/
theorem exists_utilizationSamples (previous : Option CpuTimes) (now : CpuTimes) :
    ∃ samples, utilizationSamples previous now = .ok samples := by
  cases previous with
  | none => exact ⟨[], rfl⟩
  | some previous =>
    by_cases h : Senseless previous now
    · exact ⟨[], utilizationSamples_withheld h⟩
    · exact ⟨_, (utilizationSamples_reported h).1⟩

/-! ## What is called -/

/-- A reader asks for its file once. -/
theorem exec_reader {c : HostMetricsCollector} {α : Type} {name : String} {parse : Str → Except Exn α}
    {t : List (Exchange host)} {x : Except Exn α} (h : (c.reader name parse).Exec t x) :
    ∃ reply : Except HostFailure (List UInt8), t = [⟨.read (c.path name), reply⟩] ∧
      x = (readContent (c.path name) reply >>= parse) := by
  obtain ⟨t₁, t₂, content, rfl, hread, hrest⟩ := Prog.exec_bind_outcome h
  obtain ⟨reply, t₁, rfl, hcontent⟩ := hread
  obtain ⟨rfl, rfl⟩ := (Prog.exec_ofExcept _ _ _).mp hcontent
  refine ⟨reply, ?_⟩
  cases hc : readContent (c.path name) reply with
  | ok content =>
    rw [hc] at hrest
    obtain ⟨rfl, rfl⟩ := (Prog.exec_ofExcept _ _ _).mp hrest
    exact ⟨rfl, rfl⟩
  | error e =>
    rw [hc] at hrest
    obtain ⟨rfl, rfl⟩ := hrest
    exact ⟨rfl, rfl⟩

/-- A call of `collect` fails before the counters are read, or fails to read them, or keeps
them; only then can it have samples. -/
theorem exec_collect [Python] [Digits] {c c' : HostMetricsCollector} {t : List (Exchange host)}
    {out : Except Exn (List MetricSample)} (h : c.collect.Exec t (.ok (out, c'))) :
    (∃ e, c.firstSamples.Exec t (.error e) ∧ out = .error e ∧ c' = c) ∨
    (∃ t₁ t₂ first e, t = t₁ ++ t₂ ∧ c.firstSamples.Exec t₁ (.ok first) ∧
      (c.reader "stat" cpuTimes).Exec t₂ (.error e) ∧ out = .error e ∧ c' = c) ∨
    ∃ t₁ t₂ t₃ first now cpu last, t = t₁ ++ t₂ ++ t₃ ∧ c.firstSamples.Exec t₁ (.ok first) ∧
      (c.reader "stat" cpuTimes).Exec t₂ (.ok now) ∧ c' = { c with previousCpu := some now } ∧
      utilizationSamples c.previousCpu now = .ok cpu ∧ c'.lastSamples.Exec t₃ last ∧
      out = last.map (first ++ cpu ++ ·) := by
  obtain ⟨t₁, t₂, first, rfl, hfirst, hrest⟩ := Prog.exec_attempt_bind.mp h
  cases first with
  | error e =>
    obtain ⟨rfl, hout⟩ := hrest
    obtain ⟨rfl, rfl⟩ := Prod.mk.inj (Except.ok.inj hout)
    exact .inl ⟨e, by rwa [List.append_nil], rfl, rfl⟩
  | ok first =>
    obtain ⟨t₂, t₃, ⟨cpu, q⟩, rfl, hcpu, hlater⟩ := Prog.exec_bind_ok.mp hrest
    obtain ⟨t₂, t₄, reading, rfl, hreading, hkept⟩ := Prog.exec_attempt_bind.mp hcpu
    cases reading with
    | error e =>
      obtain ⟨rfl, hq⟩ := hkept
      obtain ⟨rfl, rfl⟩ := Prod.mk.inj (Except.ok.inj hq)
      obtain ⟨rfl, hout⟩ := hlater
      obtain ⟨rfl, rfl⟩ := Prod.mk.inj (Except.ok.inj hout)
      exact .inr (.inl ⟨t₁, t₂, first, e, by simp, hfirst, hreading, rfl, rfl⟩)
    | ok now =>
      obtain ⟨rfl, hq⟩ := hkept
      obtain ⟨rfl, rfl⟩ := Prod.mk.inj (Except.ok.inj hq)
      obtain ⟨samples, hsamples⟩ := exists_utilizationSamples c.previousCpu now
      simp only [hsamples] at hlater
      obtain ⟨t₃, t₄, last, rfl, hlast, hend⟩ := Prog.exec_attempt_bind.mp hlater
      obtain ⟨rfl, hout⟩ := hend
      obtain ⟨rfl, rfl⟩ := Prod.mk.inj (Except.ok.inj hout)
      exact .inr (.inr ⟨t₁, t₂, t₃, first, now, samples, last, by simp, hfirst, hreading, rfl,
        hsamples, hlast, rfl⟩)

/-! ## What is reported -/

/-- What tells one time series from another. -/
def series (s : MetricSample) : Str × List (Str × Str) := (s.name, s.attributes)

/-- The series of the load and of the number of CPUs. -/
def firstSeries : List (Str × List (Str × Str)) :=
  [(lit "system.cpu.load_average.1m", []), (lit "system.cpu.load_average.5m", []),
    (lit "system.cpu.load_average.15m", []), (lit "system.cpu.logical.count", [])]

def utilizationSeries : Str × List (Str × Str) := (lit "system.cpu.utilization", [])

/-- The series of the memory and of the uptime. -/
def lastSeries : List (Str × List (Str × Str)) :=
  [(lit "system.memory.usage", [(lit "state", lit "used")]),
    (lit "system.memory.usage", [(lit "state", lit "available")]), (lit "system.memory.limit", []),
    (lit "system.memory.utilization", []), (lit "system.uptime", [])]

/-- The series of one filesystem. -/
def diskSeries (mountpoint : Str) : List (Str × List (Str × Str)) :=
  [(lit "system.filesystem.usage", [(lit "mountpoint", mountpoint), (lit "state", lit "used")]),
    (lit "system.filesystem.usage", [(lit "mountpoint", mountpoint), (lit "state", lit "free")]),
    (lit "system.filesystem.utilization", [(lit "mountpoint", mountpoint)])]

theorem name_of_mem_diskSeries {mountpoint : Str} {x : Str × List (Str × Str)}
    (h : x ∈ diskSeries mountpoint) :
    x.1 = lit "system.filesystem.usage" ∨ x.1 = lit "system.filesystem.utilization" := by
  simp only [diskSeries, List.mem_cons, List.not_mem_nil, or_false] at h
  rcases h with rfl | rfl | rfl
  · exact .inl rfl
  · exact .inl rfl
  · exact .inr rfl

/-- The mountpoints in the order in which they are looked at. -/
def HostMetricsCollector.mountpoints (c : HostMetricsCollector) : List Str :=
  (sortedPairs c.disks.entries).map Prod.fst

section Series

variable {samples : List MetricSample} {content : Str}

theorem cpuCountSamples_series (h : cpuCountSamples content = .ok samples) :
    samples.map series = [(lit "system.cpu.logical.count", [])] := by
  unfold cpuCountSamples at h
  dsimp only at h
  split at h
  · cases h
  · obtain rfl := Except.ok.inj h
    rfl

theorem utilizationSamples_series {previous : Option CpuTimes} {now : CpuTimes}
    (h : utilizationSamples previous now = .ok samples) :
    (samples.map series).Sublist [utilizationSeries] := by
  cases previous with
  | none =>
    obtain rfl := Except.ok.inj h
    exact List.nil_sublist _
  | some previous =>
    by_cases hsense : Senseless previous now
    · rw [utilizationSamples_withheld hsense] at h
      obtain rfl := Except.ok.inj h
      exact List.nil_sublist _
    · rw [(utilizationSamples_reported hsense).1] at h
      obtain rfl := Except.ok.inj h
      exact List.Sublist.refl _

theorem filesystemSamples_series {mountpoint : Str} {stats : StatVfs}
    (h : filesystemSamples mountpoint stats = .ok samples) :
    (samples.map series).Sublist (diskSeries mountpoint) := by
  obtain ⟨used, -, h⟩ := bind_ok_iff.mp h
  obtain ⟨free, -, h⟩ := bind_ok_iff.mp h
  split at h
  · obtain ⟨utilization, -, h⟩ := bind_ok_iff.mp h
    obtain rfl := Except.ok.inj h
    exact List.Sublist.refl _
  · obtain rfl := Except.ok.inj h
    exact List.sublist_append_left [_, _] [_]

variable [Python] [Digits]

theorem loadSamples_series (h : loadSamples content = .ok samples) : samples.map series =
    [(lit "system.cpu.load_average.1m", []), (lit "system.cpu.load_average.5m", []),
      (lit "system.cpu.load_average.15m", [])] := by
  unfold loadSamples at h
  dsimp only at h
  split at h
  · cases h
  · rename_i hfields
    obtain ⟨values, hvalues, h⟩ := bind_ok_iff.mp h
    have hlength : values.length = 3 := by
      rw [← (parseEach_ok_iff.mp hvalues).length_eq, List.length_take]
      omega
    obtain ⟨a, b, c, rfl⟩ := List.length_eq_three.mp hlength
    obtain rfl := Except.ok.inj h
    simp [series, plain, lit_def]

theorem memorySamples_series (h : memorySamples content = .ok samples) :
    (samples.map series).Sublist
      [(lit "system.memory.usage", [(lit "state", lit "used")]),
        (lit "system.memory.usage", [(lit "state", lit "available")]), (lit "system.memory.limit", []),
        (lit "system.memory.utilization", [])] := by
  obtain ⟨values, -, h⟩ := bind_ok_iff.mp h
  split at h
  · obtain ⟨used, -, h⟩ := bind_ok_iff.mp h
    obtain ⟨available, -, h⟩ := bind_ok_iff.mp h
    obtain ⟨total, -, h⟩ := bind_ok_iff.mp h
    split at h
    · obtain ⟨utilization, -, h⟩ := bind_ok_iff.mp h
      obtain rfl := Except.ok.inj h
      exact List.Sublist.refl _
    · obtain rfl := Except.ok.inj h
      exact List.sublist_append_left [_, _, _] [_]
  · cases h

theorem uptimeSamples_series (h : uptimeSamples content = .ok samples) :
    samples.map series = [(lit "system.uptime", [])] := by
  unfold uptimeSamples at h
  split at h
  · cases h
  · obtain ⟨seconds, -, h⟩ := bind_ok_iff.mp h
    obtain rfl := Except.ok.inj h
    rfl

end Series

theorem exec_reader_ok {c : HostMetricsCollector} {α : Type} {name : String} {parse : Str → Except Exn α}
    {t : List (Exchange host)} {a : α} (h : (c.reader name parse).Exec t (.ok a)) :
    ∃ content, parse content = .ok a := by
  obtain ⟨reply, -, hx⟩ := exec_reader h
  obtain ⟨content, -, hparsed⟩ := bind_ok_iff.mp hx.symm
  exact ⟨content, hparsed⟩

/-- Each filesystem is reported under its own mountpoint: by induction on the mountpoints. -/
theorem exec_filesystems_series {disks : List (Str × Str)} {t : List (Exchange host)}
    {samples : List MetricSample} (h : (filesystems disks).Exec t (.ok samples)) :
    (samples.map series).Sublist ((disks.map Prod.fst).flatMap diskSeries) := by
  induction disks generalizing t samples with
  | nil =>
    obtain ⟨-, hout⟩ := h
    obtain rfl := Except.ok.inj hout
    exact List.nil_sublist _
  | cons disk rest ih =>
    obtain ⟨t₀, t₁, reply, rfl, -, hdisk⟩ := Prog.exec_bind_ok.mp h
    obtain ⟨t₁, t₂, stats, rfl, -, hsamples⟩ := Prog.exec_bind_ok.mp hdisk
    obtain ⟨t₂, t₃, own, rfl, hown, hrest⟩ := Prog.exec_bind_ok.mp hsamples
    obtain ⟨t₃, t₄, more, rfl, hmore, hend⟩ := Prog.exec_bind_ok.mp hrest
    obtain ⟨-, hout⟩ := hend
    obtain rfl := Except.ok.inj hout
    have hseries := filesystemSamples_series ((Prog.exec_ofExcept _ _ _).mp hown).2.symm
    rw [List.map_append, List.map_cons, List.flatMap_cons]
    exact hseries.append (ih hmore)

section Collect

variable [Python] [Digits] {c c' : HostMetricsCollector} {t : List (Exchange host)}
  {samples : List MetricSample}

theorem exec_firstSamples_series (h : c.firstSamples.Exec t (.ok samples)) :
    samples.map series = firstSeries := by
  obtain ⟨t₁, t₂, load, rfl, hload, h⟩ := Prog.exec_bind_ok.mp h
  obtain ⟨t₂, t₃, count, rfl, hcount, hend⟩ := Prog.exec_bind_ok.mp h
  obtain ⟨-, hout⟩ := hend
  obtain rfl := Except.ok.inj hout
  obtain ⟨loadavg, hloadavg⟩ := exec_reader_ok hload
  obtain ⟨stat, hstat⟩ := exec_reader_ok hcount
  rw [List.map_append, loadSamples_series hloadavg, cpuCountSamples_series hstat]
  rfl

theorem exec_lastSamples_series (h : c.lastSamples.Exec t (.ok samples)) :
    (samples.map series).Sublist (lastSeries ++ c.mountpoints.flatMap diskSeries) := by
  obtain ⟨t₁, t₂, memory, rfl, hmemory, h⟩ := Prog.exec_bind_ok.mp h
  obtain ⟨t₂, t₃, uptime, rfl, huptime, h⟩ := Prog.exec_bind_ok.mp h
  obtain ⟨t₃, t₄, disks, rfl, hdisks, hend⟩ := Prog.exec_bind_ok.mp h
  obtain ⟨-, hout⟩ := hend
  obtain rfl := Except.ok.inj hout
  obtain ⟨meminfo, hmeminfo⟩ := exec_reader_ok hmemory
  obtain ⟨content, hcontent⟩ := exec_reader_ok huptime
  rw [List.map_append, List.map_append, uptimeSamples_series hcontent]
  exact ((memorySamples_series hmeminfo).append (List.Sublist.refl _)).append
    (exec_filesystems_series hdisks)

/-- All series of a call, in their order. -/
theorem exec_collect_series (h : c.collect.Exec t (.ok (.ok samples, c'))) :
    (samples.map series).Sublist (firstSeries ++ [utilizationSeries] ++
      (lastSeries ++ c.mountpoints.flatMap diskSeries)) := by
  rcases exec_collect h with ⟨e, -, hout, -⟩ | ⟨_, _, _, e, -, -, -, hout, -⟩ |
    ⟨t₁, t₂, t₃, first, now, cpu, last, -, hfirst, -, rfl, hcpu, hlast, hout⟩
  · cases hout
  · cases hout
  · cases last with
    | error e => cases hout
    | ok last =>
      obtain rfl := Except.ok.inj hout
      rw [List.map_append, List.map_append, exec_firstSamples_series hfirst]
      exact ((List.Sublist.refl _).append (utilizationSamples_series hcpu)).append
        (exec_lastSamples_series hlast)

end Collect

/-! ## A host -/

/-- A host with some files, and filesystems that are all alike. -/
def hostOf (files : List (String × String)) : Unit → (call : Call) → Reply call × Unit
  | (), .read path =>
    match files.find? (lit ·.1 = path) with
    | some file => (.ok ((lit file.2).map fun c => UInt8.ofNat c.toNat), ())
    | none => (.error .osError, ())
  | (), .statvfs _ => (.ok ⟨4096, 100, 40, 40⟩, ())

/-- A call of `collect` on such a host: what is asked, the outcome, and the collector. -/
def collectOn [Python] [Digits] (files : List (String × String)) (c : HostMetricsCollector) :
    List (Exchange host) × Except Exn (List MetricSample) × HostMetricsCollector :=
  match (c.collect.serve (hostOf files) ()).1 with
  | .ok out => ((c.collect.serve (hostOf files) ()).2.1, out)

theorem exec_collectOn [Python] [Digits] (files : List (String × String)) (c : HostMetricsCollector) :
    c.collect.Exec (collectOn files c).1 (.ok (collectOn files c).2) := by
  have h := c.collect.exec_serve (hostOf files) ()
  unfold collectOn
  cases hout : (c.collect.serve (hostOf files) ()).1 with
  | ok out =>
    rw [hout] at h
    exact h
  | error e => cases e

/-- The files of a host after some time, of which `meminfo` can be missing. -/
def filesAfter (cpu : String) (meminfo : List (String × String)) : List (String × String) :=
  [("/proc/loadavg", "0.25 0.50 0.75 1/100 4242\n"), ("/proc/stat", cpu),
    ("/proc/uptime", "900.5 1700.0\n")] ++ meminfo

def meminfo : List (String × String) :=
  [("/proc/meminfo", "MemTotal: 4096 kB\nMemAvailable: 1024 kB\n")]

end MiraDriver.Metrics
