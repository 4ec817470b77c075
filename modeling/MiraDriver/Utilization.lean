import MiraDriver.History
import MiraDriver.Metrics

/-!
# CPU utilization over a sequence of polls

A call of `collect` reads `stat` twice: for the number of CPUs, and then for the counters of
the aggregate line. A sample is made of the counters of two calls. The earlier ones are the
last that were read, in a call that may have failed after it.
-/
namespace MiraDriver.Utilization

open MiraDriver.Text MiraDriver.Mapping MiraDriver.Base MiraDriver.Program MiraDriver.Numerals
  MiraDriver.History MiraDriver.Metrics

/-- A call of `collect`: what it has asked, with the replies, and how it has ended. -/
structure Collection where
  trace : List (Exchange host)
  outcome : Except Exn (List MetricSample)

/-- The replies for one file. -/
def replies (path : Str) (t : List (Exchange host)) : List (Except HostFailure (List UInt8)) :=
  t.filterMap fun x =>
    match x with
    | ⟨.read p, reply⟩ => if p = path then some reply else none
    | ⟨.statvfs _, _⟩ => none

section Statement

variable [Python] [Digits]

/-- The first line that begins with `cpu` and a space has these counters in its first eight
fields, of which five at least are there. -/
def AggregateLine (content : Str) (times : CpuTimes) : Prop :=
  ∃ before line after user nice system idle iowait more,
    splitLines content = before ++ line :: after ∧ (∀ l ∈ before, ¬ lit "cpu " <+: l) ∧
      lit "cpu " <+: line ∧
      List.Forall₂ (fun field n => parseInt field = some n) ((split line).tail.take 8)
        (user :: nice :: system :: idle :: iowait :: more) ∧
      times = ⟨(user :: nice :: system :: idle :: iowait :: more).sum, idle + iowait⟩

/-- The aggregate line was reached in a call, that is with the second read of the file, and
it was parsed. -/
def Reads (stat : Str) (call : Collection) (times : CpuTimes) : Prop :=
  ∃ bytes, (replies stat call.trace)[1]? = some (.ok bytes) ∧
    (textOf bytes).length ≤ readLimitBytes ∧ AggregateLine (textOf bytes) times

def Collects (c : HostMetricsCollector) (call : Collection) (c' : HostMetricsCollector) : Prop :=
  c.collect.Exec call.trace (.ok (call.outcome, c'))

/-- The next call after a sequence of calls. -/
structure Sound (stat : Str) (calls : List Collection) (call : Collection)
    (c c' : HostMetricsCollector) : Prop where
  /-- A sample is the busy share of the time since the latest reading. -/
  reported : ∀ samples, call.outcome = .ok samples → ∀ s ∈ samples,
    s.name = lit "system.cpu.utilization" → ∃ previous now, Latest (Reads stat) calls previous ∧
      Reads stat call now ∧ s.value = .finite (busyShare previous now) ∧
      0 ≤ busyShare previous now ∧ busyShare previous now ≤ 1
  /-- There is none without an earlier reading. -/
  first : ∀ samples, call.outcome = .ok samples → (∀ previous, ¬ Latest (Reads stat) calls previous) →
    ∀ s ∈ samples, s.name ≠ lit "system.cpu.utilization"
  /-- There is none of two readings that make no sense together. -/
  withheld : ∀ samples, call.outcome = .ok samples → ∀ previous now,
    Latest (Reads stat) calls previous → Reads stat call now → Senseless previous now →
    ∀ s ∈ samples, s.name ≠ lit "system.cpu.utilization"
  /-- Two that make sense are reported. -/
  made : ∀ samples, call.outcome = .ok samples → ∀ previous now,
    Latest (Reads stat) calls previous → Reads stat call now → ¬ Senseless previous now →
    ∃ s ∈ samples, s.name = lit "system.cpu.utilization"
  kept : (∀ now, ¬ Reads stat call now) → c'.previousCpu = c.previousCpu
  replaced : ∀ now, Reads stat call now → c'.previousCpu = some now
  /-- The baseline before the call. -/
  held : ∀ previous, c.previousCpu = some previous ↔ Latest (Reads stat) calls previous

end Statement

/-! ## Replies -/

theorem replies_append (path : Str) (s t : List (Exchange host)) :
    replies path (s ++ t) = replies path s ++ replies path t := List.filterMap_append

theorem replies_read (path : Str) (reply : Except HostFailure (List UInt8)) :
    replies path [⟨.read path, reply⟩] = [reply] := by
  simp [replies]

/-- Calls for other files have no replies here. -/
theorem replies_eq_nil {path : Str} {t : List (Exchange host)} (h : ∀ x ∈ t, x.1 ≠ .read path) :
    replies path t = [] := by
  apply List.filterMap_eq_nil_iff.mpr
  intro x hx
  obtain ⟨call, reply⟩ := x
  cases call with
  | read p => exact if_neg fun hp => h _ hx (congrArg Call.read hp)
  | statvfs p => rfl

theorem path_inj {c : HostMetricsCollector} {a b : String} : c.path a = c.path b ↔ a = b := by
  simp [HostMetricsCollector.path]

theorem readContent_ok_iff {path content : Str} {reply : Except HostFailure (List UInt8)} :
    readContent path reply = .ok content ↔ ∃ bytes, reply = .ok bytes ∧
      (textOf bytes).length ≤ readLimitBytes ∧ content = textOf bytes := by
  cases reply with
  | error e => simp [readContent]
  | ok bytes =>
    unfold readContent
    dsimp only
    rw [List.length_take]
    by_cases hfits : (textOf bytes).length ≤ readLimitBytes
    · rw [if_neg (by omega), List.take_of_length_le (by omega)]
      simp [hfits, eq_comm]
    · rw [if_pos (by omega)]
      simp [hfits]

/-- Five counters at least. -/
theorem exists_five {l : List Int} (h : 5 ≤ l.length) :
    ∃ user nice system idle iowait more, l = user :: nice :: system :: idle :: iowait :: more := by
  rcases l with _ | ⟨user, _ | ⟨nice, _ | ⟨system, _ | ⟨idle, _ | ⟨iowait, more⟩⟩⟩⟩⟩
  · simp at h
  · simp at h
  · simp at h
  · simp at h
  · simp at h
  · exact ⟨user, nice, system, idle, iowait, more, rfl⟩

/-- The line that the loop over the lines of `stat` stops at. -/
theorem find_aggregate_iff {lines : List Str} {line : Str} :
    lines.find? ((lit "cpu ").isPrefixOf ·) = some line ↔ ∃ before after,
      lines = before ++ line :: after ∧ (∀ l ∈ before, ¬ lit "cpu " <+: l) ∧ lit "cpu " <+: line := by
  simp only [List.find?_eq_some_iff_append, List.isPrefixOf_iff_prefix, Bool.not_eq_true']
  constructor
  · rintro ⟨hbegins, before, after, hlines, hbefore⟩
    refine ⟨before, after, hlines, ?_, hbegins⟩
    intro l hl h
    have hl := hbefore l hl
    rw [List.isPrefixOf_iff_prefix.mpr h] at hl
    cases hl
  · rintro ⟨before, after, hlines, hbefore, hbegins⟩
    refine ⟨hbegins, before, after, hlines, ?_⟩
    intro l hl
    rw [Bool.eq_false_iff]
    intro h
    exact hbefore l hl (List.isPrefixOf_iff_prefix.mp h)

section Readings

variable [Python] [Digits]

/-- The parser of `stat` finds that line. -/
theorem cpuTimes_ok_iff {content : Str} {times : CpuTimes} :
    cpuTimes content = .ok times ↔ AggregateLine content times := by
  unfold cpuTimes AggregateLine
  constructor
  · intro h
    split at h
    · cases h
    · rename_i line hfind
      obtain ⟨before, after, hlines, hbefore, hbegins⟩ := find_aggregate_iff.mp hfind
      obtain ⟨jiffies, hjiffies, hrest⟩ := bind_ok_iff.mp h
      split at hrest
      · cases hrest
      · rename_i hlength
        obtain rfl := Except.ok.inj hrest
        obtain ⟨user, nice, system, idle, iowait, more, rfl⟩ := exists_five (not_lt.mp hlength)
        exact ⟨before, line, after, user, nice, system, idle, iowait, more, hlines, hbefore, hbegins,
          parseEach_ok_iff.mp hjiffies, rfl⟩
  · rintro ⟨before, line, after, user, nice, system, idle, iowait, more, hlines, hbefore, hbegins,
      hparsed, rfl⟩
    rw [find_aggregate_iff.mpr ⟨before, after, hlines, hbefore, hbegins⟩]
    refine bind_ok_iff.mpr ⟨_, parseEach_ok_iff.mpr hparsed, ?_⟩
    rw [if_neg (by simp)]
    rfl

theorem reads_iff {stat : Str} {call : Collection} {times : CpuTimes} : Reads stat call times ↔
    ∃ reply, (replies stat call.trace)[1]? = some reply ∧
      (readContent stat reply >>= cpuTimes) = .ok times := by
  unfold Reads
  constructor
  · rintro ⟨bytes, hreply, hfits, hline⟩
    exact ⟨_, hreply, bind_ok_iff.mpr ⟨_, readContent_ok_iff.mpr ⟨bytes, rfl, hfits, rfl⟩,
      cpuTimes_ok_iff.mpr hline⟩⟩
  · rintro ⟨reply, hreply, htimes⟩
    obtain ⟨content, hcontent, hparsed⟩ := bind_ok_iff.mp htimes
    obtain ⟨bytes, rfl, hfits, rfl⟩ := readContent_ok_iff.mp hcontent
    exact ⟨bytes, hreply, hfits, cpuTimes_ok_iff.mp hparsed⟩

variable {c c' : HostMetricsCollector} {t : List (Exchange host)}

omit [Python] [Digits] in
/-- Another reader leaves the replies for `stat` alone. -/
theorem replies_reader {α : Type} {name : String} (hname : name ≠ "stat") {parse : Str → Except Exn α}
    {x : Except Exn α} (h : (c.reader name parse).Exec t x) : replies (c.path "stat") t = [] := by
  obtain ⟨reply, rfl, -⟩ := exec_reader h
  apply replies_eq_nil
  simpa [path_inj] using hname

/-- `stat` is read once, or not at all, before the counters are. -/
theorem replies_firstSamples {x : Except Exn (List MetricSample)} (h : c.firstSamples.Exec t x) :
    (replies (c.path "stat") t).length ≤ 1 ∧
      (x.isOk = true → (replies (c.path "stat") t).length = 1) := by
  obtain ⟨t₁, t₂, load, rfl, hload, hrest⟩ := Prog.exec_bind_outcome h
  rw [replies_append, replies_reader (by decide) hload, List.nil_append]
  cases load with
  | error e =>
    obtain ⟨rfl, rfl⟩ := hrest
    simp [replies, Except.isOk, Except.toBool]
  | ok load =>
    obtain ⟨t₂, t₃, count, rfl, hcount, hend⟩ := Prog.exec_bind_outcome hrest
    obtain ⟨reply, rfl, -⟩ := exec_reader hcount
    have hnil : t₃ = [] := by cases count <;> exact hend.1
    rw [hnil, List.append_nil, replies_read]
    simp

/-- Another series is not that of the utilization. -/
theorem name_ne_of_firstSamples {samples : List MetricSample} (h : c.firstSamples.Exec t (.ok samples))
    {s : MetricSample} (hs : s ∈ samples) : s.name ≠ lit "system.cpu.utilization" := by
  have hseries : series s ∈ firstSeries := exec_firstSamples_series h ▸ List.mem_map_of_mem hs
  have hfixed : ∀ x ∈ firstSeries, x.1 ≠ lit "system.cpu.utilization" := by simp [firstSeries]
  exact hfixed _ hseries

theorem name_ne_of_lastSamples {samples : List MetricSample} (h : c.lastSamples.Exec t (.ok samples))
    {s : MetricSample} (hs : s ∈ samples) : s.name ≠ lit "system.cpu.utilization" := by
  have hfixed : ∀ x ∈ lastSeries, x.1 ≠ lit "system.cpu.utilization" := by simp [lastSeries]
  have hseries := (exec_lastSamples_series h).mem (List.mem_map_of_mem hs)
  cases List.mem_append.mp hseries with
  | inl hseries => exact hfixed _ hseries
  | inr hseries =>
    obtain ⟨mountpoint, -, hdisk⟩ := List.mem_flatMap.mp hseries
    intro hname
    rcases name_of_mem_diskSeries hdisk with hdisk | hdisk
    · simpa using hdisk.symm.trans hname
    · simpa using hdisk.symm.trans hname

/-- The counters are read with the second reply for `stat`. -/
theorem reads_iff_of_reader {t₁ t₂ t₃ : List (Exchange host)} {first : List MetricSample}
    {reading : Except Exn CpuTimes} (hfirst : c.firstSamples.Exec t₁ (.ok first))
    (hreading : (c.reader "stat" cpuTimes).Exec t₂ reading) (outcome : Except Exn (List MetricSample))
    (times : CpuTimes) :
    Reads (c.path "stat") ⟨t₁ ++ t₂ ++ t₃, outcome⟩ times ↔ reading = .ok times := by
  have hone := (replies_firstSamples hfirst).2 rfl
  obtain ⟨reply, rfl, rfl⟩ := exec_reader hreading
  have hsecond : (replies (c.path "stat") (t₁ ++ [⟨.read (c.path "stat"), reply⟩] ++ t₃))[1]? =
      some reply := by
    rw [replies_append, replies_append, replies_read, List.append_assoc,
      List.getElem?_append_right (by omega), hone]
    rfl
  rw [reads_iff]
  simp only [hsecond, Option.some.injEq, exists_eq_left']

omit [Python] [Digits] in
/-- The sample that is made of two readings that make sense together. -/
theorem mem_utilizationSamples {before : Option CpuTimes} {now : CpuTimes} {samples : List MetricSample}
    (h : utilizationSamples before now = .ok samples) (s : MetricSample) :
    s ∈ samples ↔ ∃ previous, before = some previous ∧ ¬ Senseless previous now ∧
      s = plain (lit "system.cpu.utilization") (.finite (busyShare previous now)) "1" := by
  cases before with
  | none =>
    obtain rfl := Except.ok.inj h
    simp
  | some previous =>
    by_cases hsense : Senseless previous now
    · rw [utilizationSamples_withheld hsense] at h
      obtain rfl := Except.ok.inj h
      simp [hsense]
    · rw [(utilizationSamples_reported hsense).1] at h
      obtain rfl := Except.ok.inj h
      simp [hsense]

/-- A call that reads no counters has no samples and leaves the collector alone. Of one that
reads them they are kept, and its samples are the utilization among others. -/
theorem Collects.cases {call : Collection} (h : Collects c call c') :
    ((∀ now, ¬ Reads (c.path "stat") call now) ∧ c' = c ∧ ∃ e, call.outcome = .error e) ∨
    ∃ now, (∀ times, Reads (c.path "stat") call times ↔ times = now) ∧
      c' = { c with previousCpu := some now } ∧
      ∀ samples, call.outcome = .ok samples → ∀ s, s.name = lit "system.cpu.utilization" →
        (s ∈ samples ↔ ∃ previous, c.previousCpu = some previous ∧ ¬ Senseless previous now ∧
          s = plain (lit "system.cpu.utilization") (.finite (busyShare previous now)) "1") := by
  obtain ⟨trace, outcome⟩ := call
  rcases exec_collect h with ⟨e, hfirst, rfl, rfl⟩ | ⟨t₁, t₂, first, e, rfl, hfirst, hreading, rfl, rfl⟩ |
    ⟨t₁, t₂, t₃, first, now, cpu, last, rfl, hfirst, hreading, rfl, hcpu, hlast, rfl⟩
  · refine .inl ⟨?_, rfl, e, rfl⟩
    rintro now ⟨bytes, hbytes, -, -⟩
    have hone := (replies_firstSamples hfirst).1
    dsimp only at hbytes
    rw [List.getElem?_eq_none (by omega)] at hbytes
    cases hbytes
  · refine .inl ⟨?_, rfl, e, rfl⟩
    intro now hnow
    rw [← List.append_nil (t₁ ++ t₂), reads_iff_of_reader hfirst hreading] at hnow
    cases hnow
  · refine .inr ⟨now, ?_, rfl, ?_⟩
    · intro times
      rw [reads_iff_of_reader hfirst hreading, Except.ok.injEq, eq_comm]
    · intro samples hsamples s hname
      rw [← mem_utilizationSamples hcpu]
      cases last with
      | error e => cases hsamples
      | ok last =>
        obtain rfl := Except.ok.inj hsamples
        have hnotFirst : s ∉ first := fun hs => name_ne_of_firstSamples hfirst hs hname
        have hnotLast : s ∉ last := fun hs => name_ne_of_lastSamples hlast hs hname
        simp [hnotFirst, hnotLast]

/-- A call is sound if the counters before it are the latest reading. -/
theorem Collects.sound {call : Collection} {calls : List Collection} (h : Collects c call c')
    (hheld : ∀ previous, c.previousCpu = some previous ↔ Latest (Reads (c.path "stat")) calls previous) :
    Sound (c.path "stat") calls call c c' := by
  rcases h.cases with ⟨hnone, rfl, e, he⟩ | ⟨now, hnow, rfl, hsamples⟩
  · have hraised : ∀ samples, call.outcome ≠ .ok samples := by simp [he]
    constructor
    case reported | first | withheld | made => exact fun samples hok => absurd hok (hraised samples)
    case kept => exact fun _ => rfl
    case replaced => exact fun now hnow => absurd hnow (hnone now)
    case held => exact hheld
  · constructor
    case reported =>
      intro samples hok s hs hname
      obtain ⟨previous, hprevious, hsense, rfl⟩ := (hsamples samples hok s hname).mp hs
      exact ⟨previous, now, (hheld previous).mp hprevious, (hnow now).mpr rfl, rfl,
        (utilizationSamples_reported hsense).2⟩
    case first =>
      intro samples hok hnever s hs hname
      obtain ⟨previous, hprevious, -⟩ := (hsamples samples hok s hname).mp hs
      exact hnever previous ((hheld previous).mp hprevious)
    case withheld =>
      intro samples hok previous times hlatest hreads hsenseless s hs hname
      obtain ⟨previous', hprevious, hsense, -⟩ := (hsamples samples hok s hname).mp hs
      rw [(hheld previous).mpr hlatest] at hprevious
      obtain rfl := Option.some.inj hprevious
      obtain rfl := (hnow times).mp hreads
      exact hsense hsenseless
    case made =>
      intro samples hok previous times hlatest hreads hsense
      obtain rfl := (hnow times).mp hreads
      exact ⟨_, (hsamples samples hok _ rfl).mpr
        ⟨previous, (hheld previous).mpr hlatest, hsense, rfl⟩, rfl⟩
    case kept => exact fun hnone => absurd ((hnow now).mpr rfl) (hnone now)
    case replaced =>
      intro times hreads
      rw [(hnow times).mp hreads]
    case held => exact hheld

/-- The counters that are kept are a register of the counters that are read. -/
theorem previousCpu_register (stat : Str) : Register Collects
    (fun c : HostMetricsCollector => c.path "stat" = stat) (Reads stat) (·.previousCpu) where
  invariant := by
    rintro c call c' rfl h
    rcases h.cases with ⟨-, rfl, -⟩ | ⟨now, -, rfl, -⟩ <;> rfl
  takes := by
    rintro c call c' times rfl h hreads
    rcases h.cases with ⟨hnone, -, -⟩ | ⟨now, hnow, rfl, -⟩
    · exact absurd hreads (hnone times)
    · rw [(hnow times).mp hreads]
  keeps := by
    rintro c call c' rfl h hnone
    rcases h.cases with ⟨-, rfl, -⟩ | ⟨now, hnow, -, -⟩
    · rfl
    · exact absurd ((hnow now).mpr rfl) (hnone now)

end Readings

/-- After any sequence of calls, whatever they were answered and however they ended, the
utilization is the busy share of the time since the latest reading. -/
theorem utilization_sound [Python] [Digits] (procPath : Str) (diskPaths : Option (Dict Str Str))
    {calls : List Collection} {call : Collection} {c c' : HostMetricsCollector}
    (h : Run Collects (HostMetricsCollector.create procPath diskPaths) calls c)
    (hcall : Collects c call c') :
    Sound ((HostMetricsCollector.create procPath diskPaths).path "stat") calls call c c' := by
  have hregister := previousCpu_register ((HostMetricsCollector.create procPath diskPaths).path "stat")
  have hstat := h.invariant hregister.invariant rfl
  have hheld := h.register_iff hregister rfl rfl
  rw [← hstat] at hheld ⊢
  exact hcall.sound hheld

/-- A call on a host with some files. -/
def pollOn [Python] [Digits] (files : List (String × String)) (c : HostMetricsCollector) :
    Collection × HostMetricsCollector :=
  (⟨(collectOn files c).1, (collectOn files c).2.1⟩, (collectOn files c).2.2)

theorem collects_pollOn [Python] [Digits] (files : List (String × String)) (c : HostMetricsCollector) :
    Collects c (pollOn files c).1 (pollOn files c).2 := exec_collectOn files c

def utilizations (call : Collection) : List Double :=
  match call.outcome with
  | .ok samples => (samples.filter (·.name = lit "system.cpu.utilization")).map (·.value)
  | .error _ => []

def start : HostMetricsCollector := HostMetricsCollector.create (lit "/proc/") none

def firstCall : Collection × HostMetricsCollector :=
  @pollOn Python.ascii Digits.ascii (filesAfter "cpu  100 0 100 700 100\ncpu0 1\n" meminfo) start

/-- A call that raises after the counters have been read. -/
def secondCall : Collection × HostMetricsCollector :=
  @pollOn Python.ascii Digits.ascii (filesAfter "cpu  200 0 200 1300 300\ncpu0 1\n" []) firstCall.2

def thirdCall : Collection × HostMetricsCollector :=
  @pollOn Python.ascii Digits.ascii
    (filesAfter "cpu  300 0 200 1550 350 0 0 0 9 9\ncpu0 1\n" meminfo) secondCall.2

theorem utilization_sound_three :
    @Sound Python.ascii Digits.ascii (start.path "stat") [firstCall.1, secondCall.1] thirdCall.1
        secondCall.2 thirdCall.2 ∧
      utilizations firstCall.1 = [] ∧ utilizations secondCall.1 = [] ∧
      utilizations thirdCall.1 = [.finite (1 / 4)] := by
  refine ⟨?_, by decide +kernel, by decide +kernel, by decide +kernel⟩
  have hfirst := @Run.snoc _ _ _ _ _ _ _ _ (.nil start)
    (@collects_pollOn Python.ascii Digits.ascii
      (filesAfter "cpu  100 0 100 700 100\ncpu0 1\n" meminfo) start)
  have hsecond := hfirst.snoc (@collects_pollOn Python.ascii Digits.ascii
    (filesAfter "cpu  200 0 200 1300 300\ncpu0 1\n" []) firstCall.2)
  exact @utilization_sound Python.ascii Digits.ascii (lit "/proc/") none _ _ _ _ hsecond
    (@collects_pollOn Python.ascii Digits.ascii
      (filesAfter "cpu  300 0 200 1550 350 0 0 0 9 9\ncpu0 1\n" meminfo) secondCall.2)

end MiraDriver.Utilization
