import MiraDriver.Wire

/-!
# Gauges that make sense

Whatever the files of a host hold, its metrics come all together or not at all, and a
utilization is a share of something that is reported beside it.
-/
namespace MiraDriver.Gauges

open MiraDriver.Text MiraDriver.Mapping MiraDriver.Base MiraDriver.Program MiraDriver.Numerals
  MiraDriver.Runner MiraDriver.Metrics

def NonNegative (v : Double) : Prop := ∃ x : Rat, v = .finite x ∧ 0 ≤ x

/-- A number from 0 to 1. -/
def IsShare (v : Double) : Prop := ∃ x : Rat, v = .finite x ∧ 0 ≤ x ∧ x ≤ 1

/-- The series of a number of bytes, beside a utilization. -/
def availableMemory : Str × List (Str × Str) := (lit "system.memory.usage", [(lit "state", lit "available")])

def freeSpace (mountpoint : Str) : Str × List (Str × Str) :=
  (lit "system.filesystem.usage", [(lit "mountpoint", mountpoint), (lit "state", lit "free")])

/-- The sample makes sense beside the others. -/
structure Sensible (samples : List MetricSample) (s : MetricSample) : Prop where
  count : s.name = lit "system.cpu.logical.count" → ∃ n : Nat, 0 < n ∧ s.value = .finite n
  cpu : s.name = lit "system.cpu.utilization" → IsShare s.value
  used : (lit "state", lit "used") ∈ s.attributes → NonNegative s.value
  memory : s.name = lit "system.memory.utilization" →
    ∃ a ∈ samples, series a = availableMemory ∧ (NonNegative a.value → IsShare s.value)
  filesystem : s.name = lit "system.filesystem.utilization" → ∃ mountpoint, ∃ a ∈ samples,
    s.attributes = [(lit "mountpoint", mountpoint)] ∧ series a = freeSpace mountpoint ∧
      (NonNegative a.value → IsShare s.value)

theorem Sensible.mono {a b : List MetricSample} {s : MetricSample} (h : Sensible a s) (hab : a ⊆ b) :
    Sensible b s := by
  refine ⟨h.count, h.cpu, h.used, ?_, ?_⟩
  · intro hname
    obtain ⟨x, hx, hrest⟩ := h.memory hname
    exact ⟨x, hab hx, hrest⟩
  · intro hname
    obtain ⟨m, x, hx, hrest⟩ := h.filesystem hname
    exact ⟨m, x, hab hx, hrest⟩

/-- Each sample of a group makes sense within the group. -/
def AllSensible (samples : List MetricSample) : Prop := ∀ s ∈ samples, Sensible samples s

theorem allSensible_nil : AllSensible [] := fun _ h => nomatch h

theorem AllSensible.append {a b : List MetricSample} (ha : AllSensible a) (hb : AllSensible b) :
    AllSensible (a ++ b) := by
  intro s hs
  cases List.mem_append.mp hs with
  | inl hs => exact (ha s hs).mono (List.subset_append_left a b)
  | inr hs => exact (hb s hs).mono (List.subset_append_right a b)

/-! ## Groups of samples -/

section Groups

variable {samples : List MetricSample} {content : Str}

/-- A sample without attributes whose name says nothing more. -/
theorem sensible_plain {name : Str} {value : Double} {unit : String}
    (h : name ∉ [lit "system.cpu.logical.count", lit "system.cpu.utilization", lit "system.memory.utilization",
      lit "system.filesystem.utilization"]) : Sensible samples (plain name value unit) := by
  simp only [List.mem_cons, List.not_mem_nil, or_false, not_or] at h
  obtain ⟨h₁, h₂, h₃, h₄⟩ := h
  exact ⟨fun hname => absurd hname h₁, fun hname => absurd hname h₂, fun hmem => (nomatch hmem),
    fun hname => absurd hname h₃, fun hname => absurd hname h₄⟩

theorem allSensible_cpuCount (h : cpuCountSamples content = .ok samples) : AllSensible samples := by
  unfold cpuCountSamples at h
  dsimp only at h
  split at h
  · cases h
  · rename_i hcount
    obtain rfl := Except.ok.inj h
    intro s hs
    obtain rfl := List.mem_singleton.mp hs
    refine ⟨fun _ => ⟨_, Nat.pos_of_ne_zero hcount, rfl⟩, ?_, ?_, ?_, ?_⟩ <;> simp [plain]

theorem allSensible_utilization {previous : Option CpuTimes} {now : CpuTimes}
    (h : utilizationSamples previous now = .ok samples) : AllSensible samples := by
  cases previous with
  | none =>
    obtain rfl := Except.ok.inj h
    exact allSensible_nil
  | some previous =>
    by_cases hsense : Senseless previous now
    · rw [utilizationSamples_withheld hsense] at h
      obtain rfl := Except.ok.inj h
      exact allSensible_nil
    · obtain ⟨hsamples, hshare⟩ := utilizationSamples_reported hsense
      rw [hsamples] at h
      obtain rfl := Except.ok.inj h
      intro s hs
      obtain rfl := List.mem_singleton.mp hs
      refine ⟨?_, fun _ => ⟨_, rfl, hshare⟩, ?_, ?_, ?_⟩ <;> simp [plain]

theorem toDouble_ok {n : Int} {x : Rat} (h : toDouble n = .ok x) : x = n := by
  unfold toDouble at h
  split at h
  · cases h
  · exact (Except.ok.inj h).symm

theorem nonNegative_ofInt {n : Int} (h : NonNegative (.finite (n : Rat))) : 0 ≤ n := by
  obtain ⟨x, hx, hle⟩ := h
  obtain rfl := Double.finite.inj hx
  exact_mod_cast hle

/-- A part of a whole that is positive. -/
theorem isShare_of_trueDivide {a b : Int} {x : Rat} (h : trueDivide a b = .ok x) (ha : 0 ≤ a) (hab : a ≤ b)
    (hb : 0 < b) : IsShare (.finite x) := by
  obtain ⟨hdivide, hshare⟩ := trueDivide_unit ha hab hb
  rw [hdivide] at h
  obtain rfl := Except.ok.inj h
  exact ⟨_, rfl, hshare⟩

/-- A number of bytes, which is not negative if it is in use. -/
theorem sensible_usage {name : String} {value : Rat} {attributes : List (Str × Str)}
    (hname : name = "system.memory.usage" ∨ name = "system.memory.limit" ∨ name = "system.filesystem.usage")
    (hused : (lit "state", lit "used") ∈ attributes → 0 ≤ value) : Sensible samples (usage name value attributes) := by
  refine ⟨?_, ?_, fun hmem => ⟨value, rfl, hused hmem⟩, ?_, ?_⟩ <;>
    (rcases hname with rfl | rfl | rfl <;> simp [usage])

theorem allSensible_filesystem {mountpoint : Str} {stats : StatVfs}
    (h : filesystemSamples mountpoint stats = .ok samples) : AllSensible samples := by
  obtain ⟨used, hused, h⟩ := bind_ok_iff.mp h
  obtain ⟨free, hfree, h⟩ := bind_ok_iff.mp h
  obtain rfl := toDouble_ok hused
  obtain rfl := toDouble_ok hfree
  have hnonneg : 0 ≤ max (stats.blocks * stats.frsize - stats.bfree * stats.frsize) 0 := Int.le_max_right _ _
  generalize max (stats.blocks * stats.frsize - stats.bfree * stats.frsize) 0 = used at h hnonneg
  generalize stats.bavail * stats.frsize = free at h
  dsimp only at h
  have husage (samples : List MetricSample) : ∀ s ∈ [usage "system.filesystem.usage" used
      [(lit "mountpoint", mountpoint), (lit "state", lit "used")],
      usage "system.filesystem.usage" free [(lit "mountpoint", mountpoint), (lit "state", lit "free")]],
      Sensible samples s := by
    rw [List.forall_mem_cons, List.forall_mem_singleton]
    exact ⟨sensible_usage (by simp) fun _ => by exact_mod_cast hnonneg, sensible_usage (by simp) (by simp)⟩
  split at h
  · rename_i hpositive
    obtain ⟨utilization, hdivide, h⟩ := bind_ok_iff.mp h
    obtain rfl := Except.ok.inj h
    intro s hs
    cases List.mem_append.mp hs with
    | inl hs => exact husage _ s hs
    | inr hs =>
      obtain rfl := List.mem_singleton.mp hs
      refine ⟨by simp, by simp, by simp, by simp, ?_⟩
      intro _
      refine ⟨mountpoint, _, List.mem_append_left _ (List.mem_cons_of_mem _ List.mem_cons_self), rfl, rfl, ?_⟩
      intro hfree
      exact isShare_of_trueDivide hdivide hnonneg (by have := nonNegative_ofInt hfree; omega) hpositive
  · obtain rfl := Except.ok.inj h
    exact husage _

variable [Python] [Digits]

theorem allSensible_load (h : loadSamples content = .ok samples) : AllSensible samples := by
  unfold loadSamples at h
  dsimp only at h
  split at h
  · cases h
  · obtain ⟨values, -, h⟩ := bind_ok_iff.mp h
    obtain rfl := Except.ok.inj h
    intro s hs
    obtain ⟨⟨window, value⟩, hx, rfl⟩ := List.mem_map.mp hs
    apply sensible_plain
    have hwindow := (List.of_mem_zip hx).1
    simp only [List.mem_cons, List.not_mem_nil, or_false] at hwindow
    rcases hwindow with rfl | rfl | rfl <;> simp [lit_def]

theorem allSensible_uptime (h : uptimeSamples content = .ok samples) : AllSensible samples := by
  unfold uptimeSamples at h
  split at h
  · cases h
  · obtain ⟨seconds, -, h⟩ := bind_ok_iff.mp h
    obtain rfl := Except.ok.inj h
    intro s hs
    obtain rfl := List.mem_singleton.mp hs
    apply sensible_plain
    simp

theorem allSensible_memory (h : memorySamples content = .ok samples) : AllSensible samples := by
  obtain ⟨values, -, h⟩ := bind_ok_iff.mp h
  split at h
  · rename_i total available _ _
    obtain ⟨used, hused, h⟩ := bind_ok_iff.mp h
    obtain ⟨_, havailable, h⟩ := bind_ok_iff.mp h
    obtain ⟨_, htotal, h⟩ := bind_ok_iff.mp h
    obtain rfl := toDouble_ok hused
    obtain rfl := toDouble_ok havailable
    obtain rfl := toDouble_ok htotal
    have hnonneg : 0 ≤ max (total - available) 0 := Int.le_max_right _ _
    have husage (samples : List MetricSample) : ∀ s ∈ [usage "system.memory.usage" (max (total - available) 0 : Int)
        [(lit "state", lit "used")], usage "system.memory.usage" available [(lit "state", lit "available")],
        usage "system.memory.limit" total []], Sensible samples s := by
      rw [List.forall_mem_cons, List.forall_mem_cons, List.forall_mem_singleton]
      exact ⟨sensible_usage (by simp) fun _ => by exact_mod_cast hnonneg, sensible_usage (by simp) (by simp),
        sensible_usage (by simp) (by simp)⟩
    split at h
    · rename_i hpositive
      obtain ⟨utilization, hdivide, h⟩ := bind_ok_iff.mp h
      obtain rfl := Except.ok.inj h
      intro s hs
      cases List.mem_append.mp hs with
      | inl hs => exact husage _ s hs
      | inr hs =>
        obtain rfl := List.mem_singleton.mp hs
        refine ⟨by simp [plain], by simp [plain], by simp [plain], ?_, by simp [plain]⟩
        intro _
        refine ⟨_, List.mem_append_left _ (List.mem_cons_of_mem _ List.mem_cons_self), rfl, ?_⟩
        intro havailable
        have := nonNegative_ofInt havailable
        exact isShare_of_trueDivide hdivide hnonneg (by omega) hpositive
    · obtain rfl := Except.ok.inj h
      exact husage _
  · cases h

end Groups

/-! ## All of them -/

def memorySeries : List (Str × List (Str × Str)) :=
  [(lit "system.memory.usage", [(lit "state", lit "used")]), availableMemory, (lit "system.memory.limit", [])]

def spaceSeries (mountpoint : Str) : List (Str × List (Str × Str)) :=
  [(lit "system.filesystem.usage", [(lit "mountpoint", mountpoint), (lit "state", lit "used")]), freeSpace mountpoint]

/-- What is never left out. -/
def requiredSeries (mountpoints : List Str) : List (Str × List (Str × Str)) :=
  firstSeries ++ (memorySeries ++ [(lit "system.uptime", [])] ++ mountpoints.flatMap spaceSeries)

/-- The metrics of a host are complete, and make sense. -/
structure Whole (mountpoints : List Str) (samples : List MetricSample) : Prop where
  present : (requiredSeries mountpoints).Sublist (samples.map series)
  sensible : AllSensible samples

section Collect

theorem filesystemSamples_present {mountpoint : Str} {stats : StatVfs} {samples : List MetricSample}
    (h : filesystemSamples mountpoint stats = .ok samples) : (spaceSeries mountpoint).Sublist (samples.map series) := by
  obtain ⟨used, -, h⟩ := bind_ok_iff.mp h
  obtain ⟨free, -, h⟩ := bind_ok_iff.mp h
  dsimp only at h
  split at h
  · obtain ⟨utilization, -, h⟩ := bind_ok_iff.mp h
    obtain rfl := Except.ok.inj h
    rw [List.map_append]
    exact List.sublist_append_left _ _
  · obtain rfl := Except.ok.inj h
    exact List.Sublist.refl _

/-- By induction on the mountpoints. -/
theorem exec_filesystems {disks : List (Str × Str)} {t : List (Exchange host)} {samples : List MetricSample}
    (h : (filesystems disks).Exec t (.ok samples)) :
    ((disks.map Prod.fst).flatMap spaceSeries).Sublist (samples.map series) ∧ AllSensible samples := by
  induction disks generalizing t samples with
  | nil =>
    obtain rfl := Except.ok.inj h.2
    exact ⟨List.Sublist.refl _, allSensible_nil⟩
  | cons disk rest ih =>
    obtain ⟨t₀, t₁, reply, rfl, -, hdisk⟩ := Prog.exec_bind_ok.mp h
    obtain ⟨t₁, t₂, stats, rfl, -, hsamples⟩ := Prog.exec_bind_ok.mp hdisk
    obtain ⟨t₂, t₃, own, rfl, hown, hrest⟩ := Prog.exec_bind_ok.mp hsamples
    obtain ⟨t₃, t₄, more, rfl, hmore, hend⟩ := Prog.exec_bind_ok.mp hrest
    obtain rfl := Except.ok.inj hend.2
    have hgroup := ((Prog.exec_ofExcept _ _ _).mp hown).2.symm
    obtain ⟨hpresent, hsensible⟩ := ih hmore
    refine ⟨?_, (allSensible_filesystem hgroup).append hsensible⟩
    rw [List.map_append, List.map_cons, List.flatMap_cons]
    exact (filesystemSamples_present hgroup).append hpresent

variable [Python] [Digits] {c c' : HostMetricsCollector} {t : List (Exchange host)} {samples : List MetricSample}

theorem memorySamples_present {content : Str} (h : memorySamples content = .ok samples) :
    memorySeries.Sublist (samples.map series) := by
  obtain ⟨values, -, h⟩ := bind_ok_iff.mp h
  split at h
  · obtain ⟨used, -, h⟩ := bind_ok_iff.mp h
    obtain ⟨available, -, h⟩ := bind_ok_iff.mp h
    obtain ⟨total, -, h⟩ := bind_ok_iff.mp h
    split at h
    · obtain ⟨utilization, -, h⟩ := bind_ok_iff.mp h
      obtain rfl := Except.ok.inj h
      rw [List.map_append]
      exact List.sublist_append_left _ _
    · obtain rfl := Except.ok.inj h
      exact List.Sublist.refl _
  · cases h

theorem allSensible_firstSamples (h : c.firstSamples.Exec t (.ok samples)) : AllSensible samples := by
  obtain ⟨t₁, t₂, load, rfl, hload, h⟩ := Prog.exec_bind_ok.mp h
  obtain ⟨t₂, t₃, count, rfl, hcount, hend⟩ := Prog.exec_bind_ok.mp h
  obtain rfl := Except.ok.inj hend.2
  obtain ⟨loadavg, hloadavg⟩ := exec_reader_ok hload
  obtain ⟨stat, hstat⟩ := exec_reader_ok hcount
  exact (allSensible_load hloadavg).append (allSensible_cpuCount hstat)

theorem exec_lastSamples (h : c.lastSamples.Exec t (.ok samples)) :
    (memorySeries ++ [(lit "system.uptime", [])] ++ c.mountpoints.flatMap spaceSeries).Sublist (samples.map series) ∧
      AllSensible samples := by
  obtain ⟨t₁, t₂, memory, rfl, hmemory, h⟩ := Prog.exec_bind_ok.mp h
  obtain ⟨t₂, t₃, uptime, rfl, huptime, h⟩ := Prog.exec_bind_ok.mp h
  obtain ⟨t₃, t₄, disks, rfl, hdisks, hend⟩ := Prog.exec_bind_ok.mp h
  obtain rfl := Except.ok.inj hend.2
  obtain ⟨meminfo, hmeminfo⟩ := exec_reader_ok hmemory
  obtain ⟨content, hcontent⟩ := exec_reader_ok huptime
  obtain ⟨hpresent, hsensible⟩ := exec_filesystems hdisks
  refine ⟨?_, ((allSensible_memory hmeminfo).append (allSensible_uptime hcontent)).append hsensible⟩
  rw [List.map_append, List.map_append, uptimeSamples_series hcontent]
  exact ((memorySamples_present hmeminfo).append (List.Sublist.refl _)).append hpresent

/-- A call that has samples has all of them. -/
theorem whole_of_exec_collect (h : c.collect.Exec t (.ok (.ok samples, c'))) : Whole c.mountpoints samples := by
  rcases exec_collect h with ⟨e, -, hout, -⟩ | ⟨_, _, _, e, -, -, -, hout, -⟩ |
    ⟨t₁, t₂, t₃, first, now, cpu, last, -, hfirst, -, rfl, hcpu, hlast, hout⟩
  · cases hout
  · cases hout
  · cases last with
    | error e => cases hout
    | ok last =>
      obtain rfl := Except.ok.inj hout
      obtain ⟨hpresent, hsensible⟩ := exec_lastSamples hlast
      refine ⟨?_, ((allSensible_firstSamples hfirst).append (allSensible_utilization hcpu)).append hsensible⟩
      rw [List.map_append, List.map_append, exec_firstSamples_series hfirst]
      exact (List.sublist_append_left _ _).append hpresent

end Collect

/-! ## What is pushed -/

section Process

open MiraDriver.Document MiraDriver.Admin MiraDriver.Config MiraDriver.Cycle MiraDriver.Lifecycle
  MiraDriver.Isolation MiraDriver.Schedule MiraDriver.Wire

variable [Python] [Loads] [Digits] [FloatRepr] {process : Process.DriverProcess}

/-- There are no metrics, or those of the collector of the process. -/
def Measured (process : Process.DriverProcess) (samples : List MetricSample) : Prop :=
  samples = [] ∨ ∃ collector : HostMetricsCollector,
    process.hostMetrics = some collector.toHostMetricsCollector ∧ Whole collector.mountpoints samples

/-- What the collector of the process replies. -/
def Gauged (process : Process.DriverProcess) : Exchange (Loop Process.Sink) → Prop
  | ⟨.inl .collect, .ok samples⟩ => Measured process samples
  | _ => True

theorem gauged_of_exec_answer {m m' : Machine} {c : (Loop Process.Sink).Call} {x : (Loop Process.Sink).Reply c}
    {s : List (Exchange wire)} (hm : Kept process m) (h : (answer process.driver m c).Exec s (.ok (x, m'))) :
    Gauged process ⟨c, x⟩ := by
  rcases c with c | c
  · cases c with
    | collect =>
      cases m with
      | none =>
        obtain ⟨rfl, hx⟩ := h
        obtain ⟨rfl, rfl⟩ := Prod.mk.inj (Except.ok.inj hx)
        trivial
      | some collector =>
        obtain ⟨s, s', ⟨out, m₁⟩, rfl, hcollect, hend⟩ := Prog.exec_bind_ok.mp h
        obtain ⟨-, u, -, hexec⟩ := Prog.exec_link_relay _ _ hcollect
        cases out with
        | error e => exact nomatch e
        | ok out =>
          obtain ⟨reply, collector'⟩ := out
          obtain ⟨rfl, hx⟩ := hend
          obtain ⟨rfl, rfl⟩ := Prod.mk.inj (Except.ok.inj hx)
          cases x with
          | error e => trivial
          | ok samples => exact .inr ⟨collector, hm.symm, whole_of_exec_collect hexec⟩
    | _ => trivial
  · trivial

theorem gauged_of_linked {m m' : Machine} {u : List (Exchange (Loop Process.Sink))} {t : List (Exchange wire)}
    (h : Prog.Linked (answer process.driver) m u t m') (hm : Kept process m) : ∀ y ∈ u, Gauged process y := by
  obtain ⟨-, parts, -, hparts⟩ := h.invariant (K := Kept process) (R := fun y _ => Gauged process y)
    (fun _ _ _ _ _ hm hs => ⟨(carried_of_exec_answer hm hs).1, gauged_of_exec_answer hm hs⟩) hm
  intro y hy
  obtain ⟨_, -, hgauged⟩ := exists_of_mem_left hparts hy
  exact hgauged

end Process

section Runs

open MiraDriver.Cycle MiraDriver.Lifecycle MiraDriver.Isolation MiraDriver.Footprint MiraDriver.Schedule MiraDriver.Wire

variable {σ : Type} {r r' : DriverRunner σ} {t : List (Exchange (Env σ))} {P : List MetricSample → Prop}

theorem exec_collectHost {samples : List MetricSample} (h : (collectHost r).Exec t (.ok samples)) :
    samples = [] ∨ (⟨.collect, .ok samples⟩ : Exchange (Env σ)) ∈ t := by
  unfold collectHost at h
  split at h
  · obtain ⟨reply, t, rfl, hrest⟩ := exec_call_bind.mp h
    cases reply with
    | ok reply =>
      obtain rfl := Except.ok.inj hrest.2
      exact .inr List.mem_cons_self
    | error e =>
      dsimp only at hrest
      split at hrest
      · exact .inl (Except.ok.inj hrest.2)
      · exact nomatch hrest.2
  · exact .inl (Except.ok.inj h.2)

theorem exec_collect_hostMetrics {s : DriverSnapshot} (h : (collect r).Exec t (.ok (.ok s, r'))) :
    s.hostMetrics = [] ∨ (⟨.collect, .ok s.hostMetrics⟩ : Exchange (Env σ)) ∈ t := by
  obtain ⟨t₁, t₂, polled, rfl, -, hbody⟩ := Prog.exec_attempt_bind.mp h
  cases polled with
  | error e => exact nomatch (Prod.mk.inj (Except.ok.inj hbody.2)).1
  | ok gathered =>
    obtain ⟨t₂, t₃, host, rfl, hhost, hend⟩ := Prog.exec_attempt_bind.mp hbody
    obtain ⟨hs, -⟩ := Prod.mk.inj (Except.ok.inj hend.2)
    cases host with
    | error e => cases hs
    | ok samples =>
      obtain rfl := Except.ok.inj hs
      exact (exec_collectHost hhost).imp_right fun hmem => by simp [hmem]

/-- The metrics of a cycle's snapshot are none, or what the collector has replied in it. -/
theorem hostMetrics_of_exec_runOnce {out : Except Exn DriverSnapshot} (h : (runOnce r).Exec t (.ok (out, r')))
    (hnil : P []) (ht : ∀ samples, (⟨.collect, .ok samples⟩ : Exchange (Env σ)) ∈ t → P samples) :
    ∀ s, out = .ok s → P s.hostMetrics := by
  rintro s rfl
  obtain ⟨t₁, t₂, collected, rfl, hcollect, -, hcases⟩ := exec_runOnce_split h
  rcases hcases with ⟨e, -, he, -⟩ | ⟨snapshot, result, rfl, -, hout⟩
  · cases he
  · cases result with
    | error e => cases hout
    | ok u =>
      obtain rfl := Except.ok.inj hout
      rcases exec_collect_hostMetrics hcollect with hnone | hsome
      · rwa [hnone]
      · exact ht _ (List.mem_append_left _ hsome)

theorem hostMetrics_of_run {cs : List (PollCycle σ)} (h : Run r cs r') (hnil : P [])
    (hcs : ∀ c ∈ cs, ∀ samples, (⟨.collect, .ok samples⟩ : Exchange (Env σ)) ∈ c.trace → P samples) :
    ∀ s ∈ snapshots cs, P s.hostMetrics := by
  intro s hs
  obtain ⟨d, hd, hout⟩ := List.mem_filterMap.mp hs
  obtain ⟨q, q', hstep⟩ := h.exists_step hd
  refine hostMetrics_of_exec_runOnce hstep hnil (hcs d hd) s ?_
  revert hout
  cases d.outcome with
  | ok s' => exact fun hout => congrArg Except.ok (Option.some.inj hout)
  | error e => exact fun hout => nomatch hout

end Runs

section Main

open MiraDriver.Document MiraDriver.Admin MiraDriver.Config MiraDriver.Lifecycle MiraDriver.Schedule MiraDriver.Wire

variable [Python] [Loads] [Digits] [FloatRepr] {passes : Nat} {hostname : Str} {environ : Dict Str Str}
  {t : List (Exchange wire)} {x : ProcessEnd Process.Sink}

/-- What is pushed is of snapshots with no metrics, or with all of them, and those make sense. -/
structure Pushes (process : Process.DriverProcess) (cs : List (PollCycle Process.Sink)) (t : List (Exchange wire)) :
    Prop where
  posted : postsIn t = (snapshots cs).flatMap fun s => process.runner.sinks.flatMap (postsOf s)
  measured : ∀ s ∈ snapshots cs, Measured process s.hostMetrics

/-- However long the process runs, and whatever the files and filesystems of its host hold. -/
theorem main_measures (h : (Wire.main passes hostname environ).Exec t (.ok x)) :
    (t = [] ∧ (x = .exit 2 ∨ ∃ e, x = .startupError e)) ∨
    ∃ config process ps begun, fromEnviron environ hostname = .ok config ∧
      Process.buildRunner config = .ok process ∧ Works process passes ps begun t x ∧
      Pushes process (ps.map Pass.cycle ++ begun) t := by
  refine (works_of_exec_main h).imp_right ?_
  rintro ⟨config, process, ps, begun, hconfig, hbuilt, hworks⟩
  refine ⟨config, process, ps, begun, hconfig, hbuilt, hworks, (delivers_of_works hbuilt hworks).posted, ?_⟩
  obtain ⟨r, last, y, m, hrun, hending, -, hlinked⟩ := hworks.carried
  obtain ⟨r', hlast⟩ := hending.run
  refine hostMetrics_of_run (P := Measured process) (hrun.append hlast) (.inl rfl) ?_
  intro c hc samples hsamples
  exact gauged_of_linked hlinked (kept_machine process) _ (mem_loop hending c hc _ hsamples)

end Main

/-! ## A host that can be read -/

section Witness

open MiraDriver.Admin MiraDriver.Config MiraDriver.Lifecycle MiraDriver.Schedule MiraDriver.Wire

theorem main_measures_restarted : (postsIn homeMain.2.1).length = 2 ∧
    ((homeMain.2.1 = [] ∧ (homeEnd = .exit 2 ∨ ∃ e, homeEnd = .startupError e)) ∨
    ∃ config process ps begun,
      @fromEnviron downEnviron Python.ascii Digits.ascii (lit "vps1") = .ok config ∧
      Process.buildRunner config = .ok process ∧
      @Works Python.ascii homeLoads Digits.ascii FloatRepr.hundredths process 2 ps begun homeMain.2.1 homeEnd ∧
      @Pushes FloatRepr.hundredths process (ps.map Pass.cycle ++ begun) homeMain.2.1) :=
  ⟨by decide +kernel, @main_measures Python.ascii homeLoads Digits.ascii FloatRepr.hundredths
    2 _ _ _ _ exec_homeMain⟩

end Witness

end MiraDriver.Gauges
