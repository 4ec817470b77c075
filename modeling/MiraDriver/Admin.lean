import MiraDriver.Metrics

/-!
# The push to the collector of movingfirm-admin

`AdminCollectorSink`. A row of the receiver has the node, a name and a time as its key, and
no place for attributes, which go into the name.
-/
namespace MiraDriver.Admin

open MiraDriver.Text MiraDriver.Mapping MiraDriver.Base MiraDriver.Program MiraDriver.Numerals
  MiraDriver.Runner MiraDriver.Dumps MiraDriver.Sinks MiraDriver.Metrics
open MiraDriver.Process (AdminCollectorSink)

/-- `float.__repr__`, of a finite number. -/
class FloatRepr where
  repr : Rat → Str

/-- The values of an object with floats. -/
inductive Field where
  | value (value : Value)
  | float (value : Double)
  deriving DecidableEq, Repr

abbrev Fields := List (Str × Field)

def dumpsFloat [FloatRepr] : Double → Str
  | .finite x => FloatRepr.repr x
  | .infinity false => lit "Infinity"
  | .infinity true => lit "-Infinity"
  | .nan => lit "NaN"

def dumpsField [FloatRepr] (field : Str × Field) : Str :=
  match field.2 with
  | .value v => dumpsMember (field.1, v)
  | .float x => dumpsStr field.1 ++ ':' :: ' ' :: dumpsFloat x

def dumpsFields [FloatRepr] (fields : Fields) : Str := '{' :: (joined (fields.map dumpsField) ++ ['}'])

/-- `_flatten_metric_name`. -/
def flattenMetricName (name : Str) (attributes : List (Str × Str)) : Str :=
  if attributes = [] then name
  else
    let rendered := [','].intercalate ((sortedPairs attributes).map fun a => a.1 ++ '=' :: a.2)
    name ++ '{' :: (rendered ++ ['}'])

def metricRow (collectedAt : Str) (sample : MetricSample) : Fields :=
  [(lit "name", .value (.str (flattenMetricName sample.name sample.attributes))),
    (lit "value", .float sample.value), (lit "unit", .value (strOrNull sample.unit)),
    (lit "ts", .value (.str collectedAt))]

def intOrNull : Option Int → Value
  | some n => .int (.int n)
  | none => .null

/-- `_collector_container`. -/
def collectorContainer (observation : ContainerObservation) : Fields :=
  let details := observation.details
  let resource := details.resource
  [(lit "id", .value (.str resource.uri)), (lit "name", .value (.str resource.name)),
    (lit "state", .value (strOrNull resource.state)),
    (lit "cpu_pct", match observation.cpuPercent with
      | some percent => .float (.finite percent)
      | none => .value .null),
    (lit "project", .value (strOrNull resource.project)),
    (lit "service", .value (strOrNull resource.service)),
    (lit "image", .value (strOrNull resource.image)),
    (lit "health", .value (strOrNull details.health)),
    (lit "restart_count", .value (match details.restartCount with
      | some n => .int n
      | none => .null)),
    (lit "exit_code", .value (intOrNull details.exitCode)),
    (lit "started_at", .value (strOrNull details.startedAt)),
    (lit "memory_usage_bytes", .value (intOrNull (observation.stats.bind (·.memoryUsageBytes)))),
    (lit "memory_limit_bytes", .value (intOrNull (observation.stats.bind (·.memoryLimitBytes)))),
    (lit "image_revision", .value (strOrNull observation.revision))]

def eventRow (event : DriverEvent) : Members :=
  [(lit "kind", .str event.kind.name), (lit "uri", .str event.uri),
    (lit "occurred_at", .str event.occurredAt), (lit "exit_code", intOrNull event.exitCode),
    (lit "log_tail", .strs event.logTail)]

structure Payload where
  resource : Members
  metrics : List Fields
  containers : List Fields
  events : List Members

def payloadOf (sink : AdminCollectorSink) (snapshot : DriverSnapshot) : Payload where
  resource := [(lit "node_id", .str sink.nodeId), (lit "host", strOrNull sink.host),
    (lit "env", strOrNull sink.environment)]
  metrics := snapshot.hostMetrics.map (metricRow snapshot.collectedAt)
  containers := (snapshot.containers.filter fun o => o.details.resource.resourceType = .container).map
    collectorContainer
  events := snapshot.events.map eventRow

def dumpsArray (items : List Str) : Str := '[' :: (joined items ++ [']'])

/-- `json.dumps(payload)`. -/
def payloadText [FloatRepr] (payload : Payload) : Str :=
  let members := [(lit "resource", dumpsObject payload.resource),
    (lit "metrics", dumpsArray (payload.metrics.map dumpsFields)),
    (lit "containers", dumpsArray (payload.containers.map dumpsFields)),
    (lit "events", dumpsArray (payload.events.map dumpsObject))]
  '{' :: (joined (members.map fun m => dumpsStr m.1 ++ ':' :: ' ' :: m.2) ++ ['}'])

/-- `publish`. -/
def AdminCollectorSink.publish [FloatRepr] (sink : AdminCollectorSink) (snapshot : DriverSnapshot) :
    Prog posts PublishError Unit := do
  let (status, text) ← postJson sink.collectorUrl sink.token
    (Utf8.encode (payloadText (payloadOf sink snapshot)))
  if status < 200 ∨ status ≥ 300 then
    throw (.sinkPublishError (lit "admin collector rejected the push: HTTP " ++
      (Nat.repr status).toList ++ ' ' :: text.take 200))
  else pure ()

/-! ## The rows -/

def nameOf (row : Fields) : Option Field := find (lit "name") row

/-- The key of the receiver: the node, the name and the time. -/
def rowKey (payload : Payload) (row : Fields) : Option Value × Option Field × Option Field :=
  (find (lit "node_id") payload.resource, nameOf row, find (lit "ts") row)

def flatName (x : Str × List (Str × Str)) : Str := flattenMetricName x.1 x.2

/-- A sample of some collector in some call. -/
def Collected [Python] [Digits] (s : MetricSample) : Prop :=
  ∃ (c : HostMetricsCollector) (t : List (Exchange host)) (samples : List MetricSample)
    (c' : HostMetricsCollector), c.collect.Exec t (.ok (.ok samples, c')) ∧ s ∈ samples

/-- The rows of a payload keep the samples apart. -/
structure KeepsApart [Python] [Digits] (samples : List MetricSample) (payload : Payload) : Prop where
  named : payload.metrics.map nameOf = samples.map fun s => some (.value (.str (flatName (series s))))
  names : (payload.metrics.map nameOf).Nodup
  keys : (payload.metrics.map (rowKey payload)).Nodup
  /-- No other series has the same name, of this collector or of any. -/
  series : ∀ s ∈ samples, ∀ s', Collected s' → flatName (series s) = flatName (series s') →
    series s = series s'

/-! ## Between affixes -/

/-- A text with something before it and something after it. -/
def wrap (affixes : Str × Str) (s : Str) : Str := affixes.1 ++ (s ++ affixes.2)

/-- Two pairs of affixes that make different texts of any two. -/
def Apart (a b : Str × Str) : Prop :=
  (¬ a.1 <+: b.1 ∧ ¬ b.1 <+: a.1) ∨ (a.1 = b.1 ∧ ¬ a.2 <:+ b.2 ∧ ¬ b.2 <:+ a.2)

instance (a b : Str × Str) : Decidable (Apart a b) := inferInstanceAs (Decidable (_ ∨ _))

theorem wrap_ne {a b : Str × Str} (h : Apart a b) (s t : Str) : wrap a s ≠ wrap b t := by
  intro he
  rcases h with ⟨hab, hba⟩ | ⟨hbegins, hab, hba⟩
  · have ha : a.1 <+: wrap b t := he ▸ List.prefix_append _ _
    have hb : b.1 <+: wrap b t := List.prefix_append _ _
    cases List.prefix_or_prefix_of_prefix ha hb with
    | inl h => exact hab h
    | inr h => exact hba h
  · unfold wrap at he
    rw [hbegins] at he
    have hrest := List.append_cancel_left he
    have ha : a.2 <:+ t ++ b.2 := hrest ▸ List.suffix_append _ _
    have hb : b.2 <:+ t ++ b.2 := List.suffix_append _ _
    cases List.suffix_or_suffix_of_suffix ha hb with
    | inl h => exact hab h
    | inr h => exact hba h

theorem wrap_inj {a : Str × Str} {s t : Str} (h : wrap a s = wrap a t) : s = t :=
  List.append_cancel_right (List.append_cancel_left h)

/-! ## The names -/

/-- Attributes that are in order stay as they are. -/
theorem sortedPairs_pair {k k' : Str} (h : k < k') (v v' : Str) :
    sortedPairs [(k, v), (k', v')] = [(k, v), (k', v')] := by
  simp [sortedPairs, pairLe, h]

theorem mountpoint_lt_state : lit "mountpoint" < lit "state" := by
  decide +kernel

/-- What is around the mountpoint in the names of the three series of a filesystem. -/
def diskAffixes : List (Str × Str) :=
  [(lit "system.filesystem.usage\x7bmountpoint=", lit ",state=used\x7d"),
    (lit "system.filesystem.usage\x7bmountpoint=", lit ",state=free\x7d"),
    (lit "system.filesystem.utilization\x7bmountpoint=", lit "\x7d")]

theorem map_flatName_diskSeries (mountpoint : Str) :
    (diskSeries mountpoint).map flatName = diskAffixes.map (wrap · mountpoint) := by
  simp only [diskSeries, diskAffixes, List.map_cons, List.map_nil, flatName, flattenMetricName, wrap]
  rw [sortedPairs_pair mountpoint_lt_state, sortedPairs_pair mountpoint_lt_state]
  simp [sortedPairs, lit_def]

/-- The series that have the same name for every collector. -/
def fixedSeries : List (Str × List (Str × Str)) := firstSeries ++ [utilizationSeries] ++ lastSeries

theorem nodup_flatName_fixedSeries : (fixedSeries.map flatName).Nodup := by
  decide +kernel

theorem flatName_fixedSeries_ne {x : Str × List (Str × Str)} (h : x ∈ fixedSeries) :
    ¬ lit "system.filesystem." <+: flatName x := by
  have hall : fixedSeries.all (fun x => !(lit "system.filesystem.").isPrefixOf (flatName x)) = true := by
    decide +kernel
  have hx := List.all_eq_true.mp hall x h
  intro hbegins
  rw [List.isPrefixOf_iff_prefix.mpr hbegins] at hx
  cases hx

theorem apart_diskAffixes : diskAffixes.Pairwise Apart := by
  decide +kernel

/-- The affixes of a series of a filesystem, by its position. -/
theorem exists_affixes {mountpoint : Str} {x : Str × List (Str × Str)} (h : x ∈ diskSeries mountpoint) :
    ∃ (i : Nat) (a : Str × Str), (diskSeries mountpoint)[i]? = some x ∧ diskAffixes[i]? = some a ∧
      flatName x = wrap a mountpoint := by
  obtain ⟨i, hi⟩ := List.mem_iff_getElem?.mp h
  have hname := congrArg (·[i]?) (map_flatName_diskSeries mountpoint)
  simp only [List.getElem?_map, hi, Option.map_some] at hname
  obtain ⟨a, ha, hwrap⟩ := Option.map_eq_some_iff.mp hname.symm
  exact ⟨i, a, hi, ha, hwrap.symm⟩

theorem apart_of_lt {i j : Nat} (hij : i < j) {a b : Str × Str} (ha : diskAffixes[i]? = some a)
    (hb : diskAffixes[j]? = some b) : Apart a b := by
  obtain ⟨hi, rfl⟩ := List.getElem?_eq_some_iff.mp ha
  obtain ⟨hj, rfl⟩ := List.getElem?_eq_some_iff.mp hb
  exact List.pairwise_iff_getElem.mp apart_diskAffixes i j hi hj hij

/-- A name of a filesystem tells its series, whatever the mountpoint. -/
theorem flatName_diskSeries_inj {m m' : Str} {x y : Str × List (Str × Str)} (hx : x ∈ diskSeries m)
    (hy : y ∈ diskSeries m') (h : flatName x = flatName y) : x = y := by
  obtain ⟨i, a, hxi, ha, hwrap⟩ := exists_affixes hx
  obtain ⟨j, b, hyj, hb, hwrap'⟩ := exists_affixes hy
  rw [hwrap, hwrap'] at h
  rcases lt_trichotomy i j with hij | rfl | hji
  · exact absurd h (wrap_ne (apart_of_lt hij ha hb) m m')
  · rw [ha] at hb
    obtain rfl := Option.some.inj hb
    obtain rfl := wrap_inj h
    rw [hxi] at hyj
    exact Option.some.inj hyj
  · exact absurd h.symm (wrap_ne (apart_of_lt hji hb ha) m' m)

theorem prefix_flatName_diskSeries {m : Str} {x : Str × List (Str × Str)} (h : x ∈ diskSeries m) :
    lit "system.filesystem." <+: flatName x := by
  have hall : diskAffixes.all (fun a => (lit "system.filesystem.").isPrefixOf a.1) = true := by
    decide +kernel
  obtain ⟨i, a, -, ha, hwrap⟩ := exists_affixes h
  have hbegins := List.isPrefixOf_iff_prefix.mp (List.all_eq_true.mp hall a (List.mem_of_getElem? ha))
  rw [hwrap]
  exact hbegins.trans (List.prefix_append _ _)

/-- The series that there are. -/
def IsSeries (x : Str × List (Str × Str)) : Prop := x ∈ fixedSeries ∨ ∃ m, x ∈ diskSeries m

/-- Two series never have one name. -/
theorem flatName_inj {x y : Str × List (Str × Str)} (hx : IsSeries x) (hy : IsSeries y)
    (h : flatName x = flatName y) : x = y := by
  cases hx with
  | inl hx =>
    cases hy with
    | inl hy => exact List.inj_on_of_nodup_map nodup_flatName_fixedSeries hx hy h
    | inr hy =>
      obtain ⟨m', hy⟩ := hy
      exact absurd (h ▸ prefix_flatName_diskSeries hy) (flatName_fixedSeries_ne hx)
  | inr hx =>
    obtain ⟨m, hx⟩ := hx
    cases hy with
    | inl hy => exact absurd (h ▸ prefix_flatName_diskSeries hx) (flatName_fixedSeries_ne hy)
    | inr hy =>
      obtain ⟨m', hy⟩ := hy
      exact flatName_diskSeries_inj hx hy h

/-! ## The series of a call -/

theorem nodup_mountpoints (c : HostMetricsCollector) : c.mountpoints.Nodup := by
  have hperm : (sortedPairs c.disks.entries).Perm c.disks.entries := List.perm_insertionSort _ _
  exact (hperm.map Prod.fst).nodup_iff.mpr c.disks.nodup

/-- Every series of a filesystem has its mountpoint. -/
theorem mountpoint_of_mem {m : Str} {x : Str × List (Str × Str)} (h : x ∈ diskSeries m) :
    x.2.head? = some (lit "mountpoint", m) := by
  simp only [diskSeries, List.mem_cons, List.not_mem_nil, or_false] at h
  rcases h with rfl | rfl | rfl <;> rfl

theorem nodup_flatMap_diskSeries {mountpoints : List Str} (h : mountpoints.Nodup) :
    (mountpoints.flatMap diskSeries).Nodup := by
  rw [List.nodup_flatMap]
  refine ⟨?_, h.imp ?_⟩
  · intro m _
    simp [diskSeries]
  · intro m m' hne x hx hx'
    have hm := (mountpoint_of_mem hx).symm.trans (mountpoint_of_mem hx')
    exact hne (Prod.mk.inj (Option.some.inj hm)).2

section Collect

variable [Python] [Digits] {c c' : HostMetricsCollector} {t : List (Exchange host)}
  {samples : List MetricSample}

/-- No series is reported twice in a call. -/
theorem nodup_series (h : c.collect.Exec t (.ok (.ok samples, c'))) : (samples.map series).Nodup := by
  refine (exec_collect_series h).nodup ?_
  rw [← List.append_assoc]
  refine List.nodup_append.mpr ⟨nodup_flatName_fixedSeries.of_map,
    nodup_flatMap_diskSeries (nodup_mountpoints c), ?_⟩
  rintro x hx y hy rfl
  obtain ⟨m, -, hdisk⟩ := List.mem_flatMap.mp hy
  exact flatName_fixedSeries_ne hx (prefix_flatName_diskSeries hdisk)

theorem isSeries_of_collected {s : MetricSample} (h : Collected s) : IsSeries (series s) := by
  obtain ⟨c, t, samples, c', hcollect, hs⟩ := h
  have hmem := (exec_collect_series hcollect).mem (List.mem_map_of_mem hs)
  rw [← List.append_assoc] at hmem
  cases List.mem_append.mp hmem with
  | inl hfixed => exact .inl hfixed
  | inr hdisk =>
    obtain ⟨m, -, hx⟩ := List.mem_flatMap.mp hdisk
    exact .inr ⟨m, hx⟩

/-- The names of a call are distinct. -/
theorem nodup_flatName (h : c.collect.Exec t (.ok (.ok samples, c'))) :
    (samples.map fun s => flatName (series s)).Nodup := by
  have hseries : ∀ x ∈ samples.map series, IsSeries x := by
    intro x hx
    obtain ⟨s, hs, rfl⟩ := List.mem_map.mp hx
    exact isSeries_of_collected ⟨c, t, samples, c', h, hs⟩
  have hmap : (samples.map fun s => flatName (series s)) = (samples.map series).map flatName := by
    simp
  rw [hmap]
  exact (nodup_series h).map_on fun x hx y hy => flatName_inj (hseries x hx) (hseries y hy)

end Collect

/-! ## What is posted -/

theorem nameOf_metricRow (collectedAt : Str) (s : MetricSample) :
    nameOf (metricRow collectedAt s) = some (.value (.str (flatName (series s)))) := by
  simp [nameOf, metricRow, find, flatName, series]

theorem exec_adminPublish [FloatRepr] {sink : AdminCollectorSink} {snapshot : DriverSnapshot}
    {u : List (Exchange posts)} {x : Except PublishError Unit}
    (h : (AdminCollectorSink.publish sink snapshot).Exec u x) : ∃ post reply, u = [⟨post, reply⟩] ∧
      post.content = Utf8.encode (payloadText (payloadOf sink snapshot)) := by
  refine exec_postJson_bind ?_ h
  rintro ⟨status, text⟩ u y hend
  dsimp only at hend
  split at hend
  · exact hend.1
  · exact hend.1

/-- What is posted of the samples of a call keeps them apart, whatever the filesystems are
called. -/
theorem publish_keepsApart [Python] [Digits] [FloatRepr] {c c' : HostMetricsCollector}
    {t : List (Exchange host)} {snapshot : DriverSnapshot}
    (h : c.collect.Exec t (.ok (.ok snapshot.hostMetrics, c'))) {sink : AdminCollectorSink}
    {u : List (Exchange posts)} {x : Except PublishError Unit}
    (hp : (AdminCollectorSink.publish sink snapshot).Exec u x) :
    ∃ post reply, u = [⟨post, reply⟩] ∧
      post.content = Utf8.encode (payloadText (payloadOf sink snapshot)) ∧
      KeepsApart snapshot.hostMetrics (payloadOf sink snapshot) := by
  obtain ⟨post, reply, rfl, hcontent⟩ := exec_adminPublish hp
  have hnamed : (payloadOf sink snapshot).metrics.map nameOf =
      snapshot.hostMetrics.map fun s => some (.value (.str (flatName (series s)))) := by
    simp only [payloadOf, List.map_map]
    exact List.map_congr_left fun s _ => nameOf_metricRow _ s
  have hnames : ((payloadOf sink snapshot).metrics.map nameOf).Nodup := by
    have hinj : Function.Injective fun name : Str => some (Field.value (.str name)) := by
      intro a b hab
      simpa using hab
    have hmap := (nodup_flatName h).map hinj
    rw [List.map_map] at hmap
    rw [hnamed]
    exact hmap
  refine ⟨post, reply, rfl, hcontent, hnamed, hnames, ?_, ?_⟩
  · have hkey : (payloadOf sink snapshot).metrics.map nameOf =
        ((payloadOf sink snapshot).metrics.map (rowKey (payloadOf sink snapshot))).map (·.2.1) := by
      simp [rowKey]
    rw [hkey] at hnames
    exact hnames.of_map
  · intro s hs s' hs' hname
    exact flatName_inj (isSeries_of_collected ⟨c, t, _, c', h, hs⟩) (isSeries_of_collected hs') hname

/-- The text of a number with at most two decimal places, below 10 to the power of 16. -/
abbrev FloatRepr.hundredths : FloatRepr where
  repr x :=
    let n := (x * 100).num.natAbs
    Nat.toDigits 10 (n / 100) ++ '.' :: Nat.digitChar (n / 10 % 10) ::
      if n % 10 = 0 then [] else [Nat.digitChar (n % 10)]

/-- Mountpoints with the characters that the names are made with. -/
def mounted : HostMetricsCollector := HostMetricsCollector.create (lit "/proc") (some (Dict.ofList
  [(lit "/data", lit "/a"), (lit "/data,state=used", lit "/b"), (lit "/data\x7d,\x7bstate=free", lit "/c")]))

def mountedCall : List (Exchange host) × Except Exn (List MetricSample) × HostMetricsCollector :=
  @collectOn Python.ascii Digits.ascii (filesAfter "cpu  100 0 100 700 100\ncpu0 1\n" meminfo) mounted

def mountedSnapshot : DriverSnapshot where
  targetReference := lit "vps1"
  collectedAt := lit "2026-01-01T00:00:00+00:00"
  containers := []
  hostMetrics := match mountedCall.2.1 with
    | .ok samples => samples
    | .error _ => []
  events := []

def mountedSink : AdminCollectorSink :=
  ⟨lit "https://admin.example/ingest", lit "token", lit "vps1", some (lit "vps1"), none⟩

/-- The push is received. -/
def mountedPush : Except PublishError Unit × List (Exchange posts) × Unit :=
  (@AdminCollectorSink.publish FloatRepr.hundredths mountedSink mountedSnapshot).serve
    (fun w _ => (.response 204 [], w)) ()

theorem exec_mountedCall : (@HostMetricsCollector.collect mounted Python.ascii Digits.ascii).Exec
    mountedCall.1 (.ok (.ok mountedSnapshot.hostMetrics, mountedCall.2.2)) := by
  have hok : mountedCall.2.1 = .ok mountedSnapshot.hostMetrics := by decide +kernel
  have h := @exec_collectOn Python.ascii Digits.ascii
    (filesAfter "cpu  100 0 100 700 100\ncpu0 1\n" meminfo) mounted
  rw [← hok]
  exact h

theorem publish_keepsApart_mounted :
    (∃ post reply, mountedPush.2.1 = [⟨post, reply⟩] ∧ post.content = Utf8.encode
        (@payloadText FloatRepr.hundredths (payloadOf mountedSink mountedSnapshot)) ∧
      @KeepsApart Python.ascii Digits.ascii mountedSnapshot.hostMetrics
        (payloadOf mountedSink mountedSnapshot)) ∧
      (payloadOf mountedSink mountedSnapshot).metrics.length = 18 := by
  refine ⟨?_, by decide +kernel⟩
  have hp := Prog.exec_serve (I := posts) (fun (w : Unit) _ => (.response 204 [], w))
    (@AdminCollectorSink.publish FloatRepr.hundredths mountedSink mountedSnapshot) ()
  exact @publish_keepsApart Python.ascii Digits.ascii FloatRepr.hundredths _ _ _ _ exec_mountedCall
    _ _ _ hp

end MiraDriver.Admin
