import Mathlib.Algebra.Order.Ring.Rat
import MiraDriver.Mapping
import MiraDriver.Numerals
import MiraDriver.Uri

/-!
# The configuration of a driver process

`process.py`, `from_environ`: variables of free text, some of them required together, and
the one exception that a wrong one is refused with.
-/
namespace MiraDriver.Config

open MiraDriver.Text MiraDriver.Mapping MiraDriver.Base MiraDriver.Uri MiraDriver.Numerals

/-- What is raised before the first poll. -/
inductive ProcessError where
  | driverConfigError (message : Str)
  | valueError (message : Str)
  | assertionError
  deriving DecidableEq, Repr

inductive Backend where
  | docker
  | portainer
  deriving DecidableEq, Repr

structure DriverProcessConfig where
  targetReference : Str
  backend : Backend
  dockerEndpoint : Str
  portainerUrl : Option Str
  portainerEndpointId : Option Int
  portainerApiKey : Option Str
  intervalSeconds : Rat
  postmortemTail : Int
  mirarunReportUrl : Option Str
  mirarunReportToken : Option Str
  adminCollectorUrl : Option Str
  adminCollectorToken : Option Str
  nodeId : Str
  nodeHost : Str
  nodeEnv : Option Str
  hostMetricsEnabled : Bool
  procPath : Str
  diskPaths : List (Str × Str)
  deriving DecidableEq, Repr

def envPrefix : Str := lit "MIRA_DRIVER_"

/-- `raise DriverConfigError(...)`. -/
def refuse {α : Type} (message : Str) : Except ProcessError α := .error (.driverConfigError message)

/-- `str.strip`. -/
def strip (s : Str) : Str := ((s.dropWhile isSpace).reverse.dropWhile isSpace).reverse

section Environ

variable (environ : Dict Str Str)

/-- `get`, within `from_environ`: a blank value counts as none. -/
def getVar (name : String) (default : Option Str) : Option Str :=
  match ((environ.get? (envPrefix ++ lit name)).or default).map strip with
  | some value => if value = [] then default else some value
  | none => default

/-- `get` with a default. -/
def getOr (name : String) (default : Str) : Str := (getVar environ name (some default)).getD default

def targetReference : Except ProcessError Str :=
  match getVar environ "TARGET_REFERENCE" none with
  | none => refuse (envPrefix ++ lit "TARGET_REFERENCE is required")
  | some reference =>
    if validTargetReference reference then .ok reference
    else refuse (envPrefix ++ lit "TARGET_REFERENCE is not a valid env:// target reference")

/-- `_require_pair`. -/
def requirePair (url token : Option Str) (name : String) : Except ProcessError Unit :=
  if url.isNone ≠ token.isNone then
    refuse (envPrefix ++ lit name ++ lit "_URL and " ++ envPrefix ++ lit name ++
      lit "_TOKEN must be set together")
  else .ok ()

/-- One of the two sinks is there. -/
def requireSink (mirarunUrl adminUrl : Option Str) : Except ProcessError Unit :=
  if mirarunUrl = none ∧ adminUrl = none then
    refuse (lit "no sink configured: set at least one of " ++ envPrefix ++
      lit "MIRARUN_REPORT_URL/_TOKEN or " ++ envPrefix ++ lit "ADMIN_COLLECTOR_URL/_TOKEN")
  else .ok ()

def backendOf : Except ProcessError Backend :=
  if getOr environ "BACKEND" (lit "docker") = lit "docker" then .ok .docker
  else if getOr environ "BACKEND" (lit "docker") = lit "portainer" then .ok .portainer
  else refuse (envPrefix ++ lit "BACKEND must be docker or portainer")

/-- An entry of the disk paths, if there is anything in it. -/
def diskPath (item : Str) : Except ProcessError (Option (Str × Str)) :=
  if strip item = [] then .ok none
  else
    let reported := (partition '=' (strip item)).1
    let probed := (partition '=' (strip item)).2.getD reported
    if reported = [] ∨ probed = [] then
      refuse (envPrefix ++ lit "DISK_PATHS entries must be 'reported=probed' pairs")
    else .ok (some (reported, probed))

/-- `_parse_disk_paths`. -/
def parseDiskPaths (value : Str) : Except ProcessError (List (Str × Str)) := do
  let pairs ← (value.splitOn ',').mapM diskPath
  pure (pairs.filterMap id)

variable [Python]

def hostMetricsEnabled : Except ProcessError Bool :=
  let raw := lower (getOr environ "HOST_METRICS" (lit "true"))
  if raw = lit "true" then .ok true
  else if raw = lit "false" then .ok false
  else refuse (envPrefix ++ lit "HOST_METRICS must be true or false")

variable [Digits]

/-- `_positive_float`. -/
def positiveFloat (value : Str) (name : String) : Except ProcessError Rat :=
  match parseFloat value with
  | none => refuse (envPrefix ++ lit name ++ lit " must be a number")
  | some (.finite parsed) =>
    if parsed ≤ 0 then refuse (envPrefix ++ lit name ++ lit " must be a positive finite number")
    else .ok parsed
  | some _ => refuse (envPrefix ++ lit name ++ lit " must be a positive finite number")

def intervalSeconds : Except ProcessError Rat := do
  let interval ← positiveFloat (getOr environ "INTERVAL_SECONDS" (lit "60")) "INTERVAL_SECONDS"
  if interval < 5 then
    refuse (envPrefix ++ lit "INTERVAL_SECONDS below 5 hammers the endpoint for no operational gain")
  else pure interval

/-- `_bounded_int`. -/
def boundedInt (value : Str) (name : String) : Except ProcessError Int :=
  match parseInt value with
  | none => refuse (envPrefix ++ lit name ++ lit " must be an integer")
  | some parsed =>
    if parsed < 1 ∨ parsed > 1000 then
      refuse (envPrefix ++ lit name ++ lit " must be between 1 and 1000")
    else .ok parsed

/-- The endpoint ID, of which only the portainer backend has need. -/
def portainerEndpoint (backend : Backend) (url endpoint apiKey : Option Str) :
    Except ProcessError (Option Int) :=
  match backend with
  | .docker => .ok none
  | .portainer =>
    match url, endpoint, apiKey with
    | some _, some endpoint, some _ =>
      match parseInt endpoint with
      | none => refuse (envPrefix ++ lit "PORTAINER_ENDPOINT_ID must be an integer")
      | some id =>
        if id < 1 then refuse (envPrefix ++ lit "PORTAINER_ENDPOINT_ID must be positive")
        else .ok (some id)
    | _, _, _ => refuse (lit "the portainer backend requires " ++ envPrefix ++ lit "PORTAINER_URL, " ++
        envPrefix ++ lit "PORTAINER_ENDPOINT_ID and " ++ envPrefix ++ lit "PORTAINER_API_KEY")

/-- `DriverProcessConfig.from_environ`, on a host of the given name. -/
def fromEnviron (hostname : Str) : Except ProcessError DriverProcessConfig := do
  let reference ← targetReference environ
  let interval ← intervalSeconds environ
  let tail ← boundedInt (getOr environ "POSTMORTEM_TAIL" (lit "50")) "POSTMORTEM_TAIL"
  let mirarunUrl := getVar environ "MIRARUN_REPORT_URL" none
  let mirarunToken := getVar environ "MIRARUN_REPORT_TOKEN" none
  let adminUrl := getVar environ "ADMIN_COLLECTOR_URL" none
  let adminToken := getVar environ "ADMIN_COLLECTOR_TOKEN" none
  requirePair mirarunUrl mirarunToken "MIRARUN_REPORT"
  requirePair adminUrl adminToken "ADMIN_COLLECTOR"
  requireSink mirarunUrl adminUrl
  let hostMetrics ← hostMetricsEnabled environ
  let backend ← backendOf environ
  let portainerUrl := getVar environ "PORTAINER_URL" none
  let portainerApiKey := getVar environ "PORTAINER_API_KEY" none
  let endpointId ← portainerEndpoint backend portainerUrl
    (getVar environ "PORTAINER_ENDPOINT_ID" none) portainerApiKey
  let diskPaths ← parseDiskPaths (getOr environ "DISK_PATHS" (lit "/=/"))
  pure {
    targetReference := reference
    backend
    dockerEndpoint := getOr environ "DOCKER_ENDPOINT" (lit "unix:///var/run/docker.sock")
    portainerUrl
    portainerEndpointId := endpointId
    portainerApiKey
    intervalSeconds := interval
    postmortemTail := tail
    mirarunReportUrl := mirarunUrl
    mirarunReportToken := mirarunToken
    adminCollectorUrl := adminUrl
    adminCollectorToken := adminToken
    nodeId := getOr environ "NODE_ID" reference
    nodeHost := getOr environ "NODE_HOST" hostname
    nodeEnv := getVar environ "NODE_ENV" none
    hostMetricsEnabled := hostMetrics
    procPath := getOr environ "PROC_PATH" (lit "/proc")
    diskPaths }

end Environ

/-! ## What is accepted -/

def Backend.name : Backend → Str
  | .docker => lit "docker"
  | .portainer => lit "portainer"

/-- An item of the disk paths is blank, or has both of its paths. -/
def DiskItem (item : Str) : Prop :=
  strip item = [] ∨ ((partition '=' (strip item)).1 ≠ [] ∧ (partition '=' (strip item)).2 ≠ some [])

/-- The environment is accepted, variable by variable. -/
structure WellConfigured [Python] [Digits] (environ : Dict Str Str) : Prop where
  reference : ∃ reference, getVar environ "TARGET_REFERENCE" none = some reference ∧
    validTargetReference reference = true
  interval : ∃ x, parseFloat (getOr environ "INTERVAL_SECONDS" (lit "60")) = some (.finite x) ∧ 5 ≤ x
  tail : ∃ n, parseInt (getOr environ "POSTMORTEM_TAIL" (lit "50")) = some n ∧ 1 ≤ n ∧ n ≤ 1000
  mirarun : getVar environ "MIRARUN_REPORT_URL" none = none ↔
    getVar environ "MIRARUN_REPORT_TOKEN" none = none
  admin : getVar environ "ADMIN_COLLECTOR_URL" none = none ↔
    getVar environ "ADMIN_COLLECTOR_TOKEN" none = none
  sink : getVar environ "MIRARUN_REPORT_URL" none ≠ none ∨
    getVar environ "ADMIN_COLLECTOR_URL" none ≠ none
  hostMetrics : lower (getOr environ "HOST_METRICS" (lit "true")) ∈ [lit "true", lit "false"]
  backend : ∃ backend : Backend, getOr environ "BACKEND" (lit "docker") = backend.name
  portainer : getOr environ "BACKEND" (lit "docker") = lit "portainer" →
    getVar environ "PORTAINER_URL" none ≠ none ∧ getVar environ "PORTAINER_API_KEY" none ≠ none ∧
      ∃ text id, getVar environ "PORTAINER_ENDPOINT_ID" none = some text ∧
        parseInt text = some id ∧ 1 ≤ id
  disks : ∀ item ∈ (getOr environ "DISK_PATHS" (lit "/=/")).splitOn ',', DiskItem item

section Checks

variable {environ : Dict Str Str}

theorem ne_nil_of_getVar {name : String} {value : Str} (h : getVar environ name none = some value) :
    value ≠ [] := by
  unfold getVar at h
  split at h
  · split at h
    · cases h
    · rename_i hne
      exact Option.some.inj h ▸ hne
  · cases h

theorem targetReference_ok_iff {reference : Str} : targetReference environ = .ok reference ↔
    getVar environ "TARGET_REFERENCE" none = some reference ∧
      validTargetReference reference = true := by
  unfold targetReference
  cases getVar environ "TARGET_REFERENCE" none with
  | none => simp [refuse]
  | some value =>
    by_cases hvalid : validTargetReference value = true
    · simp only [hvalid, if_true, Except.ok.injEq, Option.some.injEq]
      constructor
      · rintro rfl
        exact ⟨rfl, hvalid⟩
      · exact And.left
    · simp only [hvalid, refuse, Option.some.injEq]
      constructor
      · intro h
        cases h
      · rintro ⟨rfl, h⟩
        exact absurd h hvalid

theorem requirePair_ok_iff {url token : Option Str} {name : String} :
    requirePair url token name = .ok () ↔ (url = none ↔ token = none) := by
  cases url <;> cases token <;> simp [requirePair, refuse]

theorem requireSink_ok_iff {mirarunUrl adminUrl : Option Str} :
    requireSink mirarunUrl adminUrl = .ok () ↔ mirarunUrl ≠ none ∨ adminUrl ≠ none := by
  cases mirarunUrl <;> cases adminUrl <;> simp [requireSink, refuse]

theorem backendOf_ok_iff {backend : Backend} :
    backendOf environ = .ok backend ↔ getOr environ "BACKEND" (lit "docker") = backend.name := by
  have hne : lit "docker" ≠ lit "portainer" := by simp
  unfold backendOf
  generalize getOr environ "BACKEND" (lit "docker") = value
  by_cases hdocker : value = lit "docker"
  · rw [if_pos hdocker, hdocker]
    cases backend <;> simp [Backend.name]
  · by_cases hportainer : value = lit "portainer"
    · rw [if_neg hdocker, if_pos hportainer, hportainer]
      cases backend <;> simp [Backend.name]
    · rw [if_neg hdocker, if_neg hportainer]
      cases backend <;> simp [Backend.name, refuse, hdocker, hportainer]

theorem diskPath_ok_iff {item : Str} : (∃ pair, diskPath item = .ok pair) ↔ DiskItem item := by
  unfold diskPath DiskItem
  by_cases hblank : strip item = []
  · simp [hblank]
  · simp only [hblank, if_false, false_or]
    cases hpartition : partition '=' (strip item) with
    | mk reported probed =>
      cases probed with
      | none => by_cases h : reported = [] <;> simp [h, refuse]
      | some probed => by_cases h : reported = [] <;> by_cases h' : probed = [] <;> simp [h, h', refuse]

theorem parseDiskPaths_ok_iff {value : Str} :
    (∃ pairs, parseDiskPaths value = .ok pairs) ↔ ∀ item ∈ value.splitOn ',', DiskItem item := by
  unfold parseDiskPaths
  generalize value.splitOn ',' = items
  constructor
  · rintro ⟨pairs, h⟩ item hitem
    obtain ⟨entries, hentries, -⟩ := bind_ok_iff.mp h
    obtain ⟨pair, -, hpair⟩ := exists_of_mem_left (mapM_ok_iff.mp hentries) hitem
    exact diskPath_ok_iff.mp ⟨pair, hpair⟩
  · intro hall
    obtain ⟨entries, hentries⟩ : ∃ entries, items.mapM diskPath = .ok entries := by
      induction items with
      | nil => exact ⟨[], rfl⟩
      | cons item items ih =>
        obtain ⟨pair, hpair⟩ := diskPath_ok_iff.mpr (hall item List.mem_cons_self)
        obtain ⟨entries, hentries⟩ := ih fun i hi => hall i (List.mem_cons_of_mem item hi)
        exact ⟨pair :: entries, mapM_ok_iff.mpr (.cons hpair (mapM_ok_iff.mp hentries))⟩
    exact ⟨_, bind_ok_iff.mpr ⟨entries, hentries, rfl⟩⟩

variable [Python]

theorem hostMetricsEnabled_ok_iff : (∃ enabled, hostMetricsEnabled environ = .ok enabled) ↔
    lower (getOr environ "HOST_METRICS" (lit "true")) ∈ [lit "true", lit "false"] := by
  unfold hostMetricsEnabled
  dsimp only
  generalize lower (getOr environ "HOST_METRICS" (lit "true")) = raw
  by_cases htrue : raw = lit "true"
  · simp [htrue]
  · by_cases hfalse : raw = lit "false"
    · simp [hfalse]
    · simp [htrue, hfalse, refuse]

variable [Digits]

theorem positiveFloat_ok_iff {value : Str} {name : String} {x : Rat} :
    positiveFloat value name = .ok x ↔ parseFloat value = some (.finite x) ∧ 0 < x := by
  unfold positiveFloat
  cases parseFloat value with
  | none => simp [refuse]
  | some parsed =>
    cases parsed with
    | finite y =>
      by_cases hpos : y ≤ 0
      · simp only [hpos, if_true, refuse, Option.some.injEq, Double.finite.injEq]
        constructor
        · intro h
          cases h
        · rintro ⟨rfl, h⟩
          exact absurd hpos (not_le.mpr h)
      · simp only [hpos, if_false, Except.ok.injEq, Option.some.injEq, Double.finite.injEq]
        constructor
        · rintro rfl
          exact ⟨rfl, not_le.mp hpos⟩
        · exact And.left
    | _ => simp [refuse]

theorem intervalSeconds_ok_iff {x : Rat} : intervalSeconds environ = .ok x ↔
    parseFloat (getOr environ "INTERVAL_SECONDS" (lit "60")) = some (.finite x) ∧ 5 ≤ x := by
  unfold intervalSeconds
  simp only [bind_ok_iff, positiveFloat_ok_iff]
  constructor
  · rintro ⟨y, ⟨hy, -⟩, h⟩
    split at h
    · cases h
    · rename_i hlarge
      obtain rfl := Except.ok.inj h
      exact ⟨hy, not_lt.mp hlarge⟩
  · rintro ⟨hx, hlarge⟩
    refine ⟨x, ⟨hx, lt_of_lt_of_le (by decide) hlarge⟩, ?_⟩
    rw [if_neg (not_lt.mpr hlarge)]
    rfl

theorem boundedInt_ok_iff {value : Str} {name : String} {n : Int} :
    boundedInt value name = .ok n ↔ parseInt value = some n ∧ 1 ≤ n ∧ n ≤ 1000 := by
  unfold boundedInt
  cases parseInt value with
  | none => simp [refuse]
  | some parsed =>
    by_cases hrange : parsed < 1 ∨ parsed > 1000
    · simp only [hrange, if_true, refuse, Option.some.injEq]
      constructor
      · intro h
        cases h
      · rintro ⟨rfl, hlow, hhigh⟩
        omega
    · simp only [hrange, if_false, Except.ok.injEq, Option.some.injEq]
      constructor
      · rintro rfl
        omega
      · exact And.left

/-- The endpoint is a positive number where it is needed. -/
theorem portainerEndpoint_ok_iff {url endpoint apiKey : Option Str} {id : Option Int} :
    portainerEndpoint .portainer url endpoint apiKey = .ok id ↔ url ≠ none ∧ apiKey ≠ none ∧
      ∃ text n, endpoint = some text ∧ parseInt text = some n ∧ 1 ≤ n ∧ id = some n := by
  cases url with
  | none => simp [portainerEndpoint, refuse]
  | some url =>
    cases endpoint with
    | none => simp [portainerEndpoint, refuse]
    | some text =>
      cases apiKey with
      | none => simp [portainerEndpoint, refuse]
      | some apiKey =>
        unfold portainerEndpoint
        dsimp only
        cases hparsed : parseInt text with
        | none => simp [refuse, hparsed]
        | some n =>
          by_cases hsmall : n < 1
          · simp only [hsmall, if_true, refuse]
            constructor
            · intro h
              cases h
            · rintro ⟨-, -, _, m, ⟨⟩, hm, hlow, -⟩
              rw [hparsed] at hm
              cases hm
              omega
          · simp only [hsmall, if_false, Except.ok.injEq]
            constructor
            · rintro rfl
              exact ⟨nofun, nofun, text, n, rfl, hparsed, not_lt.mp hsmall, rfl⟩
            · rintro ⟨-, -, _, m, ⟨⟩, hm, -, rfl⟩
              rw [hparsed] at hm
              exact hm

end Checks

/-! ## Defaults -/

section Defaults

variable {environ : Dict Str Str}

/-- A variable that is not set has its default, which has no white space around it. -/
theorem getOr_unset {name : String} {default : Str} (h : environ.get? (envPrefix ++ lit name) = none)
    (hstrip : strip default = default) : getOr environ name default = default := by
  unfold getOr getVar
  rw [h, Option.none_or, Option.map_some, hstrip]
  by_cases hblank : default = [] <;> simp [hblank]

theorem diskItem_default : ∀ item ∈ (lit "/=/").splitOn ',', DiskItem item := by
  have hitems : (lit "/=/").splitOn ',' = [lit "/=/"] := by decide +kernel
  have hstrip : strip (lit "/=/") = lit "/=/" := by decide +kernel
  rw [hitems]
  simp only [List.forall_mem_singleton, DiskItem, hstrip]
  simp [lit_def, partition]

variable [Python]

theorem lower_default : lower (lit "true") = lit "true" := by
  rw [lower_of_ascii _ (by decide +kernel)]
  decide +kernel

variable [Digits]

theorem parseInt_default : parseInt (lit "50") = some 50 := by
  simp [parseInt, lit_def, splitSign, digitPart, digitOf, isAscii, isDigit, digitsValue, maxStrDigits]

theorem parseFloat_default : parseFloat (lit "60") = some (.finite 60) := by
  have hnumber : number ['6', '0'] = some 60 := by
    simp [number, mantissa, partition, isExponentMark, digitPart, digitOf, isAscii, isDigit, digitsValue]
  have hdouble : Double.ofRat false 60 = .finite 60 := by decide +kernel
  simp [parseFloat, lit_def, splitSign, hnumber, hdouble]

/-- Every default passes its own check: only a reference and a sink have to be set. -/
theorem wellConfigured_of_unset
    (hreference : ∃ reference, getVar environ "TARGET_REFERENCE" none = some reference ∧
      validTargetReference reference = true)
    (hmirarun : getVar environ "MIRARUN_REPORT_URL" none = none ↔
      getVar environ "MIRARUN_REPORT_TOKEN" none = none)
    (hadmin : getVar environ "ADMIN_COLLECTOR_URL" none = none ↔
      getVar environ "ADMIN_COLLECTOR_TOKEN" none = none)
    (hsink : getVar environ "MIRARUN_REPORT_URL" none ≠ none ∨
      getVar environ "ADMIN_COLLECTOR_URL" none ≠ none)
    (hunset : ∀ name ∈ ["INTERVAL_SECONDS", "POSTMORTEM_TAIL", "HOST_METRICS", "BACKEND", "DISK_PATHS"],
      environ.get? (envPrefix ++ lit name) = none) : WellConfigured environ := by
  have hinterval : getOr environ "INTERVAL_SECONDS" (lit "60") = lit "60" :=
    getOr_unset (hunset _ (by simp)) (by decide +kernel)
  have htail : getOr environ "POSTMORTEM_TAIL" (lit "50") = lit "50" :=
    getOr_unset (hunset _ (by simp)) (by decide +kernel)
  have hmetrics : getOr environ "HOST_METRICS" (lit "true") = lit "true" :=
    getOr_unset (hunset _ (by simp)) (by decide +kernel)
  have hbackend : getOr environ "BACKEND" (lit "docker") = lit "docker" :=
    getOr_unset (hunset _ (by simp)) (by decide +kernel)
  have hdisks : getOr environ "DISK_PATHS" (lit "/=/") = lit "/=/" :=
    getOr_unset (hunset _ (by simp)) (by decide +kernel)
  constructor
  case reference => exact hreference
  case interval => exact ⟨60, by rw [hinterval, parseFloat_default], by decide⟩
  case tail => exact ⟨50, by rw [htail, parseInt_default], by decide, by decide⟩
  case mirarun => exact hmirarun
  case admin => exact hadmin
  case sink => exact hsink
  case hostMetrics =>
    rw [hmetrics, lower_default]
    exact List.mem_cons_self
  case backend => exact ⟨.docker, hbackend⟩
  case portainer =>
    intro hsays
    rw [hbackend] at hsays
    simp at hsays
  case disks =>
    rw [hdisks]
    exact diskItem_default

end Defaults

/-! ## What is refused -/

section Refusals

variable {α β : Type}

/-- What is raised is a `DriverConfigError`. -/
def Refusing (x : Except ProcessError α) : Prop := ∀ e, x = .error e → ∃ m, e = .driverConfigError m

theorem refusing_ok (a : α) : Refusing (.ok a : Except ProcessError α) := by
  intro e h
  cases h

theorem refusing_refuse (message : Str) : Refusing (refuse message : Except ProcessError α) := by
  intro e h
  exact ⟨message, (Except.error.inj h).symm⟩

theorem refusing_bind {x : Except ProcessError α} {f : α → Except ProcessError β} (hx : Refusing x)
    (hf : ∀ a, Refusing (f a)) : Refusing (x >>= f) := by
  intro e h
  cases bind_error_iff.mp h with
  | inl h => exact hx e h
  | inr h =>
    obtain ⟨a, -, ha⟩ := h
    exact hf a e ha

theorem refusing_mapM {f : α → Except ProcessError β} (hf : ∀ a, Refusing (f a)) (l : List α) :
    Refusing (l.mapM f) := by
  induction l with
  | nil => exact refusing_ok []
  | cons a l ih =>
    rw [List.mapM_cons]
    apply refusing_bind (hf a)
    intro b
    apply refusing_bind ih
    intro bs
    exact refusing_ok _

variable {environ : Dict Str Str}

theorem refusing_targetReference : Refusing (targetReference environ) := by
  unfold targetReference
  split
  · exact refusing_refuse _
  · split
    · exact refusing_ok _
    · exact refusing_refuse _

theorem refusing_requirePair (url token : Option Str) (name : String) :
    Refusing (requirePair url token name) := by
  unfold requirePair
  split
  · exact refusing_refuse _
  · exact refusing_ok _

theorem refusing_requireSink (mirarunUrl adminUrl : Option Str) :
    Refusing (requireSink mirarunUrl adminUrl) := by
  unfold requireSink
  split
  · exact refusing_refuse _
  · exact refusing_ok _

theorem refusing_backendOf : Refusing (backendOf environ) := by
  unfold backendOf
  split
  · exact refusing_ok _
  · split
    · exact refusing_ok _
    · exact refusing_refuse _

theorem refusing_diskPath (item : Str) : Refusing (diskPath item) := by
  unfold diskPath
  split
  · exact refusing_ok _
  · dsimp only
    split
    · exact refusing_refuse _
    · exact refusing_ok _

theorem refusing_parseDiskPaths (value : Str) : Refusing (parseDiskPaths value) := by
  apply refusing_bind (refusing_mapM refusing_diskPath _)
  intro pairs
  exact refusing_ok _

variable [Python]

theorem refusing_hostMetricsEnabled : Refusing (hostMetricsEnabled environ) := by
  unfold hostMetricsEnabled
  dsimp only
  split
  · exact refusing_ok _
  · split
    · exact refusing_ok _
    · exact refusing_refuse _

variable [Digits]

theorem refusing_positiveFloat (value : Str) (name : String) : Refusing (positiveFloat value name) := by
  unfold positiveFloat
  split
  · exact refusing_refuse _
  · split
    · exact refusing_refuse _
    · exact refusing_ok _
  · exact refusing_refuse _

theorem refusing_intervalSeconds : Refusing (intervalSeconds environ) := by
  apply refusing_bind (refusing_positiveFloat _ _)
  intro interval
  split
  · exact refusing_refuse _
  · exact refusing_ok _

theorem refusing_boundedInt (value : Str) (name : String) : Refusing (boundedInt value name) := by
  unfold boundedInt
  split
  · exact refusing_refuse _
  · split
    · exact refusing_refuse _
    · exact refusing_ok _

theorem refusing_portainerEndpoint (backend : Backend) (url endpoint apiKey : Option Str) :
    Refusing (portainerEndpoint backend url endpoint apiKey) := by
  unfold portainerEndpoint
  split
  · exact refusing_ok _
  · split
    · split
      · exact refusing_refuse _
      · split
        · exact refusing_refuse _
        · exact refusing_ok _
    · exact refusing_refuse _

/-- `from_environ` raises nothing else. -/
theorem refusing_fromEnviron (hostname : Str) : Refusing (fromEnviron environ hostname) := by
  apply refusing_bind refusing_targetReference
  intro reference
  apply refusing_bind refusing_intervalSeconds
  intro interval
  apply refusing_bind (refusing_boundedInt _ _)
  intro tail
  apply refusing_bind (refusing_requirePair _ _ _)
  intro u
  apply refusing_bind (refusing_requirePair _ _ _)
  intro u
  apply refusing_bind (refusing_requireSink _ _)
  intro u
  apply refusing_bind refusing_hostMetricsEnabled
  intro hostMetrics
  apply refusing_bind refusing_backendOf
  intro backend
  apply refusing_bind (refusing_portainerEndpoint _ _ _ _)
  intro endpointId
  apply refusing_bind (refusing_parseDiskPaths _)
  intro diskPaths
  exact refusing_ok _

end Refusals

/-! ## What is built -/

/-- What a configuration has from the environment for its driver and its sinks. -/
structure Read (environ : Dict Str Str) (config : DriverProcessConfig) : Prop where
  backend : getOr environ "BACKEND" (lit "docker") = config.backend.name
  portainerUrl : config.portainerUrl = getVar environ "PORTAINER_URL" none
  portainer : config.backend = .portainer → ∃ url id apiKey, config.portainerUrl = some url ∧
    config.portainerEndpointId = some id ∧ config.portainerApiKey = some apiKey ∧ url ≠ [] ∧ 1 ≤ id ∧
    apiKey ≠ []
  mirarunUrl : config.mirarunReportUrl = getVar environ "MIRARUN_REPORT_URL" none
  mirarunToken : config.mirarunReportToken = getVar environ "MIRARUN_REPORT_TOKEN" none
  adminUrl : config.adminCollectorUrl = getVar environ "ADMIN_COLLECTOR_URL" none
  adminToken : config.adminCollectorToken = getVar environ "ADMIN_COLLECTOR_TOKEN" none

section Build

variable [Python] [Digits] {environ : Dict Str Str} {hostname : Str} {config : DriverProcessConfig}

/-- The checks of `from_environ`, in its order. -/
theorem fromEnviron_ok (h : fromEnviron environ hostname = .ok config) :
    WellConfigured environ ∧ Read environ config := by
  simp only [fromEnviron, bind_ok_iff] at h
  obtain ⟨reference, hreference, interval, hinterval, tail, htail, _, hmirarun, _, hadmin, _, hsink,
    enabled, henabled, backend, hbackend, endpointId, hendpoint, diskPaths, hdisks, hconfig⟩ := h
  obtain rfl := Except.ok.inj hconfig
  have hname := backendOf_ok_iff.mp hbackend
  have hportainer : backend = .portainer → getVar environ "PORTAINER_URL" none ≠ none ∧
      getVar environ "PORTAINER_API_KEY" none ≠ none ∧
      ∃ text n, getVar environ "PORTAINER_ENDPOINT_ID" none = some text ∧ parseInt text = some n ∧
        1 ≤ n ∧ endpointId = some n := by
    rintro rfl
    exact portainerEndpoint_ok_iff.mp hendpoint
  have hbackend_of_name : getOr environ "BACKEND" (lit "docker") = lit "portainer" →
      backend = .portainer := by
    intro hsays
    cases backend with
    | docker => simp [hname, Backend.name] at hsays
    | portainer => rfl
  constructor
  · constructor
    case reference => exact ⟨reference, targetReference_ok_iff.mp hreference⟩
    case interval => exact ⟨interval, intervalSeconds_ok_iff.mp hinterval⟩
    case tail => exact ⟨tail, boundedInt_ok_iff.mp htail⟩
    case mirarun => exact requirePair_ok_iff.mp hmirarun
    case admin => exact requirePair_ok_iff.mp hadmin
    case sink => exact requireSink_ok_iff.mp hsink
    case hostMetrics => exact hostMetricsEnabled_ok_iff.mp ⟨enabled, henabled⟩
    case backend => exact ⟨backend, hname⟩
    case portainer =>
      intro hsays
      obtain ⟨hurl, hkey, text, n, htext, hn, hlow, -⟩ := hportainer (hbackend_of_name hsays)
      exact ⟨hurl, hkey, text, n, htext, hn, hlow⟩
    case disks => exact parseDiskPaths_ok_iff.mp ⟨diskPaths, hdisks⟩
  · refine ⟨hname, rfl, ?_, rfl, rfl, rfl, rfl⟩
    intro hbackend
    obtain ⟨hurl, hkey, text, n, -, -, hlow, hid⟩ := hportainer hbackend
    obtain ⟨url, hurl⟩ := Option.ne_none_iff_exists'.mp hurl
    obtain ⟨apiKey, hkey⟩ := Option.ne_none_iff_exists'.mp hkey
    exact ⟨url, n, apiKey, hurl, hid, hkey, ne_nil_of_getVar hurl, hlow, ne_nil_of_getVar hkey⟩

/-- The interval is at least the one that a poll needs. -/
theorem five_le_intervalSeconds (h : fromEnviron environ hostname = .ok config) :
    5 ≤ config.intervalSeconds := by
  simp only [fromEnviron, bind_ok_iff] at h
  obtain ⟨reference, -, interval, hinterval, tail, -, _, -, _, -, _, -, enabled, -, backend, -, endpointId,
    -, diskPaths, -, hconfig⟩ := h
  obtain rfl := Except.ok.inj hconfig
  exact (intervalSeconds_ok_iff.mp hinterval).2

/-- No other check is made. -/
theorem exists_config (h : WellConfigured environ) (hostname : Str) :
    ∃ config, fromEnviron environ hostname = .ok config := by
  obtain ⟨reference, hreference⟩ := h.reference
  obtain ⟨interval, hinterval⟩ := h.interval
  obtain ⟨tail, htail⟩ := h.tail
  obtain ⟨enabled, henabled⟩ := hostMetricsEnabled_ok_iff.mpr h.hostMetrics
  obtain ⟨backend, hbackend⟩ := h.backend
  obtain ⟨diskPaths, hdisks⟩ := parseDiskPaths_ok_iff.mpr h.disks
  obtain ⟨endpointId, hendpoint⟩ : ∃ id, portainerEndpoint backend (getVar environ "PORTAINER_URL" none)
      (getVar environ "PORTAINER_ENDPOINT_ID" none) (getVar environ "PORTAINER_API_KEY" none) = .ok id := by
    cases backend with
    | docker => exact ⟨none, rfl⟩
    | portainer =>
      obtain ⟨hurl, hkey, text, n, htext, hn, hlow⟩ := h.portainer hbackend
      exact ⟨some n, portainerEndpoint_ok_iff.mpr ⟨hurl, hkey, text, n, htext, hn, hlow, rfl⟩⟩
  simp only [fromEnviron, targetReference_ok_iff.mpr hreference, intervalSeconds_ok_iff.mpr hinterval,
    boundedInt_ok_iff.mpr htail, requirePair_ok_iff.mpr h.mirarun, requirePair_ok_iff.mpr h.admin,
    requireSink_ok_iff.mpr h.sink, henabled, backendOf_ok_iff.mpr hbackend, bind, Except.bind,
    hendpoint, hdisks]
  exact ⟨_, rfl⟩

end Build

end MiraDriver.Config
