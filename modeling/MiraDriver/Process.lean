import MiraDriver.Config
import MiraDriver.Drivers
import MiraDriver.Sinks

/-!
# The driver as a process

`process.py`, `build_runner` and `main`: the runner that is made from a configuration. The
constructors of other modules have preconditions of their own.
-/
namespace MiraDriver.Process

open MiraDriver.Text MiraDriver.Mapping MiraDriver.Base MiraDriver.Runner MiraDriver.Drivers
  MiraDriver.Numerals MiraDriver.Sinks MiraDriver.Config

structure AdminCollectorSink where
  collectorUrl : Str
  token : Str
  nodeId : Str
  host : Option Str
  environment : Option Str
  deriving DecidableEq, Repr

inductive Sink where
  | mirarun (sink : MirarunReportSink)
  | admin (sink : AdminCollectorSink)
  deriving DecidableEq, Repr

/-- A collector as it is configured. -/
structure HostMetricsCollector where
  proc : Str
  disks : Dict Str Str

/-- A runner with what it calls. -/
structure DriverProcess where
  driver : Driver
  runner : DriverRunner Sink
  hostMetrics : Option HostMetricsCollector
  interval : Rat

/-- `DriverRunner(...)`, over a driver of this package. -/
def DriverProcess.create (driver : Driver) (sinks : List Sink) (reference : Str)
    (hostMetrics : Option HostMetricsCollector) (interval : Rat) (postmortemTail : Int) :
    Except ProcessError DriverProcess :=
  if h : sinks = [] then .error (.valueError (lit "a runner without sinks would poll into the void"))
  else .ok ⟨driver,
    ⟨sinks, h, reference, hostMetrics.isSome, postmortemTail, true, true, Dict.empty⟩, hostMetrics,
    interval⟩

/-- The driver of `build_runner`, with its assertion. -/
def buildDriver (config : DriverProcessConfig) : Except ProcessError Driver :=
  match config.backend with
  | .docker => .ok (.docker config.targetReference config.dockerEndpoint)
  | .portainer =>
    match config.portainerUrl, config.portainerEndpointId, config.portainerApiKey with
    | some url, some endpointId, some apiKey =>
      if url = [] ∨ endpointId = 0 ∨ apiKey = [] then .error .assertionError
      else (Driver.ofPortainer config.targetReference url endpointId apiKey).mapError fun e =>
        .valueError e.message
    | _, _, _ => .error .assertionError

def mirarunSinks (config : DriverProcessConfig) : List Sink :=
  match config.mirarunReportUrl, config.mirarunReportToken with
  | some url, some token => [.mirarun ⟨url, token⟩]
  | _, _ => []

def adminSinks (config : DriverProcessConfig) : List Sink :=
  match config.adminCollectorUrl, config.adminCollectorToken with
  | some url, some token => [.admin ⟨url, token, config.nodeId, some config.nodeHost, config.nodeEnv⟩]
  | _, _ => []

/-- `build_runner`. -/
def buildRunner (config : DriverProcessConfig) : Except ProcessError DriverProcess := do
  let driver ← buildDriver config
  let hostMetrics := if config.hostMetricsEnabled then
    some ⟨rstrip '/' config.procPath, Dict.ofList config.diskPaths⟩ else none
  DriverProcess.create driver (mirarunSinks config ++ adminSinks config) config.targetReference
    hostMetrics config.intervalSeconds config.postmortemTail

/-- How the process starts. -/
inductive Startup where
  | exit (status : Nat) (message : Str)
  | raised (error : ProcessError)
  | polling (process : DriverProcess)

/-- `main`, up to the first poll. -/
def main [Python] [Digits] (hostname : Str) (environ : Dict Str Str) : Startup :=
  match fromEnviron environ hostname with
  | .error (.driverConfigError message) => .exit 2 (lit "mira-driver: " ++ message)
  | .error e => .raised e
  | .ok config =>
    match buildRunner config with
    | .error e => .raised e
    | .ok process => .polling process

/-! ## What is built -/

/-- The sinks that there are. -/
inductive SinkKind where
  | mirarun
  | admin
  deriving DecidableEq, Repr

/-- What a sink is, and its address and token. -/
def Sink.target : Sink → SinkKind × Str × Str
  | .mirarun sink => (.mirarun, sink.reportUrl, sink.token)
  | .admin sink => (.admin, sink.collectorUrl, sink.token)

/-- A pair of variables that are both set. -/
def pair (kind : SinkKind) (url token : Option Str) : List (SinkKind × Str × Str) :=
  match url, token with
  | some url, some token => [(kind, url, token)]
  | _, _ => []

def pairs (environ : Dict Str Str) : List (SinkKind × Str × Str) :=
  pair .mirarun (getVar environ "MIRARUN_REPORT_URL" none) (getVar environ "MIRARUN_REPORT_TOKEN" none) ++
    pair .admin (getVar environ "ADMIN_COLLECTOR_URL" none) (getVar environ "ADMIN_COLLECTOR_TOKEN" none)

def isPortainer : Driver → Bool
  | .docker _ _ => false
  | .portainer _ _ _ => true

/-- The runner is the one that the environment says. -/
structure AsConfigured (environ : Dict Str Str) (process : DriverProcess) : Prop where
  someSink : process.runner.sinks ≠ []
  sinks : process.runner.sinks.map Sink.target = pairs environ
  backend : isPortainer process.driver = true ↔ getOr environ "BACKEND" (lit "docker") = lit "portainer"

/-- The environment is refused, with the exit status 2, or makes a runner. -/
def Starts [Python] [Digits] (hostname : Str) (environ : Dict Str Str) : Prop :=
  (∃ m, fromEnviron environ hostname = .error (.driverConfigError m) ∧
      main hostname environ = .exit 2 (lit "mira-driver: " ++ m)) ∨
    ∃ config process, fromEnviron environ hostname = .ok config ∧ buildRunner config = .ok process ∧
      main hostname environ = .polling process ∧ AsConfigured environ process

def isHttpUrl (url : Str) : Bool :=
  (lit "http://").isPrefixOf url || (lit "https://").isPrefixOf url

section Build

variable {environ : Dict Str Str} {config : DriverProcessConfig}

/-- The one precondition that is not checked before is the scheme of the URL. -/
theorem ofPortainer_ok_iff (reference : Str) {url apiKey : Str} {id : Int} (hid : 1 ≤ id)
    (hkey : apiKey ≠ []) :
    (∃ driver, Driver.ofPortainer reference url id apiKey = .ok driver) ↔ isHttpUrl url = true := by
  unfold Driver.ofPortainer
  change (∃ driver, (if (!isHttpUrl url) = true then _ else _) = Except.ok driver) ↔ _
  cases isHttpUrl url with
  | false => simp
  | true => simp [not_lt.mpr hid, hkey]

/-- A driver is built if the backend is not Portainer, or its URL has a scheme. -/
theorem buildDriver_ok_iff (h : Read environ config) :
    (∃ driver, buildDriver config = .ok driver) ↔ (config.backend = .portainer →
      ∀ url, getVar environ "PORTAINER_URL" none = some url → isHttpUrl url = true) := by
  rw [← h.portainerUrl]
  unfold buildDriver
  cases hbackend : config.backend with
  | docker => simp
  | portainer =>
    obtain ⟨url, id, apiKey, hurl, hid, hkey, hurlNe, hlow, hkeyNe⟩ := h.portainer hbackend
    have hassert : ¬ (url = [] ∨ id = 0 ∨ apiKey = []) := by
      rintro (h | h | h)
      · exact hurlNe h
      · omega
      · exact hkeyNe h
    have hscheme : _ ↔ isHttpUrl url = true := ofPortainer_ok_iff config.targetReference hlow hkeyNe
    simp only [hurl, hid, hkey, if_neg hassert, Option.some.injEq, forall_const, forall_eq', ← hscheme]
    cases Driver.ofPortainer config.targetReference url id apiKey <;> simp [Except.mapError]

theorem isPortainer_of_ofPortainer {reference url apiKey : Str} {id : Int} {driver : Driver}
    (h : Driver.ofPortainer reference url id apiKey = .ok driver) : isPortainer driver = true := by
  unfold Driver.ofPortainer at h
  split at h
  · cases h
  · split at h
    · cases h
    · split at h
      · cases h
      · obtain rfl := Except.ok.inj h
        rfl

/-- The driver is of the backend. -/
theorem isPortainer_of_buildDriver {driver : Driver} (h : buildDriver config = .ok driver) :
    isPortainer driver = true ↔ config.backend = .portainer := by
  unfold buildDriver at h
  split at h
  · rename_i hbackend
    obtain rfl := Except.ok.inj h
    simp [isPortainer, hbackend]
  · rename_i hbackend
    split at h
    · split at h
      · cases h
      · rename_i url endpointId apiKey _ _ _ _
        cases hbuilt : Driver.ofPortainer config.targetReference url endpointId apiKey with
        | error e =>
          rw [hbuilt] at h
          cases h
        | ok built =>
          rw [hbuilt] at h
          obtain rfl := Except.ok.inj h
          simp only [isPortainer_of_ofPortainer hbuilt, hbackend]
    · cases h

/-- There is a sink for each pair. -/
theorem map_target_sinks (h : Read environ config) :
    (mirarunSinks config ++ adminSinks config).map Sink.target = pairs environ := by
  unfold mirarunSinks adminSinks pairs pair
  rw [← h.mirarunUrl, ← h.mirarunToken, ← h.adminUrl, ← h.adminToken, List.map_append]
  congr 1
  · cases config.mirarunReportUrl <;> cases config.mirarunReportToken <;> rfl
  · cases config.adminCollectorUrl <;> cases config.adminCollectorToken <;> rfl

theorem pairs_ne_nil [Python] [Digits] (h : WellConfigured environ) : pairs environ ≠ [] := by
  have hpair (kind : SinkKind) {url token : Option Str} (hset : url = none ↔ token = none)
      (hurl : url ≠ none) : pair kind url token ≠ [] := by
    cases url with
    | none => exact absurd rfl hurl
    | some url =>
      cases token with
      | none => cases hset.mpr rfl
      | some token => exact List.cons_ne_nil _ _
  intro hnil
  obtain ⟨hmirarun, hadmin⟩ := List.append_eq_nil_iff.mp hnil
  cases h.sink with
  | inl hurl => exact hpair .mirarun h.mirarun hurl hmirarun
  | inr hurl => exact hpair .admin h.admin hurl hadmin

/-- With a driver there is a runner, and it is as configured. -/
theorem exists_process [Python] [Digits] (hwell : WellConfigured environ) (hread : Read environ config)
    {driver : Driver} (hdriver : buildDriver config = .ok driver) :
    ∃ process, buildRunner config = .ok process ∧ AsConfigured environ process := by
  have htargets := map_target_sinks hread
  have hne : mirarunSinks config ++ adminSinks config ≠ [] := by
    intro hnil
    rw [hnil] at htargets
    exact pairs_ne_nil hwell htargets.symm
  refine ⟨_, bind_ok_iff.mpr ⟨driver, hdriver, dif_neg hne⟩, hne, htargets, ?_⟩
  rw [isPortainer_of_buildDriver hdriver, hread.backend]
  cases config.backend <;> simp [Backend.name]

theorem exists_driver {process : DriverProcess} (h : buildRunner config = .ok process) :
    ∃ driver, buildDriver config = .ok driver := by
  obtain ⟨driver, hdriver, -⟩ := bind_ok_iff.mp h
  exact ⟨driver, hdriver⟩

/-- The process starts as its environment says, or refuses it, just where an environment that
is accepted for the portainer backend has a URL with a scheme. -/
theorem starts_iff [Python] [Digits] (hostname : Str) (environ : Dict Str Str) :
    Starts hostname environ ↔
      (WellConfigured environ → getOr environ "BACKEND" (lit "docker") = lit "portainer" →
        ∀ url, getVar environ "PORTAINER_URL" none = some url → isHttpUrl url = true) := by
  have hname {config : DriverProcessConfig} (hread : Read environ config) :
      getOr environ "BACKEND" (lit "docker") = lit "portainer" ↔ config.backend = .portainer := by
    rw [hread.backend]
    cases config.backend <;> simp [Backend.name]
  constructor
  · rintro (⟨m, hrefused, -⟩ | ⟨config, process, hconfig, hbuilt, -, -⟩) hwell hbackend
    · obtain ⟨config, hconfig⟩ := exists_config hwell hostname
      rw [hrefused] at hconfig
      cases hconfig
    · obtain ⟨-, hread⟩ := fromEnviron_ok hconfig
      exact (buildDriver_ok_iff hread).mp (exists_driver hbuilt) ((hname hread).mp hbackend)
  · intro hscheme
    cases hconfig : fromEnviron environ hostname with
    | error e =>
      obtain ⟨m, rfl⟩ := refusing_fromEnviron hostname e hconfig
      exact .inl ⟨m, hconfig, by simp only [main, hconfig]⟩
    | ok config =>
      obtain ⟨hwell, hread⟩ := fromEnviron_ok hconfig
      obtain ⟨driver, hdriver⟩ := (buildDriver_ok_iff hread).mpr fun hbackend =>
        hscheme hwell ((hname hread).mpr hbackend)
      obtain ⟨process, hbuilt, hconfigured⟩ := exists_process hwell hread hdriver
      exact .inr ⟨config, process, hconfig, hbuilt, by simp only [main, hconfig, hbuilt], hconfigured⟩

end Build

/-- A well-configured environment but for the scheme of Portainer's URL. -/
def schemeless : Dict Str Str := Dict.ofList [
  (envPrefix ++ lit "TARGET_REFERENCE", lit "vps1"),
  (envPrefix ++ lit "ADMIN_COLLECTOR_URL", lit "https://admin.example/ingest"),
  (envPrefix ++ lit "ADMIN_COLLECTOR_TOKEN", lit "token"),
  (envPrefix ++ lit "BACKEND", lit "portainer"),
  (envPrefix ++ lit "PORTAINER_URL", lit "portainer.internal"),
  (envPrefix ++ lit "PORTAINER_ENDPOINT_ID", lit "2"),
  (envPrefix ++ lit "PORTAINER_API_KEY", lit "ptr_token")]

/-- Its configuration. -/
def schemelessConfig : DriverProcessConfig where
  targetReference := lit "vps1"
  backend := .portainer
  dockerEndpoint := lit "unix:///var/run/docker.sock"
  portainerUrl := some (lit "portainer.internal")
  portainerEndpointId := some 2
  portainerApiKey := some (lit "ptr_token")
  intervalSeconds := 60
  postmortemTail := 50
  mirarunReportUrl := none
  mirarunReportToken := none
  adminCollectorUrl := some (lit "https://admin.example/ingest")
  adminCollectorToken := some (lit "token")
  nodeId := lit "vps1"
  nodeHost := lit "vps1"
  nodeEnv := none
  hostMetricsEnabled := true
  procPath := lit "/proc"
  diskPaths := [(lit "/", lit "/")]

theorem fromEnviron_schemeless :
    @fromEnviron schemeless Python.ascii Digits.ascii (lit "vps1") = .ok schemelessConfig := by
  decide +kernel

theorem buildDriver_schemeless : buildDriver schemelessConfig =
    .error (.valueError (lit "portainer_url must be an http(s) URL")) := by
  decide +kernel

/-- It is accepted, and then the constructor of the driver raises. -/
theorem not_starts_schemeless :
    ¬ @Starts Python.ascii Digits.ascii (lit "vps1") schemeless ∧
      @main Python.ascii Digits.ascii (lit "vps1") schemeless =
        .raised (.valueError (lit "portainer_url must be an http(s) URL")) := by
  have hbuild : buildRunner schemelessConfig =
      .error (.valueError (lit "portainer_url must be an http(s) URL")) := by
    rw [buildRunner, buildDriver_schemeless]
    rfl
  constructor
  · rintro (⟨m, hrefused, -⟩ | ⟨config, process, hconfig, hbuilt, -, -⟩)
    · rw [fromEnviron_schemeless] at hrefused
      cases hrefused
    · rw [fromEnviron_schemeless] at hconfig
      cases hconfig
      rw [hbuild] at hbuilt
      cases hbuilt
  · simp only [main, fromEnviron_schemeless, hbuild]

end MiraDriver.Process
