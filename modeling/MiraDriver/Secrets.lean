import MiraDriver.Lockstep
import MiraDriver.Wire

/-!
# The credentials of the process

Of two environments that differ in credentials only, all that is sent is the same, but for the
headers that the credentials are for.
-/
namespace MiraDriver.Secrets

open MiraDriver.Text MiraDriver.Mapping MiraDriver.Base MiraDriver.Program MiraDriver.Document
  MiraDriver.Numerals MiraDriver.Http MiraDriver.Runner MiraDriver.Drivers MiraDriver.Sinks
  MiraDriver.Admin MiraDriver.Config MiraDriver.Process MiraDriver.Schedule MiraDriver.Wire

/-- The variables that have a credential each. -/
def secrets : List String := ["PORTAINER_API_KEY", "MIRARUN_REPORT_TOKEN", "ADMIN_COLLECTOR_TOKEN"]

/-- The environments differ in credentials only, and have the same ones. -/
structure DifferInSecrets (e f : Dict Str Str) : Prop where
  others : ∀ key, (∀ name ∈ secrets, key ≠ envPrefix ++ lit name) → e.get? key = f.get? key
  given : ∀ name ∈ secrets, (getVar e name none).isSome = (getVar f name none).isSome

/-! ## What is left without the credentials -/

/-- In place of any credential. -/
def veil (_ : Str) : Str := ['*']

def veilHeader (header : Str × Str) : Str × Str :=
  if header.1 = lit "X-API-Key" ∨ header.1 = lit "Authorization" then (header.1, veil header.2) else header

/-- What is sent, without the credential. -/
def veilCall : WireCall → WireCall
  | .request sent => .request { sent with headers := sent.headers.map veilHeader }
  | .post post => .post { post with headers := post.headers.map veilHeader }
  | c => c

def veilConfig (config : DriverProcessConfig) : DriverProcessConfig :=
  { config with
    portainerApiKey := config.portainerApiKey.map veil
    mirarunReportToken := config.mirarunReportToken.map veil
    adminCollectorToken := config.adminCollectorToken.map veil }

def veilDriver : Driver → Driver
  | .docker reference endpoint => .docker reference endpoint
  | .portainer reference endpoint apiKey => .portainer reference endpoint (veil apiKey)

def veilSink : Process.Sink → Process.Sink
  | .mirarun sink => .mirarun { sink with token := veil sink.token }
  | .admin sink => .admin { sink with token := veil sink.token }

def veilRunner (r : DriverRunner Process.Sink) : DriverRunner Process.Sink :=
  { r with sinks := r.sinks.map veilSink, nonempty := by simpa using r.nonempty }

def veilProcess (process : DriverProcess) : DriverProcess :=
  { process with driver := veilDriver process.driver, runner := veilRunner process.runner }

def veilStartup : Startup → Startup
  | .polling process => .polling (veilProcess process)
  | startup => startup

def veilEnd : ProcessEnd Process.Sink → ProcessEnd Process.Sink
  | .going r => .going (veilRunner r)
  | x => x

/-! ## The configuration -/

section Start

variable {e f : Dict Str Str}

theorem DifferInSecrets.getVar_eq (h : DifferInSecrets e f) {name : String}
    (hname : name ∉ secrets) (default : Option Str) :
    getVar e name default = getVar f name default := by
  have hkey : e.get? (envPrefix ++ lit name) = f.get? (envPrefix ++ lit name) := by
    apply h.others
    intro secret hsecret heq
    exact hname (lit_inj.mp (List.append_cancel_left heq) ▸ hsecret)
  rw [getVar, getVar, hkey]

theorem map_veil_eq {x y : Option Str} (h : x.isSome = y.isSome) : x.map veil = y.map veil := by
  cases x <;> cases y <;> simp_all [veil]

theorem requirePair_eq {url x y : Option Str} {name : String} (h : x.isSome = y.isSome) :
    requirePair url x name = requirePair url y name := by
  cases x <;> cases y <;> simp_all [requirePair]

theorem portainerEndpoint_eq [Python] [Digits] {backend : Backend} {url endpoint x y : Option Str}
    (h : x.isSome = y.isSome) :
    portainerEndpoint backend url endpoint x = portainerEndpoint backend url endpoint y := by
  cases backend with
  | docker => rfl
  | portainer =>
    cases x <;> cases y <;> cases h <;> cases url <;> cases endpoint <;> rfl

theorem map_bind_congr {ε α β γ : Type} {x : Except ε α} {g g' : α → Except ε β} {v : β → γ}
    (h : ∀ a, (g a).map v = (g' a).map v) : (x >>= g).map v = (x >>= g').map v := by
  cases x with
  | ok a => exact h a
  | error e => rfl

theorem DifferInSecrets.fromEnviron [Python] [Digits] (h : DifferInSecrets e f) (hostname : Str) :
    (fromEnviron e hostname).map veilConfig = (fromEnviron f hostname).map veilConfig := by
  have hapiKey := h.given "PORTAINER_API_KEY" (by simp [secrets])
  have hmirarun := h.given "MIRARUN_REPORT_TOKEN" (by simp [secrets])
  have hadmin := h.given "ADMIN_COLLECTOR_TOKEN" (by simp [secrets])
  unfold Config.fromEnviron targetReference intervalSeconds hostMetricsEnabled backendOf getOr
  simp (disch := simp [secrets]) only [h.getVar_eq]
  simp only [requirePair_eq hmirarun, requirePair_eq hadmin, portainerEndpoint_eq hapiKey]
  refine map_bind_congr fun reference => map_bind_congr fun interval => map_bind_congr fun tail =>
    map_bind_congr fun _ => map_bind_congr fun _ => map_bind_congr fun _ => map_bind_congr fun enabled =>
    map_bind_congr fun backend => map_bind_congr fun endpointId => map_bind_congr fun diskPaths => ?_
  simp only [Except.map, veilConfig, pure, Except.pure, map_veil_eq hapiKey, map_veil_eq hmirarun, map_veil_eq hadmin]

end Start

/-! ## The process -/

theorem veil_buildDriver {config : DriverProcessConfig}
    (hkey : config.backend = .portainer → config.portainerApiKey ≠ some []) :
    (buildDriver config).map veilDriver = buildDriver (veilConfig config) := by
  unfold buildDriver veilConfig
  dsimp only
  cases hbackend : config.backend with
  | docker => rfl
  | portainer =>
    have hkey := hkey hbackend
    cases hapiKey : config.portainerApiKey with
    | none => cases config.portainerUrl <;> cases config.portainerEndpointId <;> rfl
    | some apiKey =>
      have hne : apiKey ≠ [] := fun hnil => hkey (hnil ▸ hapiKey)
      cases config.portainerUrl with
      | none => rfl
      | some url =>
        cases config.portainerEndpointId with
        | none => rfl
        | some id =>
          simp only [Option.map_some, hne, veil, List.cons_ne_nil, or_false, Driver.ofPortainer, if_false]
          split
          · rfl
          · split
            · rfl
            · split
              · rfl
              · rfl

theorem veil_sinks (config : DriverProcessConfig) :
    (mirarunSinks config ++ adminSinks config).map veilSink =
      mirarunSinks (veilConfig config) ++ adminSinks (veilConfig config) := by
  rw [List.map_append]
  congr 1
  · unfold mirarunSinks veilConfig
    cases config.mirarunReportUrl <;> cases config.mirarunReportToken <;> rfl
  · unfold adminSinks veilConfig
    cases config.adminCollectorUrl <;> cases config.adminCollectorToken <;> rfl

theorem veil_create (driver : Driver) (sinks : List Process.Sink) (reference : Str)
    (hostMetrics : Option HostMetricsCollector) (interval : Rat) (postmortemTail : Int) :
    (DriverProcess.create driver sinks reference hostMetrics interval postmortemTail).map veilProcess =
      DriverProcess.create (veilDriver driver) (sinks.map veilSink) reference hostMetrics interval postmortemTail := by
  unfold DriverProcess.create
  by_cases hnil : sinks = []
  · subst hnil
    rfl
  · have hmap : sinks.map veilSink ≠ [] := by simpa using hnil
    rw [dif_neg hnil, dif_neg hmap]
    rfl

/-- What is built without the credentials is what is built with them, but for them. -/
theorem veil_buildRunner {config : DriverProcessConfig}
    (hkey : config.backend = .portainer → config.portainerApiKey ≠ some []) :
    (buildRunner config).map veilProcess = buildRunner (veilConfig config) := by
  have hdriver := veil_buildDriver hkey
  have hsinks := veil_sinks config
  unfold buildRunner
  cases hbuilt : buildDriver config with
  | error e =>
    rw [← hdriver, hbuilt]
    rfl
  | ok driver =>
    rw [← hdriver, hbuilt, ← hsinks]
    apply veil_create

/-- The configuration alone says how the process starts, but for the credentials. -/
theorem veil_main_of_ok [Python] [Digits] {hostname : Str} {environ : Dict Str Str}
    {config : DriverProcessConfig} (h : fromEnviron environ hostname = .ok config) :
    veilStartup (Process.main hostname environ) =
      match buildRunner (veilConfig config) with
      | .error e => .raised e
      | .ok process => .polling process := by
  have hkey : config.backend = .portainer → config.portainerApiKey ≠ some [] := by
    intro hbackend hnil
    obtain ⟨url, id, apiKey, -, -, hapiKey, -, -, hne⟩ := (fromEnviron_ok h).2.portainer hbackend
    exact hne (Option.some.inj (hapiKey.symm.trans hnil))
  rw [← veil_buildRunner hkey]
  unfold Process.main
  simp only [h]
  cases buildRunner config <;> rfl

theorem veil_main [Python] [Digits] {e f : Dict Str Str} (h : DifferInSecrets e f) (hostname : Str) :
    veilStartup (Process.main hostname e) = veilStartup (Process.main hostname f) := by
  have hconfig := h.fromEnviron hostname
  cases he : fromEnviron e hostname with
  | error e' =>
    cases hf : fromEnviron f hostname with
    | ok config =>
      rw [he, hf] at hconfig
      cases hconfig
    | error f' =>
      rw [he, hf] at hconfig
      obtain rfl := Except.error.inj hconfig
      simp only [Process.main, he, hf]
  | ok config =>
    cases hf : fromEnviron f hostname with
    | error f' =>
      rw [he, hf] at hconfig
      cases hconfig
    | ok config' =>
      rw [he, hf] at hconfig
      have hveil : veilConfig config = veilConfig config' := Except.ok.inj hconfig
      rw [veil_main_of_ok he, veil_main_of_ok hf, hveil]

/-! ## In step -/

/-- What is called, without the credentials. -/
def veilCycle : Runner.Call Process.Sink → Runner.Call Process.Sink
  | .publish sink snapshot => .publish (veilSink sink) snapshot
  | c => c

def veilLoop : (Loop Process.Sink).Call → (Loop Process.Sink).Call := Sum.map veilCycle id

def veilPost (post : Post) : Post := { post with headers := post.headers.map veilHeader }

theorem lockstep_postJson (url token token' : Str) (content : List UInt8) :
    Prog.Lockstep (.through veilPost) Eq (postJson url token content) (postJson url token' content) := by
  refine Prog.lockstep_bind (Prog.lockstep_ask (I := posts) (J := posts) (R := fun (x y : PostReply) => x = y)
    ?_ ?_) ?_
  · simp [Coupling.through, veilPost, veilHeader, veil]
  · exact fun x y hxy => eq_of_heq hxy
  · rintro (x : PostReply) _ rfl
    cases x <;> apply Prog.lockstep_refl

theorem lockstep_publish [FloatRepr] {s s' : Process.Sink} (h : veilSink s = veilSink s') (snapshot : DriverSnapshot) :
    Prog.Lockstep (.through veilPost) Eq (Wire.publish snapshot s) (Wire.publish snapshot s') := by
  cases s with
  | mirarun sink =>
    cases s' with
    | admin sink' => cases h
    | mirarun sink' =>
      obtain ⟨url, token⟩ := sink
      obtain ⟨url', token'⟩ := sink'
      simp only [veilSink, Process.Sink.mirarun.injEq, MirarunReportSink.mk.injEq] at h
      obtain ⟨rfl, -⟩ := h
      unfold Wire.publish MirarunReportSink.publish
      dsimp only
      split
      · apply Prog.lockstep_refl
      · split
        · apply Prog.lockstep_refl
        · refine Prog.lockstep_bind (lockstep_postJson _ _ _ _) ?_
          rintro x _ rfl
          apply Prog.lockstep_refl
  | admin sink =>
    cases s' with
    | mirarun sink' => cases h
    | admin sink' =>
      obtain ⟨url, token, nodeId, host, environment⟩ := sink
      obtain ⟨url', token', nodeId', host', environment'⟩ := sink'
      simp only [veilSink, Process.Sink.admin.injEq, AdminCollectorSink.mk.injEq] at h
      obtain ⟨rfl, -, rfl, rfl, rfl⟩ := h
      refine Prog.lockstep_bind (lockstep_postJson _ _ _ _) ?_
      rintro x _ rfl
      apply Prog.lockstep_refl

/-- The calls of a cycle. -/
abbrev cycleView : Coupling (Env Process.Sink) (Env Process.Sink) :=
  .through fun c => veilLoop (.inl c)

/-- What is read does not depend on the sinks. -/
theorem poll_eq {r r' : DriverRunner Process.Sink} (h : veilRunner r = veilRunner r') :
    poll r = poll r' ∧ collectHost r = collectHost r' := by
  obtain ⟨sinks, hne, reference, hostMetrics, tail, statsSupported, revisionSupported, baselines⟩ := r
  obtain ⟨sinks', hne', reference', hostMetrics', tail', statsSupported', revisionSupported', baselines'⟩ := r'
  simp only [veilRunner, DriverRunner.mk.injEq] at h
  obtain ⟨-, rfl, rfl, rfl, rfl, rfl, rfl⟩ := h
  refine ⟨?_, rfl⟩
  have hall (collectedAt : Str) (progress : Progress) (resources : List DriverResource) :
      observeAll ⟨sinks, hne, reference, hostMetrics, tail, statsSupported, revisionSupported, baselines⟩
          collectedAt progress resources =
        observeAll ⟨sinks', hne', reference, hostMetrics, tail, statsSupported, revisionSupported, baselines⟩
          collectedAt progress resources := by
    induction resources generalizing progress with
    | nil => rfl
    | cons resource rest ih =>
      refine congrArg (Prog.bind _) ?_
      funext progress
      exact ih progress
  simp only [poll, hall]

theorem lockstep_collect {r r' : DriverRunner Process.Sink} (h : veilRunner r = veilRunner r') :
    Prog.Lockstep cycleView (fun x y => x.1 = y.1 ∧ veilRunner x.2 = veilRunner y.2) (collect r) (collect r') := by
  obtain ⟨hpoll, hhost⟩ := poll_eq h
  have hreference : (veilRunner r).reference = (veilRunner r').reference := by rw [h]
  change r.reference = r'.reference at hreference
  unfold collect
  rw [hpoll, hhost]
  refine Prog.lockstep_bind (Prog.lockstep_refl _ _) ?_
  rintro polled _ rfl
  cases polled with
  | error e => exact .ret ⟨rfl, h⟩
  | ok gathered =>
    refine Prog.lockstep_bind (Prog.lockstep_refl _ _) ?_
    rintro host _ rfl
    exact .ret ⟨by rw [hreference], congrArg (fun r => { r with baselines := gathered.2.newBaselines }) h⟩

theorem lockstep_publishAll (snapshot : DriverSnapshot) {sinks sinks' : List Process.Sink}
    (h : sinks.map veilSink = sinks'.map veilSink) :
    Prog.Lockstep cycleView Eq (publishAll snapshot sinks) (publishAll snapshot sinks') := by
  induction sinks generalizing sinks' with
  | nil =>
    obtain rfl := List.map_eq_nil_iff.mp h.symm
    apply Prog.lockstep_refl
  | cons s sinks ih =>
    cases sinks' with
    | nil => cases h
    | cons s' sinks' =>
      obtain ⟨hsink, hrest⟩ := List.cons.inj h
      have hcall : cycleView.call (.publish s snapshot) (.publish s' snapshot) :=
        congrArg (fun sink => Sum.inl (Runner.Call.publish sink snapshot)) hsink
      refine .call hcall ?_
      intro x y hxy
      obtain rfl := eq_of_heq hxy
      cases x with
      | ok u => exact ih hrest
      | error e =>
        change Prog.Lockstep cycleView Eq (if e.isException = true then publishAll snapshot sinks else throw e)
          (if e.isException = true then publishAll snapshot sinks' else throw e)
        split
        · exact ih hrest
        · exact .raise e

theorem lockstep_runOnce {r r' : DriverRunner Process.Sink} (h : veilRunner r = veilRunner r') :
    Prog.Lockstep cycleView (fun x y => x.1 = y.1 ∧ veilRunner x.2 = veilRunner y.2) (runOnce r) (runOnce r') := by
  refine Prog.lockstep_bind (lockstep_collect h) ?_
  rintro ⟨collected, r⟩ ⟨_, r'⟩ ⟨rfl, hr⟩
  cases collected with
  | error e => exact .ret ⟨rfl, hr⟩
  | ok snapshot =>
    have hsinks : r.sinks.map veilSink = r'.sinks.map veilSink := congrArg DriverRunner.sinks hr
    refine Prog.lockstep_bind (Prog.lockstep_attempt (lockstep_publishAll snapshot hsinks)) ?_
    intro x y hxy
    obtain rfl := outcomes_eq.mp hxy
    exact .ret ⟨rfl, hr⟩

/-- The calls of the loop. -/
abbrev loopView : Coupling (Loop Process.Sink) (Loop Process.Sink) := .through veilLoop

theorem lockstep_timed_bind {α β : Type} {R : α → β → Prop} {ε : Type} (c : TimerCall)
    {f : TimerReply c → Prog (Loop Process.Sink) ε α} {g : TimerReply c → Prog (Loop Process.Sink) ε β}
    (h : ∀ x, Prog.Lockstep loopView R (f x) (g x)) :
    Prog.Lockstep loopView R (timed c >>= f) (timed c >>= g) := by
  refine .call rfl ?_
  intro x y hxy
  obtain rfl := eq_of_heq hxy
  exact h x

theorem lockstep_finish (interval started : Rat) {r r' : DriverRunner Process.Sink}
    (h : veilRunner r = veilRunner r') :
    Prog.Lockstep loopView (fun x y => x.map veilRunner = y.map veilRunner) (finish interval started r)
      (finish interval started r') := by
  apply lockstep_timed_bind
  intro ended
  apply lockstep_timed_bind
  intro woken
  cases woken with
  | some _ => exact .ret (congrArg some h)
  | none => exact .raise _

theorem lockstep_pass (interval : Rat) {r r' : DriverRunner Process.Sink} (h : veilRunner r = veilRunner r') :
    Prog.Lockstep loopView (fun x y => x.map veilRunner = y.map veilRunner) (pass interval r)
      (pass interval r') := by
  apply lockstep_timed_bind
  intro set
  cases set with
  | true => exact .ret rfl
  | false =>
    apply lockstep_timed_bind
    intro started
    have hcycle : Prog.Lockstep loopView _ (runOnce r).inl (runOnce r').inl := Prog.lockstep_inl (lockstep_runOnce h)
    refine Prog.lockstep_bind (Prog.lockstep_attempt hcycle) ?_
    rintro _ _ (⟨hout, hr⟩ | e)
    · rename_i x y
      obtain ⟨outcome, r⟩ := x
      obtain ⟨_, r'⟩ := y
      obtain rfl := hout
      cases outcome with
      | ok snapshot => exact lockstep_finish interval started hr
      | error e =>
        dsimp only
        cases he : e.isDriverError with
        | true => exact lockstep_finish interval started hr
        | false => exact .raise e
    · exact nomatch e

theorem lockstep_runForever (interval : Rat) (passes : Nat) {r r' : DriverRunner Process.Sink}
    (h : veilRunner r = veilRunner r') :
    Prog.Lockstep loopView (fun x y => x.map veilRunner = y.map veilRunner) (runForever interval passes r)
      (runForever interval passes r') := by
  induction passes generalizing r r' with
  | zero => exact .ret (congrArg some h)
  | succ n ih =>
    refine Prog.lockstep_bind (lockstep_pass interval h) ?_
    intro x y hxy
    cases x with
    | none =>
      cases y with
      | none => exact .ret rfl
      | some r' => cases hxy
    | some r =>
      cases y with
      | none => cases hxy
      | some r' => exact ih (Option.some.inj hxy)

/-! ## On the wire -/

/-- What is sent. -/
abbrev wireView : Coupling wire wire := .through veilCall

theorem reference_veilDriver (d : Driver) : (veilDriver d).reference = d.reference := by
  cases d <;> rfl

theorem veil_stream {d d' : Driver} (h : veilDriver d = veilDriver d') (q : Request) :
    veilCall (.request (d.client.stream q)) = veilCall (.request (d'.client.stream q)) := by
  cases d with
  | docker reference endpoint =>
    cases d' with
    | docker reference' endpoint' =>
      cases h
      rfl
    | portainer reference' endpoint' apiKey' => cases h
  | portainer reference endpoint apiKey =>
    cases d' with
    | docker reference' endpoint' => cases h
    | portainer reference' endpoint' apiKey' =>
      simp only [veilDriver, Driver.portainer.injEq] at h
      obtain ⟨rfl, rfl, -⟩ := h
      simp [veilCall, Client.stream, Driver.client, veilHeader, veil]

theorem eq_of_linked {ε α : Type} {x y : Except ε α × Machine} {m : Machine}
    (h : Outcomes Eq x.1 y.1 ∧ x.2 = m ∧ y.2 = m) : x = y :=
  Prod.ext (outcomes_eq.mp h.1) (h.2.1.trans h.2.2.symm)

/-- An operation of two drivers that differ in their credential. -/
theorem lockstep_overDriver {d d' : Driver} (h : veilDriver d = veilDriver d') {α : Type}
    (p : Prog http Exn α) (m : Machine) :
    Prog.Lockstep wireView Eq (overDriver d p m) (overDriver d' p m) := by
  refine (Prog.lockstep_link_relay (K := .through id) ?_ ?_ (Prog.lockstep_refl id p) m).mono
    fun _ _ hxy => eq_of_linked hxy
  · rintro c _ rfl
    exact veil_stream h c
  · intro c d x y _ hxy
    exact hxy

theorem lockstep_overNetwork {α : Type} {p q : Prog posts PublishError α} (m : Machine)
    (h : Prog.Lockstep (.through veilPost) Eq p q) :
    Prog.Lockstep wireView Eq (overNetwork p m) (overNetwork q m) := by
  refine (Prog.lockstep_link_relay (K := .through veilPost) ?_ ?_ h m).mono fun _ _ hxy => eq_of_linked hxy
  · intro post post' hpost
    exact congrArg WireCall.post hpost
  · intro c d x y _ hxy
    exact hxy

theorem veilCycle_cases {c c' : Runner.Call Process.Sink} (h : veilCycle c = veilCycle c') :
    c = c' ∨ ∃ s s' snapshot, c = .publish s snapshot ∧ c' = .publish s' snapshot ∧ veilSink s = veilSink s' := by
  unfold veilCycle at h
  split at h
  · split at h
    · obtain ⟨hsink, rfl⟩ := Runner.Call.publish.inj h
      exact .inr ⟨_, _, _, rfl, rfl, hsink⟩
    · rename_i hother
      exact absurd h.symm (hother _ _)
  · rename_i hother
    split at h
    · exact absurd h (hother _ _)
    · exact .inl h

/-- The calls that look the same are the same, or of one sink but for its credential. -/
theorem veilLoop_cases {c c' : (Loop Process.Sink).Call} (h : veilLoop c = veilLoop c') :
    c = c' ∨ ∃ s s' snapshot, c = .inl (.publish s snapshot) ∧ c' = .inl (.publish s' snapshot) ∧
      veilSink s = veilSink s' := by
  rcases c with c | c <;> rcases c' with c' | c'
  · rcases veilCycle_cases (Sum.inl.inj h) with rfl | ⟨s, s', snapshot, rfl, rfl, hsink⟩
    · exact .inl rfl
    · exact .inr ⟨s, s', snapshot, rfl, rfl, hsink⟩
  · cases h
  · cases h
  · exact .inl (congrArg Sum.inr (Sum.inr.inj h))

section Python

variable [Python] [Loads] [Digits] [FloatRepr]

theorem lockstep_answer {d d' : Driver} (h : veilDriver d = veilDriver d') (m : Machine)
    {c c' : (Loop Process.Sink).Call} (hc : loopView.call c c') :
    Prog.Lockstep wireView (fun x y => loopView.reply ⟨c, x.1⟩ ⟨c', y.1⟩ ∧ x.2 = y.2) (answer d m c)
      (answer d' m c') := by
  have hover {α : Type} (p : Str → Prog http Exn α) :
      Prog.Lockstep wireView Eq (overDriver d (p d.reference) m) (overDriver d' (p d'.reference) m) := by
    rw [← reference_veilDriver d, h, reference_veilDriver d']
    exact lockstep_overDriver h _ m
  rcases veilLoop_cases hc with rfl | ⟨s, s', snapshot, rfl, rfl, hsink⟩
  · have hsame : Prog.Lockstep wireView Eq (answer d m c) (answer d' m c) := by
      rcases c with c | c
      · cases c with
        | now => apply Prog.lockstep_refl
        | collect => apply Prog.lockstep_refl
        | publish sink snapshot => apply Prog.lockstep_refl
        | query q => exact hover fun reference => Docker.query reference q
        | describe uri => exact hover fun reference => Docker.describe reference uri
        | stats uri => exact hover fun reference => Docker.stats reference uri
        | revision uri => exact hover fun reference => Docker.revision reference uri
        | logs uri tail => exact hover fun reference => Docker.logs reference uri tail
      · apply Prog.lockstep_refl
    refine hsame.mono ?_
    rintro x _ rfl
    exact ⟨HEq.rfl, rfl⟩
  · refine Prog.lockstep_bind (lockstep_overNetwork m (lockstep_publish hsink snapshot)) ?_
    rintro x _ rfl
    exact .ret ⟨HEq.rfl, rfl⟩

theorem lockstep_main {e f : Dict Str Str} (h : DifferInSecrets e f) (passes : Nat) (hostname : Str) :
    Prog.Lockstep wireView (fun x y => veilEnd x = veilEnd y) (Wire.main passes hostname e)
      (Wire.main passes hostname f) := by
  have hstart := veil_main h hostname
  unfold Wire.main
  generalize Process.main hostname e = a at hstart ⊢
  generalize Process.main hostname f = b at hstart ⊢
  cases a with
  | exit status message =>
    cases b with
    | exit status' message' =>
      cases hstart
      exact .ret rfl
    | raised e' => cases hstart
    | polling process' => cases hstart
  | raised e =>
    cases b with
    | exit status message => cases hstart
    | raised e' =>
      cases hstart
      exact .ret rfl
    | polling process' => cases hstart
  | polling process =>
    cases b with
    | exit status message => cases hstart
    | raised e' => cases hstart
    | polling process' =>
      obtain ⟨driver, runner, hostMetrics, interval⟩ := process
      obtain ⟨driver', runner', hostMetrics', interval'⟩ := process'
      simp only [veilStartup, veilProcess, Startup.polling.injEq, DriverProcess.mk.injEq] at hstart
      obtain ⟨hdriver, hrunner, rfl, rfl⟩ := hstart
      have hstep (m m' : Machine) (c c' : (Loop Process.Sink).Call) (hm : m = m') (hc : loopView.call c c') :
          Prog.Lockstep wireView (fun x y => loopView.reply ⟨c, x.1⟩ ⟨c', y.1⟩ ∧ x.2 = y.2) (answer driver m c)
            (answer driver' m' c') := by
        subst hm
        exact lockstep_answer hdriver m hc
      refine Prog.lockstep_bind (Prog.lockstep_link hstep (lockstep_runForever interval passes hrunner)
        rfl) ?_
      rintro ⟨x, m⟩ ⟨y, m'⟩ ⟨hxy, -⟩
      refine .ret ?_
      cases hxy with
      | error e => rfl
      | @ok a b hab =>
        cases a with
        | none =>
          cases b with
          | none => rfl
          | some r' => cases hab
        | some r =>
          cases b with
          | none => cases hab
          | some r' => exact congrArg ProcessEnd.going (Option.some.inj hab)

/-- Nothing else that is sent depends on a credential, as long as what is answered does not. Nor
does what the process says when it refuses its environment. -/
theorem main_conceals {e f : Dict Str Str} (h : DifferInSecrets e f) {passes : Nat} {hostname : Str}
    {t u : List (Exchange wire)} {x y : ProcessEnd Process.Sink}
    (ht : (Wire.main passes hostname e).Exec t (.ok x)) (hu : (Wire.main passes hostname f).Exec u (.ok y))
    (hanswered : Answered wireView t u) :
    t.map (fun z => veilCall z.1) = u.map (fun z => veilCall z.1) ∧ veilEnd x = veilEnd y ∧
      veilStartup (Process.main hostname e) = veilStartup (Process.main hostname f) := by
  obtain ⟨hcalls, hout⟩ := (lockstep_main h passes hostname).exec ht hu hanswered
  refine ⟨map_eq_of_forall₂ hcalls, ?_, veil_main h hostname⟩
  cases hout with
  | ok hxy => exact hxy

end Python

/-! ## A process with all of the credentials -/

def credentialed (apiKey reportToken collectorToken : String) : Dict Str Str := Dict.ofList [
  (envPrefix ++ lit "TARGET_REFERENCE", lit "vps1"),
  (envPrefix ++ lit "BACKEND", lit "portainer"),
  (envPrefix ++ lit "PORTAINER_URL", lit "https://portainer.internal"),
  (envPrefix ++ lit "PORTAINER_ENDPOINT_ID", lit "2"),
  (envPrefix ++ lit "PORTAINER_API_KEY", lit apiKey),
  (envPrefix ++ lit "MIRARUN_REPORT_URL", lit "https://mirarun.example/report"),
  (envPrefix ++ lit "MIRARUN_REPORT_TOKEN", lit reportToken),
  (envPrefix ++ lit "ADMIN_COLLECTOR_URL", lit "https://admin.example/ingest"),
  (envPrefix ++ lit "ADMIN_COLLECTOR_TOKEN", lit collectorToken)]

def firstEnviron : Dict Str Str := credentialed "key-1" "report-1" "collector-1"

def secondEnviron : Dict Str Str := credentialed "key-2" "report-2" "collector-2"

theorem differInSecrets_credentialed : DifferInSecrets firstEnviron secondEnviron := by
  constructor
  · intro key hkey
    have hapiKey := (hkey "PORTAINER_API_KEY" (by simp [secrets])).symm
    have hreport := (hkey "MIRARUN_REPORT_TOKEN" (by simp [secrets])).symm
    have hcollector := (hkey "ADMIN_COLLECTOR_TOKEN" (by simp [secrets])).symm
    simp only [firstEnviron, secondEnviron, credentialed, Dict.ofList, List.foldl_cons, List.foldl_nil,
      Dict.get?_set, hapiKey, hreport, hcollector, if_false]
  · decide +kernel

/-- The world before the container is restarted. -/
def still (_ : Unit) (c : WireCall) : WireReply c × Unit := ((home false c).1, ())

/-- One pass. -/
def stillRun (environ : Dict Str Str) : Except Empty (ProcessEnd Process.Sink) × List (Exchange wire) × Unit :=
  (@Wire.main Python.ascii homeLoads Digits.ascii FloatRepr.hundredths 1 (lit "vps1") environ).serve
    (I := wire) still ()

def stillEnd (environ : Dict Str Str) : ProcessEnd Process.Sink :=
  match (stillRun environ).1 with
  | .ok x => x

theorem exec_stillRun (environ : Dict Str Str) :
    (@Wire.main Python.ascii homeLoads Digits.ascii FloatRepr.hundredths 1 (lit "vps1") environ).Exec
      (stillRun environ).2.1 (.ok (stillEnd environ)) := by
  have h := (@Wire.main Python.ascii homeLoads Digits.ascii FloatRepr.hundredths 1 (lit "vps1")
    environ).exec_serve (I := wire) still ()
  unfold stillEnd
  cases hout : (stillRun environ).1 with
  | ok x => exact hout ▸ h
  | error e => cases e

/-- What is answered does not depend on a credential. -/
theorem still_same {c d : WireCall} (h : veilCall c = veilCall d) : HEq (still () c).1 (still () d).1 := by
  cases c with
  | request sent =>
    cases d with
    | request sent' =>
      simp only [veilCall, WireCall.request.injEq, Sent.mk.injEq] at h
      exact heq_of_eq (congrArg (homeDaemon false) h.2.1)
    | _ => cases h
  | post post => cases d <;> first | rfl | cases h
  | host c => cases d <;> cases h; exact HEq.rfl
  | now => cases d <;> cases h; exact HEq.rfl
  | timer c => cases d <;> cases h; exact HEq.rfl

theorem answered_stillRun (e f : Dict Str Str) : Answered wireView (stillRun e).2.1 (stillRun f).2.1 := by
  have hstill (environ : Dict Str Str) : ∀ z ∈ (stillRun environ).2.1, z.2 = (still () z.1).1 :=
    Prog.serve_forall (I := wire) still (fun _ _ => rfl) _ ()
  intro z hz hcall
  obtain ⟨hx, hy⟩ := List.of_mem_zip hz
  have hsame := still_same hcall
  rw [← hstill e _ hx, ← hstill f _ hy] at hsame
  exact hsame

theorem main_conceals_credentialed :
    (sent (stillRun firstEnviron).2.1 = (6, 2, 6) ∧
      (stillRun firstEnviron).2.1.map Sigma.fst ≠ (stillRun secondEnviron).2.1.map Sigma.fst) ∧
    (stillRun firstEnviron).2.1.map (fun z => veilCall z.1) =
        (stillRun secondEnviron).2.1.map (fun z => veilCall z.1) ∧
      veilEnd (stillEnd firstEnviron) = veilEnd (stillEnd secondEnviron) ∧
      veilStartup (@Process.main Python.ascii Digits.ascii (lit "vps1") firstEnviron) =
        veilStartup (@Process.main Python.ascii Digits.ascii (lit "vps1") secondEnviron) :=
  ⟨by decide +kernel, @main_conceals Python.ascii homeLoads Digits.ascii FloatRepr.hundredths _ _
    differInSecrets_credentialed 1 _ _ _ _ _ (exec_stillRun _) (exec_stillRun _) (answered_stillRun _ _)⟩

end MiraDriver.Secrets
