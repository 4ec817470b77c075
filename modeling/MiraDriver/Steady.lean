import MiraDriver.Reporter

/-!
# What a steady daemon holds is what is reported

A daemon that does not change during a cycle answers the same request always the same. Over
such daemons, which may change from one cycle to the next, each cycle succeeds, and reports
the containers of the daemon of the moment, all of them, in order and once.
-/
namespace MiraDriver.Steady

open MiraDriver.Text MiraDriver.Mapping MiraDriver.Base MiraDriver.Uri MiraDriver.Document
  MiraDriver.Identity MiraDriver.Inventory MiraDriver.Inspect MiraDriver.Http MiraDriver.Docker
  MiraDriver.Program MiraDriver.Runner MiraDriver.Cycle MiraDriver.Lifecycle MiraDriver.Failures
  MiraDriver.Reporter

variable {σ : Type}

/-- A daemon, and what there is to be said of its containers. -/
structure Host where
  daemon : Request → Http.Reply
  containers : List (Container × DriverResourceDetails)

def addressFor (reference : Str) (c : Container) : DockerAddress :=
  ⟨reference, c.project, c.service, some c.addressName⟩

section Python

variable [Python] [Loads] (reference : Str)

/-- What a driver in front of a steady daemon replies. The sinks and the collector raise what
they may. -/
def SteadyReply (daemon : Request → Http.Reply) : Exchange (Env σ) → Prop
  | ⟨.query q, reply⟩ => reply = (Docker.query reference q).answer daemon
  | ⟨.describe uri, reply⟩ => reply = (Docker.describe reference uri).answer daemon
  | ⟨.stats uri, reply⟩ => reply = (Docker.stats reference uri).answer daemon
  | ⟨.revision uri, reply⟩ => reply = (Docker.revision reference uri).answer daemon
  | ⟨.logs uri tail, reply⟩ => reply = (Docker.logs reference uri tail).answer daemon
  | x => Contained x

/-- The daemon lists its containers, and its inspect documents say of each what there is to be
said. What else it sends can be parsed or is refused. -/
structure Presents (host : Host) : Prop where
  parses : ∀ q, Parses ⟨q, host.daemon q⟩
  listed : ∃ document, readJson (host.daemon ⟨lit "containers/json", [(lit "all", lit "true")]⟩) =
      .ok document ∧ inventory document = .ok (host.containers.map Prod.fst)
  slashFree : ∀ e ∈ host.containers, e.1.SlashFree
  inspected : ∀ e ∈ host.containers, ∃ document,
    readJson (host.daemon (inspectRequest e.1.addressName)) = .ok document ∧
      describeDocument reference (addressFor reference e.1) document = .ok e.2
  agrees : ∀ e ∈ host.containers, e.2.resource = containerResource reference e.1

variable {reference}

theorem contained_of_steadyReply {daemon : Request → Http.Reply} {x : Exchange (Env σ)}
    (h : SteadyReply reference daemon x) : Contained x := by
  obtain ⟨c, reply⟩ := x
  cases c <;> first | exact h | trivial

/-- A driver in front of a daemon whose bodies parse raises nothing but `DriverError`s. -/
theorem reliable_of_steadyReply {daemon : Request → Http.Reply} (hparses : ∀ q, Parses ⟨q, daemon q⟩)
    {x : Exchange (Env σ)} (h : SteadyReply reference daemon x) : Reliable x := by
  have hsafe {α : Type} {p : Prog http Exn α} (hp : Safe p) : Expected (p.answer daemon) := by
    obtain ⟨t, ht, hsame⟩ := Prog.exec_answer (I := http) daemon p
    refine (hp t _ ht).mpr ?_
    rintro ⟨q, reply⟩ hy
    obtain rfl : reply = daemon q := hsame _ hy
    exact hparses q
  obtain ⟨c, reply⟩ := x
  cases c with
  | query q => exact h ▸ hsafe (safe_query reference q)
  | describe uri => exact h ▸ hsafe (safe_describe reference uri)
  | stats uri => exact h ▸ hsafe (safe_stats reference uri)
  | logs uri tail => exact h ▸ hsafe (safe_logs reference uri tail)
  | revision uri => exact h ▸ hsafe (safe_revision reference uri)
  | now => exact h
  | collect => exact h
  | publish sink snapshot => exact h

/-! ## A cycle in which nothing is refused -/

section Cycle

variable {r : DriverRunner σ} {t : List (Exchange (Env σ))}

omit [Python] [Loads] in
/-- The CPU percentage raises no `DriverError`. -/
theorem ok_of_expected_cpuPercent {previous current : Option DriverContainerStats}
    (h : Expected (cpuPercent previous current)) : ∃ cpu, cpuPercent previous current = .ok cpu := by
  have hcases : (∃ cpu, cpuPercent previous current = .ok cpu) ∨
      cpuPercent previous current = .error .overflowError := by
    unfold cpuPercent
    split
    · split
      · dsimp only
        split
        · exact .inl ⟨_, rfl⟩
        · unfold trueDivide toDouble
          repeat' split
          all_goals first | exact .inl ⟨_, rfl⟩ | exact .inr rfl
      · exact .inl ⟨_, rfl⟩
    · exact .inl ⟨_, rfl⟩
  cases hcases with
  | inl hok => exact hok
  | inr herror => exact absurd (herror ▸ h) not_expected_overflowError

omit [Python] [Loads] in
/-- Where something is sound, it is not ended by an exception. -/
theorem ok_of_tolerates {α : Type} {good : Prop} {x : Except Exn α} (h : Tolerates good x) (hgood : good) :
    ∃ a, x = .ok a := by
  rcases h with ⟨a, ha, -⟩ | ⟨e, -, -, hbad⟩
  · exact ⟨a, ha⟩
  · exact absurd hgood hbad

omit [Python] [Loads] in
theorem ok_of_exec_observeDetails {collectedAt : Str} {p : Progress} {uri : Str}
    {details : DriverResourceDetails} {x : Except Exn Progress}
    (h : (observeDetails r collectedAt p uri details).Exec t x) (hsound : Sound r.baselines t) :
    ∃ q, x = .ok q := by
  obtain ⟨t₁, t, _, rfl, hstats, hrest⟩ := Prog.exec_bind_outcome h
  obtain ⟨hsound₁, hsound⟩ := sound_append.mp hsound
  rcases exec_sampleStats r.baselines hstats with ⟨e, -, -, hunsound⟩ | ⟨stats, rfl, hcpu⟩
  · exact absurd hsound₁ hunsound
  obtain ⟨t₂, t, _, rfl, hrevision, hrest⟩ := Prog.exec_bind_outcome hrest
  obtain ⟨hsound₂, hsound⟩ := sound_append.mp hsound
  obtain ⟨revision, rfl⟩ := ok_of_tolerates (tolerates_sampleRevision hrevision) hsound₂
  obtain ⟨t₃, t, _, rfl, hpercent, hrest⟩ := Prog.exec_bind_outcome hrest
  obtain ⟨rfl, rfl⟩ := (Prog.exec_ofExcept _ _ _).mp hpercent
  obtain ⟨cpu, hok⟩ := ok_of_expected_cpuPercent (hcpu.mp hsound₁)
  rw [hok] at hrest
  obtain ⟨t₄, t₅, _, rfl, hevent, hend⟩ := Prog.exec_bind_outcome hrest
  obtain ⟨event, rfl⟩ := ok_of_tolerates (tolerates_detectEvent hevent)
    (sound_append.mp (sound_append.mp hsound).2).1
  exact ⟨_, hend.2⟩

omit [Python] [Loads] in
/-- The loop goes through, where nothing that is listed is refused. -/
theorem ok_of_exec_observeAll {collectedAt : Str} {p : Progress} {resources : List DriverResource}
    {x : Except Exn Progress} (h : (observeAll r collectedAt p resources).Exec t x)
    (hsound : Sound r.baselines t)
    (hd : ∀ resource ∈ resources, ∀ reply, (⟨.describe resource.uri, reply⟩ : Exchange (Env σ)) ∈ t →
      ∃ details, reply = .ok details) : ∃ q, x = .ok q := by
  induction resources generalizing p t with
  | nil => exact ⟨p, h.2⟩
  | cons resource rest ih =>
    obtain ⟨t₁, t₂, y, rfl, hone, hrest⟩ := Prog.exec_bind_outcome h
    obtain ⟨hsound₁, hsound₂⟩ := sound_append.mp hsound
    obtain ⟨described, u, rfl, hbody⟩ := exec_call_bind.mp hone
    obtain ⟨details, rfl⟩ := hd resource List.mem_cons_self described (by simp)
    rw [sound_cons_iff (by simp [NoStats])] at hsound₁
    obtain ⟨q, rfl⟩ := ok_of_exec_observeDetails hbody hsound₁.2
    exact ih hrest hsound₂ fun resource' hm reply hreply =>
      hd resource' (List.mem_cons_of_mem _ hm) reply (List.mem_append_right _ hreply)

omit [Python] [Loads] in
theorem ok_of_exec_poll {resources : List DriverResource} {x : Except Exn (Str × Progress)}
    (h : (poll r).Exec t x) (hsound : Sound r.baselines t)
    (hq : ∀ reply, (⟨.query (.all .container), reply⟩ : Exchange (Env σ)) ∈ t → reply = .ok resources)
    (hd : ∀ resource ∈ resources, ∀ reply, (⟨.describe resource.uri, reply⟩ : Exchange (Env σ)) ∈ t →
      ∃ details, reply = .ok details) : ∃ q, x = .ok q := by
  obtain ⟨collectedAt, t, rfl, hquery⟩ := exec_call_bind.mp h
  obtain ⟨listed, t, rfl, hloop⟩ := exec_call_bind.mp hquery
  obtain rfl := hq listed (by simp)
  rw [sound_cons_iff (by simp [NoStats]), sound_cons_iff (by simp [NoStats])] at hsound
  have hwalk : (observeAll r collectedAt ⟨[], [], Dict.empty⟩ resources >>= fun progress =>
      pure (collectedAt, progress)).Exec t x := hloop
  obtain ⟨t₁, t₂, y, rfl, hall, hend⟩ := Prog.exec_bind_outcome hwalk
  obtain ⟨q, rfl⟩ := ok_of_exec_observeAll hall (sound_append.mp hsound.2.2).1
    fun resource hm reply hreply => hd resource hm reply (by simp [hreply])
  exact ⟨_, hend.2⟩

omit [Python] [Loads] in
theorem ok_of_exec_runOnce {resources : List DriverResource} {out : Except Exn DriverSnapshot}
    {r' : DriverRunner σ} (h : (runOnce r).Exec t (.ok (out, r'))) (hsound : Sound r.baselines t)
    (hq : ∀ reply, (⟨.query (.all .container), reply⟩ : Exchange (Env σ)) ∈ t → reply = .ok resources)
    (hd : ∀ resource ∈ resources, ∀ reply, (⟨.describe resource.uri, reply⟩ : Exchange (Env σ)) ∈ t →
      ∃ details, reply = .ok details) : ∃ s, out = .ok s := by
  have hc : ∀ y ∈ t, Contained y := fun y hy => contained_of_reliable (hsound.reliable y hy)
  obtain ⟨t₁, t₂, ⟨collected, q⟩, rfl, hcollect, hrest⟩ := Prog.exec_bind_ok.mp h
  obtain ⟨t₃, t₄, polled, rfl, hpoll, hbody⟩ := Prog.exec_attempt_bind.mp hcollect
  obtain ⟨⟨collectedAt, progress⟩, rfl⟩ := ok_of_exec_poll hpoll
    (sound_append.mp (sound_append.mp hsound).1).1 (fun reply hm => hq reply (by simp [hm]))
    fun resource hr reply hm => hd resource hr reply (by simp [hm])
  obtain ⟨t₅, t₆, host, rfl, hmetrics, hend⟩ := Prog.exec_attempt_bind.mp hbody
  obtain ⟨rfl, hout⟩ := hend
  obtain ⟨rfl, rfl⟩ := Prod.mk.inj (Except.ok.inj hout)
  obtain ⟨samples, rfl⟩ := exec_collectHost hmetrics fun y hy => hc y (by simp [hy])
  obtain ⟨t₇, t₈, result, rfl, hpublish, hend⟩ := Prog.exec_attempt_bind.mp hrest
  obtain ⟨rfl, -⟩ := exec_publishAll hpublish fun y hy => hc y (by simp [hy])
  obtain ⟨rfl, hout⟩ := hend
  obtain ⟨rfl, rfl⟩ := Prod.mk.inj (Except.ok.inj hout)
  exact ⟨_, rfl⟩

end Cycle

/-! ## The operations -/

omit [Python] in
theorem answer_getJson (daemon : Request → Http.Reply) (path : Str) (params : List (Str × Str)) :
    (getJson path params).answer daemon = readJson (daemon ⟨path, params⟩) := by
  obtain ⟨t, ht, hsame⟩ := Prog.exec_answer (I := http) daemon (getJson path params)
  obtain ⟨reply, rfl, hreply⟩ := exec_getJson.mp ht
  rw [hreply, ← hsame _ List.mem_cons_self]

variable {host : Host} (hpresents : Presents reference host)

include hpresents

theorem answer_query : (Docker.query reference (.all .container)).answer host.daemon =
    .ok (host.containers.map fun e => containerResource reference e.1) := by
  obtain ⟨document, hread, hinventory⟩ := hpresents.listed
  have hquery : queryDocument reference (.all .container) document =
      .ok (host.containers.map fun e => containerResource reference e.1) := by
    apply queryDocument_ok_iff.mpr
    refine ⟨_, _, hinventory, rfl, ?_⟩
    rw [filter_queryMatches_all, List.map_map]
    rfl
  rw [Docker.query, Prog.answer_bind, answer_getJson, hread]
  exact (Prog.answer_ofExcept _ _).trans hquery

theorem answer_describe (hr : IsReference reference) {e : Container × DriverResourceDetails}
    (he : e ∈ host.containers) :
    (Docker.describe reference (containerResource reference e.1).uri).answer host.daemon = .ok e.2 := by
  obtain ⟨_, -, hinventory⟩ := hpresents.listed
  have hidentified := identified_of_inventory hinventory e.1 (List.mem_map.mpr ⟨e, he, rfl⟩)
  have hcanonical := hidentified.canonical (hpresents.slashFree e he) hr
  have hown : ownAddress reference (containerResource reference e.1).uri = .ok (addressFor reference e.1) :=
    ownAddress_ok_iff.mpr ⟨hcanonical, rfl, rfl⟩
  obtain ⟨document, hread, hdescribe⟩ := hpresents.inspected e he
  rw [Docker.describe, Prog.answer_bind, hown]
  change ((getJson (containerPath e.1.addressName "/json") [] >>= fun document =>
    Prog.ofExcept (describeDocument reference (addressFor reference e.1) document)).answer host.daemon) = _
  rw [Prog.answer_bind, answer_getJson]
  change ((readJson (host.daemon (inspectRequest e.1.addressName)) >>= fun document => _) = _)
  rw [hread]
  exact (Prog.answer_ofExcept _ _).trans hdescribe

omit hpresents

/-! ## Cycles -/

omit [Python] [Loads] hpresents in
/-- Every cycle begins with the clock and the inventory. -/
theorem starts_of_exec_runOnce {r r' : DriverRunner σ} {t : List (Exchange (Env σ))}
    {out : Except Exn DriverSnapshot} (h : (runOnce r).Exec t (.ok (out, r'))) :
    ∃ (time : Str) (listed : Except Exn (List DriverResource)) (rest : List (Exchange (Env σ))),
      t = ⟨.now, time⟩ :: ⟨.query (.all .container), listed⟩ :: rest := by
  obtain ⟨t₁, t₂, ⟨collected, q⟩, rfl, hcollect, -⟩ := Prog.exec_bind_ok.mp h
  obtain ⟨t₃, t₄, polled, rfl, hpoll, -⟩ := Prog.exec_attempt_bind.mp hcollect
  obtain ⟨time, t₅, rfl, hquery⟩ := exec_call_bind.mp hpoll
  obtain ⟨listed, t₆, rfl, -⟩ := exec_call_bind.mp hquery
  exact ⟨time, listed, t₆ ++ t₄ ++ t₂, by simp⟩

omit [Python] [Loads] in
/-- The describe calls of a cycle, if what each of them is answered depends on its address. -/
theorem describes_eq_map {t : List (Exchange (Env σ))} {f : Str → Except Exn DriverResourceDetails}
    (h : ∀ uri reply, (⟨.describe uri, reply⟩ : Exchange (Env σ)) ∈ t → reply = f uri) :
    describes t = ((describes t).map Prod.fst).map fun uri => (uri, f uri) := by
  have hall : ∀ d ∈ describes t, d = (d.1, f d.1) := by
    intro d hd
    obtain ⟨⟨c, reply⟩, hx, hc⟩ := List.mem_filterMap.mp hd
    cases c with
    | describe uri =>
      obtain rfl := Option.some.inj hc
      rw [h uri reply hx]
    | _ => cases hc
  rw [List.map_map]
  conv_lhs => rw [← List.map_id (describes t)]
  exact List.map_congr_left hall

/-- What a cycle reports of a host: everything there is to be said of each container, and to
every sink. -/
def Reports (r : DriverRunner σ) (c : PollCycle σ) (host : Host) : Prop :=
  ∃ s, c.outcome = .ok s ∧ s.containers.map ContainerObservation.details = host.containers.map Prod.snd ∧
    published c.trace = r.sinks.map fun sink => (sink, s)

omit hpresents in
theorem reports_of_exec_runOnce (hr : IsReference reference) {r r' : DriverRunner σ} {c : PollCycle σ}
    (h : (runOnce r).Exec c.trace (.ok (c.outcome, r'))) (hpresents : Presents reference host)
    (ht : ∀ x ∈ c.trace, SteadyReply reference host.daemon x) (hfit : CountersFit r.baselines c.trace) :
    Reports r c host ∧ r'.sinks = r.sinks := by
  have hsound : Sound r.baselines c.trace :=
    ⟨hfit, fun x hx => reliable_of_steadyReply hpresents.parses (ht x hx)⟩
  have hquery : ∀ reply, (⟨.query (.all .container), reply⟩ : Exchange (Env σ)) ∈ c.trace →
      reply = .ok (host.containers.map fun e => containerResource reference e.1) := by
    intro reply hx
    exact (ht _ hx).trans (answer_query hpresents)
  have hdescribe : ∀ uri reply, (⟨.describe uri, reply⟩ : Exchange (Env σ)) ∈ c.trace →
      reply = (Docker.describe reference uri).answer host.daemon := fun uri reply hx => ht _ hx
  obtain ⟨s, hs⟩ := ok_of_exec_runOnce h hsound hquery (by
    intro resource hm reply hx
    obtain ⟨e, he, rfl⟩ := List.mem_map.mp hm
    exact ⟨e.2, (hdescribe _ reply hx).trans (answer_describe hpresents hr he)⟩)
  obtain ⟨time, listed, rest, hstart⟩ := starts_of_exec_runOnce h
  rcases exec_runOnce h fun x hx => contained_of_steadyReply (ht x hx) with ⟨e, he, -⟩ |
    ⟨collectedAt, resources, visits, hostMetrics, hlist, hsurvey, hout, rfl, hpublished⟩
  · rw [he] at hs
    cases hs
  -- the inventory is what the host lists
  have hresources : resources = host.containers.map fun e => containerResource reference e.1 := by
    have hlisted := hquery listed (by rw [hstart]; simp)
    have hhead := congrArg List.head? hlist
    rw [hstart] at hhead
    exact (Except.ok.inj (hlisted.symm.trans (Option.some.inj hhead))).symm
  have hdescribed : describes c.trace = host.containers.map fun e =>
      ((containerResource reference e.1).uri, .ok e.2) := by
    rw [describes_eq_map hdescribe, hsurvey.described, hresources, List.map_map, List.map_map]
    apply List.map_congr_left
    intro e he
    exact Prod.ext rfl (answer_describe hpresents hr he)
  refine ⟨⟨_, hout, ?_, hpublished⟩, rfl⟩
  have hvisited : visits.map Visit.details = (returned (describes c.trace)).map Prod.snd := by
    rw [← hsurvey.visited, List.map_map]
    rfl
  change (visits.map Visit.observation).map ContainerObservation.details = _
  rw [List.map_map]
  refine (hvisited.trans ?_)
  rw [hdescribed, returned, List.filterMap_map, List.map_filterMap]
  exact congrFun List.filterMap_eq_map host.containers

end Python

def webContainer : Container :=
  ⟨lit "0123456789ab", lit "web", lit "web", lit "_orphans", none, none, none⟩

def webDetails : DriverResourceDetails :=
  ⟨containerResource (lit "local") webContainer, none, none, none, [], [], none, none, none, none⟩

/-- The documents of the one container. -/
def webListed : Json :=
  .arr [.obj [(lit "Id", .str (lit "0123456789ab")), (lit "Names", .arr [.str (lit "/web")]),
    (lit "Labels", .obj [])]]

def webInspected : Json :=
  .obj [(lit "Id", .str (lit "0123456789ab")), (lit "Name", .str (lit "/web")),
    (lit "Config", .obj [(lit "Labels", .obj [])])]

def webTexts : List (List UInt8 × Json) := [
  (Utf8.encode (lit "[]"), .arr []), (Utf8.encode listText, webListed), (Utf8.encode inspectText, webInspected),
  (Utf8.encode (statsText ['0'] ['0']), statsJson 0 0),
  (Utf8.encode (statsText (lit "10") (lit "100")), statsJson 10 100)]

abbrev webLoads : Loads := Loads.known webTexts

/-- A host whose replies have these bodies. -/
def hostOf (list stats : Str) (containers : List (Container × DriverResourceDetails)) : Host where
  daemon q :=
    if q.path = lit "containers/json" then .response 200 [Utf8.encode list] true
    else if q.path = lit "containers/web/json" then .response 200 [Utf8.encode inspectText] true
    else if q.path = lit "containers/web/stats" then .response 200 [Utf8.encode stats] true
    else .response 404 [] true
  containers := containers

def emptyHost : Host := hostOf (lit "[]") [] []

/-- The container with its counters. -/
def webHost (total system : Str) : Host := hostOf listText (statsText total system) [(webContainer, webDetails)]

/-- The container appears, and is measured once more. -/
def appearing : List Host := [emptyHost, webHost ['0'] ['0'], webHost (lit "10") (lit "100")]

section Serve

variable [Python] [Loads] (reference : Str)

/-- The answers of a driver in front of a host; every sink is up. -/
def standing (host : Host) (_ : Unit) : (c : Call σ) → Runner.Reply c × Unit
  | .now => ([], ())
  | .query q => ((Docker.query reference q).answer host.daemon, ())
  | .describe uri => ((Docker.describe reference uri).answer host.daemon, ())
  | .stats uri => ((Docker.stats reference uri).answer host.daemon, ())
  | .revision uri => ((Docker.revision reference uri).answer host.daemon, ())
  | .logs uri tail => ((Docker.logs reference uri tail).answer host.daemon, ())
  | .collect => (.ok [], ())
  | .publish _ _ => (.ok (), ())

theorem steadyReply_standing (host : Host) (c : Call σ) :
    SteadyReply reference host.daemon (⟨c, (standing reference host () c).1⟩ : Exchange (Env σ)) := by
  cases c with
  | now => trivial
  | collect => exact fun e he => nomatch he
  | publish sink snapshot => exact fun e he => nomatch he
  | _ => rfl

/-- One cycle for each host. -/
def serveHosts : List Host → DriverRunner σ → List (PollCycle σ) × DriverRunner σ
  | [], r => ([], r)
  | host :: hosts, r =>
    let out := (runOnce r).serve (I := Env σ) (standing reference host) ()
    match out.1 with
    | .ok (outcome, r') =>
      let rest := serveHosts hosts r'
      (⟨out.2.1, outcome⟩ :: rest.1, rest.2)
    | .error e => nomatch e

theorem run_serveHosts (hosts : List Host) (r : DriverRunner σ) :
    Run r (serveHosts reference hosts r).1 (serveHosts reference hosts r).2 ∧
      List.Forall₂ (fun c host => ∀ x ∈ c.trace, SteadyReply reference host.daemon x)
        (serveHosts reference hosts r).1 hosts := by
  induction hosts generalizing r with
  | nil => exact ⟨.nil r, .nil⟩
  | cons host hosts ih =>
    have hexec := Prog.exec_serve (I := Env σ) (standing reference host) (runOnce r) ()
    have htrace := Prog.serve_forall (I := Env σ) (standing reference host)
      (fun _ c => steadyReply_standing reference host c) (runOnce r) ()
    unfold serveHosts
    dsimp only
    split
    · rename_i outcome r' hout
      rw [hout] at hexec
      obtain ⟨hrun, hsteady⟩ := ih r'
      exact ⟨.cons hexec hrun, .cons htrace hsteady⟩
    · rename_i e _
      exact nomatch e

end Serve

def appearingRun : List (PollCycle Unit) × DriverRunner Unit :=
  @serveHosts Unit Python.ascii webLoads (lit "local") appearing overflowingRunner

theorem steadyReply_appearing : List.Forall₂ (fun c host => ∀ x ∈ c.trace,
    @SteadyReply Unit Python.ascii webLoads (lit "local") host.daemon x) appearingRun.1 appearing :=
  (@run_serveHosts Unit Python.ascii webLoads (lit "local") appearing overflowingRunner).2

theorem run_appearing : Run overflowingRunner appearingRun.1 appearingRun.2 :=
  (@run_serveHosts Unit Python.ascii webLoads (lit "local") appearing overflowingRunner).1

theorem countersFitThroughout_appearing : CountersFitThroughout overflowingRunner appearingRun.1 := by
  have hgoesOn : appearingRun.1.all goesOn = true := by decide +kernel
  refine ((goesOn_iff_of_run run_appearing ?_).mp (List.all_eq_true.mp hgoesOn)).1
  intro c hc x hx
  obtain ⟨host, -, hsteady⟩ := exists_of_mem_left steadyReply_appearing hc
  exact @contained_of_steadyReply Unit Python.ascii webLoads _ _ _ (hsteady x hx)

theorem readJson_of_loads [Loads] {body : List UInt8} {document : Json}
    (hread : readReply maxInventoryBytes false (.response 200 [body] true) = .ok (body, false))
    (h : Loads.loads body = .value document) : readJson (.response 200 [body] true) = .ok document := by
  simp only [readJson, hread, Except.bind, decodeJson, h]

theorem presents_empty : @Presents Python.ascii webLoads (lit "local") emptyHost := by
  have hlist : @readJson webLoads (.response 200 [Utf8.encode (lit "[]")] true) = .ok (.arr []) :=
    @readJson_of_loads webLoads _ _ (by decide +kernel) (Loads.loads_known 0 rfl (by simp))
  refine @Presents.mk Python.ascii webLoads (lit "local") emptyHost
    (fun q => @parses_of_tame Python.ascii webLoads (tame_known _) _) ⟨.arr [], ?_, by decide +kernel⟩
    (by simp [emptyHost, hostOf]) (by simp [emptyHost, hostOf]) (by simp [emptyHost, hostOf])
  simpa only [emptyHost, hostOf, if_true] using hlist

theorem presents_web (total system : Str) :
    @Presents Python.ascii webLoads (lit "local") (webHost total system) := by
  have hslash : webContainer.SlashFree := by
    refine ⟨?_, ?_⟩
    · simp [webContainer, lit_def]
    · rintro s ⟨⟩
  have hlist : @readJson webLoads (.response 200 [Utf8.encode listText] true) = .ok webListed :=
    @readJson_of_loads webLoads _ _ (by decide +kernel) (Loads.loads_known 1 rfl (by decide +kernel))
  have hinspect : @readJson webLoads (.response 200 [Utf8.encode inspectText] true) = .ok webInspected :=
    @readJson_of_loads webLoads _ _ (by decide +kernel) (Loads.loads_known 2 rfl (by decide +kernel))
  have hinventory : @inventory Python.ascii webListed = .ok [webContainer] := by decide +kernel
  have hpath : containerPath webContainer.addressName "/json" = lit "containers/web/json" := by decide +kernel
  have hdaemon : (webHost total system).daemon (inspectRequest webContainer.addressName) =
      .response 200 [Utf8.encode inspectText] true := by
    simp [webHost, hostOf, inspectRequest, hpath]
  refine @Presents.mk Python.ascii webLoads (lit "local") (webHost total system)
    (fun q => @parses_of_tame Python.ascii webLoads (tame_known _) _) ⟨webListed, ?_, hinventory⟩ ?_ ?_ ?_
  · simpa only [webHost, hostOf, if_true] using hlist
  · intro e he
    obtain rfl := List.mem_singleton.mp he
    exact hslash
  · intro e he
    obtain rfl := List.mem_singleton.mp he
    exact ⟨webInspected, hdaemon ▸ hinspect, by decide +kernel⟩
  · intro e he
    obtain rfl := List.mem_singleton.mp he
    rfl

theorem presents_appearing : ∀ host ∈ appearing, @Presents Python.ascii webLoads (lit "local") host := by
  simp only [appearing, List.forall_mem_cons, List.not_mem_nil, false_imp_iff, implies_true, and_true]
  exact ⟨presents_empty, presents_web _ _, presents_web _ _⟩

/-- The percentages that are reported. -/
def percentages (cs : List (PollCycle Unit)) : List (List (Option Rat)) :=
  cs.map fun c => c.outcome.toOption.toList.flatMap fun s => s.containers.map ContainerObservation.cpuPercent

end MiraDriver.Steady
