import MiraDriver.Admin
import MiraDriver.Clients
import MiraDriver.Footprint
import MiraDriver.Link
import MiraDriver.Schedule

/-!
# The process on the wire

The loop of the process over what its parts do: the driver's operations as requests to the
Docker API, the sinks' as posts, the collector's as files that are read. The collector is the
only part that changes with its use.
-/
namespace MiraDriver.Wire

open MiraDriver.Text MiraDriver.Mapping MiraDriver.Base MiraDriver.Program MiraDriver.Document
  MiraDriver.Numerals MiraDriver.Http MiraDriver.Runner MiraDriver.Cycle MiraDriver.Lifecycle
  MiraDriver.Drivers MiraDriver.Sinks MiraDriver.Admin MiraDriver.Config MiraDriver.Process
  MiraDriver.ReadSurface MiraDriver.Isolation MiraDriver.Footprint MiraDriver.Schedule

/-- What the process asks of the network and of its machine. -/
inductive WireCall where
  | request (sent : Sent)
  | post (post : Post)
  | host (c : Metrics.Call)
  | now
  | timer (c : TimerCall)
  deriving DecidableEq, Repr

abbrev WireReply : WireCall → Type
  | .request _ => Http.Reply
  | .post _ => PostReply
  | .host c => Metrics.Reply c
  | .now => Str
  | .timer c => TimerReply c

abbrev wire : Interface := ⟨WireCall, WireReply⟩

/-- The collector as it is now, if there is one. -/
abbrev Machine := Option Metrics.HostMetricsCollector

/-- What the runner sees of an exception that comes out of a sink. -/
def exnOf : PublishError → Exn
  | .sinkPublishError _ => .exception (lit "SinkPublishError")
  | .exception name => .exception name

/-- The requests of a driver go through its client. -/
def overDriver (driver : Driver) {α : Type} (p : Prog http Exn α) (m : Machine) :
    Prog wire Empty (Except Exn α × Machine) :=
  p.link (Prog.relay (J := wire) (fun q : Request => .request (driver.client.stream q)) fun _ x => x) m

def overNetwork {α : Type} (p : Prog posts PublishError α) (m : Machine) :
    Prog wire Empty (Except PublishError α × Machine) :=
  p.link (Prog.relay (J := wire) (fun post : Post => .post post) fun _ x => x) m

def overHost {α : Type} (p : Prog Metrics.host Empty α) (m : Machine) :
    Prog wire Empty (Except Empty α × Machine) :=
  p.link (Prog.relay (J := wire) (fun c : Metrics.Call => .host c) fun _ x => x) m

def ask {ε : Type} (c : WireCall) : Prog wire ε (WireReply c) := Prog.ask (I := wire) c

/-- `publish` of a sink. -/
def publish [FloatRepr] (snapshot : DriverSnapshot) : Process.Sink → Prog posts PublishError Unit
  | .mirarun sink => sink.publish snapshot
  | .admin sink => AdminCollectorSink.publish sink snapshot

section Python

variable [Python] [Loads] [Digits] [FloatRepr]

/-- What carries out a call of the loop. -/
def answer (driver : Driver) (m : Machine) :
    (c : (Loop Process.Sink).Call) → Prog wire Empty ((Loop Process.Sink).Reply c × Machine)
  | .inr c => do
    let reply ← ask (.timer c)
    pure (reply, m)
  | .inl .now => do
    let reply ← ask .now
    pure (reply, m)
  | .inl (.query q) => overDriver driver (Docker.query driver.reference q) m
  | .inl (.describe uri) => overDriver driver (Docker.describe driver.reference uri) m
  | .inl (.stats uri) => overDriver driver (Docker.stats driver.reference uri) m
  | .inl (.revision uri) => overDriver driver (Docker.revision driver.reference uri) m
  | .inl (.logs uri tail) => overDriver driver (Docker.logs driver.reference uri tail) m
  | .inl .collect =>
    match m with
    | none => pure (.error (.exception (lit "AttributeError")), none)
    | some collector => do
      let (out, _) ← overHost collector.collect m
      match out with
      | .ok (samples, collector') => pure (samples, some collector')
      | .error e => nomatch e
  | .inl (.publish sink snapshot) => do
    let (out, m) ← overNetwork (publish snapshot sink) m
    pure (out.mapError exnOf, m)

/-- The collector before the first cycle. -/
def machine (process : DriverProcess) : Machine :=
  process.hostMetrics.map fun collector => ⟨collector, none⟩

/-- `main`, with everything that it calls. -/
def main (passes : Nat) (hostname : Str) (environ : Dict Str Str) :
    Prog wire Empty (ProcessEnd Process.Sink) :=
  match Process.main hostname environ with
  | .exit status _ => pure (.exit status)
  | .raised e => pure (.startupError e)
  | .polling process => do
    let (ended, _) ← (runForever process.interval passes process.runner).link (answer process.driver)
      (machine process)
    pure (.ofLoop ended)

/-! ## What is sent for a call -/

def headersOf (token : Str) : List (Str × Str) :=
  [(lit "Authorization", lit "Bearer " ++ token), (lit "Content-Type", lit "application/json")]

instance (snapshot : DriverSnapshot) : Decidable (OverCap snapshot) := inferInstanceAs (Decidable (_ ∨ _))

/-- What a sink posts of a snapshot. -/
def postsOf (snapshot : DriverSnapshot) : Process.Sink → List Post
  | .mirarun sink =>
    if OverCap snapshot then []
    else [⟨sink.reportUrl, reportBody (reported snapshot), headersOf sink.token⟩]
  | .admin sink =>
    [⟨sink.collectorUrl, Utf8.encode (payloadText (payloadOf sink snapshot)), headersOf sink.token⟩]

/-- What is posted. -/
def postsIn (t : List (Exchange wire)) : List Post :=
  (t.map Sigma.fst).filterMap fun
    | .post post => some post
    | _ => none

/-- The snapshots that the loop hands over, each with its sink. -/
def handed (u : List (Exchange (Loop Process.Sink))) : List (Process.Sink × DriverSnapshot) :=
  u.filterMap fun
    | ⟨.inl (.publish sink snapshot), _⟩ => some (sink, snapshot)
    | _ => none

/-- What a collector looks at. -/
def Inspects (collector : Process.HostMetricsCollector) : Metrics.Call → Prop
  | .read path => ∃ name ∈ ["loadavg", "stat", "meminfo", "uptime"], path = collector.proc ++ '/' :: lit name
  | .statvfs path => ∃ mountpoint, (mountpoint, path) ∈ collector.disks.entries

/-- What may be sent besides posts: requests of the read surface to the endpoint of the driver, with
its credential, and what the collector looks at. -/
def Permitted (process : DriverProcess) : WireCall → Prop
  | .request sent => sent.method = lit "GET" ∧ sent.headers = process.driver.client.headers ∧
    ∃ path, sent.url = process.driver.client.baseUrl ++ path ∧ Bounded path sent.params
  | .host c => ∃ collector, process.hostMetrics = some collector ∧ Inspects collector c
  | _ => True

/-- The posts of a sink have its address and its token. -/
def Addressed (url token : Str) (post : Post) : Prop := post.url = url ∧ post.headers = headersOf token

omit [Python] [Loads] [Digits] [FloatRepr] in
theorem addressed_postJson_bind {url token : Str} {content : List UInt8}
    {f : Nat × Str → Prog posts PublishError Unit} (hf : ∀ response, (f response).AllCalls (Addressed url token)) :
    (postJson url token content >>= f).AllCalls (Addressed url token) := by
  refine Prog.allCalls_bind ⟨⟨rfl, rfl⟩, ?_⟩ hf
  intro reply
  cases reply <;> trivial

omit [Python] [Loads] [Digits] [FloatRepr] in
theorem addressed_mirarun (sink : MirarunReportSink) (snapshot : DriverSnapshot) :
    (sink.publish snapshot).AllCalls (Addressed sink.reportUrl sink.token) := by
  unfold MirarunReportSink.publish
  dsimp only
  split
  · apply Prog.allCalls_throw
  · split
    · apply Prog.allCalls_throw
    · apply addressed_postJson_bind
      rintro ⟨status, text⟩
      dsimp only
      split
      · apply Prog.allCalls_throw
      · apply Prog.allCalls_pure

omit [Python] [Loads] [Digits] in
theorem addressed_admin (sink : Process.AdminCollectorSink) (snapshot : DriverSnapshot) :
    (AdminCollectorSink.publish sink snapshot).AllCalls (Addressed sink.collectorUrl sink.token) := by
  apply addressed_postJson_bind
  rintro ⟨status, text⟩
  dsimp only
  split
  · apply Prog.allCalls_throw
  · apply Prog.allCalls_pure

omit [Python] [Loads] [Digits] in
theorem posts_of_exec_publish {snapshot : DriverSnapshot} {sink : Process.Sink} {s : List (Exchange posts)}
    {x : Except PublishError Unit} (h : (publish snapshot sink).Exec s x) :
    s.map Sigma.fst = postsOf snapshot sink := by
  -- the content of a post is known, and its address
  have hone {url token : Str} {content : List UInt8} {post : Post} {reply : PostReply}
      (hcontent : post.content = content) (haddressed : Addressed url token post) :
      List.map Sigma.fst [(⟨post, reply⟩ : Exchange posts)] = [⟨url, content, headersOf token⟩] := by
    obtain ⟨rfl, hheaders⟩ := haddressed
    subst hcontent
    rw [← hheaders]
    rfl
  cases sink with
  | mirarun sink =>
    have haddressed := (addressed_mirarun sink snapshot).of_exec h
    rcases exec_publish h with ⟨hcap, rfl, -⟩ | ⟨hcap, post, reply, rfl, hcontent⟩
    · exact (if_pos hcap).symm
    · exact (hone hcontent (haddressed _ List.mem_cons_self)).trans (if_neg hcap).symm
  | admin sink =>
    have haddressed := (addressed_admin sink snapshot).of_exec h
    obtain ⟨post, reply, rfl, hcontent⟩ := exec_adminPublish h
    exact hone hcontent (haddressed _ List.mem_cons_self)

section Inspects

variable {collector : Metrics.HostMetricsCollector}

omit [Python] [Loads] [Digits] [FloatRepr] in
theorem inspects_reader {α : Type} {name : String} (hname : name ∈ ["loadavg", "stat", "meminfo", "uptime"])
    (parse : Str → Except Exn α) :
    (collector.reader name parse).AllCalls (Inspects collector.toHostMetricsCollector) := by
  apply Prog.allCalls_bind
  · apply Prog.allCalls_bind
    · exact ⟨⟨name, hname, rfl⟩, fun _ => trivial⟩
    · intro reply
      apply Prog.allCalls_ofExcept
  · intro content
    apply Prog.allCalls_ofExcept

omit [Python] [Loads] [Digits] [FloatRepr] in
theorem inspects_filesystems {disks : List (Str × Str)} (h : ∀ d ∈ disks, d ∈ collector.disks.entries) :
    (Metrics.filesystems disks).AllCalls (Inspects collector.toHostMetricsCollector) := by
  induction disks with
  | nil => trivial
  | cons d disks ih =>
    obtain ⟨mountpoint, path⟩ := d
    obtain ⟨hd, hdisks⟩ := List.forall_mem_cons.mp h
    apply Prog.allCalls_bind
    · exact ⟨⟨mountpoint, hd⟩, fun _ => trivial⟩
    · intro reply
      apply Prog.allCalls_bind (Prog.allCalls_ofExcept _)
      intro stats
      apply Prog.allCalls_bind (Prog.allCalls_ofExcept _)
      intro samples
      apply Prog.allCalls_bind (ih hdisks)
      intro more
      apply Prog.allCalls_pure

omit [Loads] [FloatRepr] in
/-- A call of `collect` keeps to the paths of the collector, and leaves them as they are. -/
theorem inspects_of_exec_collect {t : List (Exchange Metrics.host)} {out : Except Exn (List MetricSample)}
    {collector' : Metrics.HostMetricsCollector} (h : collector.collect.Exec t (.ok (out, collector'))) :
    collector'.toHostMetricsCollector = collector.toHostMetricsCollector ∧
      ∀ x ∈ t, Inspects collector.toHostMetricsCollector x.1 := by
  have hfirst : collector.firstSamples.AllCalls (Inspects collector.toHostMetricsCollector) := by
    apply Prog.allCalls_bind (inspects_reader (by simp) _)
    intro load
    apply Prog.allCalls_bind (inspects_reader (by simp) _)
    intro count
    apply Prog.allCalls_pure
  have hlast (c : Metrics.HostMetricsCollector) :
      c.lastSamples.AllCalls (Inspects c.toHostMetricsCollector) := by
    apply Prog.allCalls_bind (inspects_reader (by simp) _)
    intro memory
    apply Prog.allCalls_bind (inspects_reader (by simp) _)
    intro uptime
    apply Prog.allCalls_bind (inspects_filesystems fun d hd => (List.perm_insertionSort _ _).mem_iff.mp hd)
    intro disks
    apply Prog.allCalls_pure
  have hreading : (collector.reader "stat" Metrics.cpuTimes).AllCalls
      (Inspects collector.toHostMetricsCollector) := inspects_reader (by simp) _
  rcases Metrics.exec_collect h with ⟨e, h₁, -, rfl⟩ | ⟨t₁, t₂, first, e, rfl, h₁, h₂, -, rfl⟩ |
    ⟨t₁, t₂, t₃, first, now, cpu, last, rfl, h₁, h₂, rfl, -, h₃, -⟩
  · exact ⟨rfl, hfirst.of_exec h₁⟩
  · refine ⟨rfl, ?_⟩
    rw [List.forall_mem_append]
    exact ⟨hfirst.of_exec h₁, hreading.of_exec h₂⟩
  · refine ⟨rfl, ?_⟩
    rw [List.forall_mem_append, List.forall_mem_append]
    exact ⟨⟨hfirst.of_exec h₁, hreading.of_exec h₂⟩, (hlast _).of_exec h₃⟩

end Inspects

/-! ## One call -/

/-- What is done for a call of the loop, and what it is answered. -/
structure Carried (process : DriverProcess) (x : Exchange (Loop Process.Sink)) (s : List (Exchange wire)) :
    Prop where
  answered : ∀ y, x = .inl y → OverDriver process.driver.reference y ∧ SinkContained y
  permitted : ∀ y ∈ s, Permitted process y.1
  posted : postsIn s = (handed [x]).flatMap fun h => postsOf h.2 h.1

/-- The collector has the paths that the process has given it. -/
def Kept (process : DriverProcess) (m : Machine) : Prop :=
  m.map (·.toHostMetricsCollector) = process.hostMetrics

section Step

variable {process : DriverProcess} {m m' : Machine} {s : List (Exchange wire)}

omit [Python] [Loads] [Digits] [FloatRepr] in
/-- An operation of the driver within the read surface. -/
theorem exec_overDriver {α : Type} {p : Prog http Exn α} (hp : Within p) (hm : Kept process m) {x : Except Exn α}
    (h : (overDriver process.driver p m).Exec s (.ok (x, m'))) :
    Kept process m' ∧ (∃ u, p.Exec u x) ∧ (∀ y ∈ s, Permitted process y.1) ∧ postsIn s = [] := by
  obtain ⟨rfl, u, hcalls, hexec⟩ := Prog.exec_link_relay _ _ h
  refine ⟨hm, ⟨u, hexec⟩, ?_, ?_⟩
  · refine Prog.forall_calls_of_relayed (I := http) (J := wire) (P := Permitted process)
      (fun q : Request => .request (process.driver.client.stream q)) hcalls ?_
    intro q hq
    exact ⟨rfl, rfl, _, rfl, hp.of_exec hexec q hq⟩
  · rw [postsIn, hcalls, List.filterMap_map]
    exact List.filterMap_eq_nil_iff.mpr fun _ _ => rfl

omit [Digits] in
/-- Where no sink is called. -/
theorem carried_of_quiet {c : Call Process.Sink} {x : Runner.Reply c}
    (hanswered : OverDriver process.driver.reference (⟨c, x⟩ : Exchange (Env Process.Sink)))
    (hquiet : isPublish c = false) (hpermitted : ∀ y ∈ s, Permitted process y.1) (hposts : postsIn s = []) :
    Carried process ⟨.inl c, x⟩ s := by
  refine ⟨?_, hpermitted, ?_⟩
  · rintro ⟨c', x'⟩ hy
    cases hy
    refine ⟨hanswered, ?_⟩
    cases c' <;> trivial
  · rw [hposts]
    cases c <;> first | rfl | cases hquiet

theorem carried_of_exec_collect {x : Except Exn (List MetricSample)} (hm : Kept process m)
    (h : (answer process.driver m (.inl .collect)).Exec s (.ok (x, m'))) :
    Kept process m' ∧ Carried process ⟨.inl .collect, x⟩ s := by
  cases m with
  | none =>
    obtain ⟨rfl, hx⟩ := h
    obtain ⟨rfl, rfl⟩ := Prod.mk.inj (Except.ok.inj hx)
    exact ⟨hm, carried_of_quiet trivial rfl (by simp) rfl⟩
  | some collector =>
    obtain ⟨s, s', ⟨out, m₁⟩, rfl, hcollect, hend⟩ := Prog.exec_bind_ok.mp h
    obtain ⟨-, u, hcalls, hexec⟩ := Prog.exec_link_relay _ _ hcollect
    cases out with
    | error e => exact nomatch e
    | ok out =>
      obtain ⟨samples, collector'⟩ := out
      obtain ⟨rfl, hx⟩ := hend
      obtain ⟨rfl, rfl⟩ := Prod.mk.inj (Except.ok.inj hx)
      obtain ⟨hsame, hinspects⟩ := inspects_of_exec_collect hexec
      have hprocess : process.hostMetrics = some collector.toHostMetricsCollector := hm.symm
      rw [List.append_nil]
      refine ⟨(congrArg some hsame).trans hprocess.symm, carried_of_quiet trivial rfl ?_ ?_⟩
      · refine Prog.forall_calls_of_relayed (I := Metrics.host) (J := wire) (P := Permitted process) _
          hcalls ?_
        intro q hq
        exact ⟨_, hprocess, hinspects q hq⟩
      · rw [postsIn, hcalls, List.filterMap_map]
        exact List.filterMap_eq_nil_iff.mpr fun _ _ => rfl

theorem carried_of_exec_publish {sink : Process.Sink} {snapshot : DriverSnapshot} {x : Except Exn Unit}
    (hm : Kept process m) (h : (answer process.driver m (.inl (.publish sink snapshot))).Exec s (.ok (x, m'))) :
    Kept process m' ∧ Carried process ⟨.inl (.publish sink snapshot), x⟩ s := by
  obtain ⟨s, s', ⟨out, m₁⟩, rfl, hpublish, hend⟩ := Prog.exec_bind_ok.mp h
  obtain ⟨rfl, u, hcalls, hexec⟩ := Prog.exec_link_relay _ _ hpublish
  obtain ⟨rfl, hx⟩ := hend
  obtain ⟨rfl, rfl⟩ := Prod.mk.inj (Except.ok.inj hx)
  rw [List.append_nil]
  refine ⟨hm, ?_, Prog.forall_calls_of_relayed (I := posts) (J := wire) (P := Permitted process) _
    hcalls fun _ _ => trivial, ?_⟩
  · rintro ⟨c', x'⟩ hy
    cases hy
    refine ⟨trivial, ?_⟩
    intro e he
    cases out with
    | ok u => cases he
    | error e' =>
      obtain rfl := Except.error.inj he
      cases e' <;> rfl
  · have hposts : postsIn s = u.map Sigma.fst := by
      rw [postsIn, hcalls, List.filterMap_map]
      exact (List.filterMap_eq_map' (f := Sigma.fst)).symm ▸ rfl
    rw [hposts, posts_of_exec_publish hexec]
    exact (List.append_nil _).symm

/-- Whatever the call, the answer is one that the part can give, and what is sent is permitted. -/
theorem carried_of_exec_answer {c : (Loop Process.Sink).Call} {x : (Loop Process.Sink).Reply c}
    (hm : Kept process m) (h : (answer process.driver m c).Exec s (.ok (x, m'))) :
    Kept process m' ∧ Carried process ⟨c, x⟩ s := by
  rcases c with c | c
  · cases c with
    | now =>
      obtain ⟨y, s, rfl, rfl, hx⟩ := h
      obtain ⟨rfl, rfl⟩ := Prod.mk.inj (Except.ok.inj hx)
      exact ⟨hm, carried_of_quiet trivial rfl (by simp [Permitted]) rfl⟩
    | query q =>
      have hwithin : Within (Docker.query process.driver.reference q) :=
        Prog.AllCalls.left (Clients.within_operation process.driver.reference (.query q))
      obtain ⟨hkept, hexec, hpermitted, hposts⟩ := exec_overDriver hwithin hm h
      exact ⟨hkept, carried_of_quiet hexec rfl hpermitted hposts⟩
    | describe uri =>
      obtain ⟨hkept, hexec, hpermitted, hposts⟩ := exec_overDriver (within_describe _ uri) hm h
      exact ⟨hkept, carried_of_quiet hexec rfl hpermitted hposts⟩
    | stats uri =>
      obtain ⟨hkept, hexec, hpermitted, hposts⟩ := exec_overDriver (within_run _ uri .stats).left hm h
      exact ⟨hkept, carried_of_quiet hexec rfl hpermitted hposts⟩
    | revision uri =>
      obtain ⟨hkept, hexec, hpermitted, hposts⟩ := exec_overDriver (within_run _ uri .revision).left hm h
      exact ⟨hkept, carried_of_quiet hexec rfl hpermitted hposts⟩
    | logs uri tail =>
      obtain ⟨hkept, hexec, hpermitted, hposts⟩ := exec_overDriver (within_run _ uri (.logs tail)).left hm h
      exact ⟨hkept, carried_of_quiet hexec rfl hpermitted hposts⟩
    | collect => exact carried_of_exec_collect hm h
    | publish sink snapshot => exact carried_of_exec_publish hm h
  · obtain ⟨y, s, rfl, rfl, hx⟩ := h
    obtain ⟨rfl, rfl⟩ := Prod.mk.inj (Except.ok.inj hx)
    refine ⟨hm, ?_, by simp [Permitted], rfl⟩
    intro y hy
    cases hy

end Step

/-! ## An interaction -/

omit [Python] [Loads] [Digits] [FloatRepr] in
theorem postsIn_append (s t : List (Exchange wire)) : postsIn (s ++ t) = postsIn s ++ postsIn t := by
  rw [postsIn, List.map_append, List.filterMap_append]
  rfl

omit [Python] [Loads] [Digits] [FloatRepr] in
theorem handed_append (u v : List (Exchange (Loop Process.Sink))) : handed (u ++ v) = handed u ++ handed v :=
  List.filterMap_append

omit [Python] [Loads] [Digits] [FloatRepr] in
theorem handed_map_inl (u : List (Exchange (Env Process.Sink))) : handed (u.map .inl) = published u := by
  rw [handed, List.filterMap_map]
  apply List.filterMap_congr
  rintro ⟨c, x⟩ -
  cases c <;> rfl

/-- What is sent in an interaction is what is sent for its calls. -/
theorem carried_of_linked {process : DriverProcess} {m m' : Machine} {u : List (Exchange (Loop Process.Sink))}
    {t : List (Exchange wire)} (h : Prog.Linked (answer process.driver) m u t m') (hm : Kept process m) :
    (∀ y, Exchange.inl y ∈ u → OverDriver process.driver.reference y ∧ SinkContained y) ∧
      (∀ y ∈ t, Permitted process y.1) ∧ postsIn t = (handed u).flatMap fun h => postsOf h.2 h.1 := by
  obtain ⟨-, parts, rfl, hparts⟩ := h.invariant (K := Kept process) (R := Carried process)
    (fun _ _ _ _ _ hm hs => carried_of_exec_answer hm hs) hm
  clear h
  induction hparts with
  | nil => exact ⟨by simp, by simp, rfl⟩
  | @cons x s u parts hx _ ih =>
    obtain ⟨hanswered, hpermitted, hposts⟩ := ih
    refine ⟨?_, ?_, ?_⟩
    · intro y hy
      cases List.mem_cons.mp hy with
      | inl hy => exact hx.answered y hy.symm
      | inr hy => exact hanswered y hy
    · rw [List.flatten_cons, List.forall_mem_append]
      exact ⟨hx.permitted, hpermitted⟩
    · rw [List.flatten_cons, postsIn_append, hx.posted, hposts, ← List.flatMap_append, ← handed_append]
      rfl

/-! ## Cycles -/

section Cycles

omit [Python] [Loads] [Digits] [FloatRepr]

variable {σ : Type} {r r' : DriverRunner σ}

theorem exec_publishAll_contained {snapshot : DriverSnapshot} {sinks : List σ} {t : List (Exchange (Env σ))}
    {x : Except Exn Unit} (h : (publishAll snapshot sinks).Exec t x) (ht : ∀ y ∈ t, SinkContained y) :
    x = .ok () ∧ published t = sinks.map fun sink => (sink, snapshot) := by
  have hcontained : ∀ y ∈ t, Contained y := by
    have hcalls := (allCalls_publishAll (P := fun c => isPublish c = true) snapshot sinks fun _ => rfl).of_exec h
    intro ⟨c, reply⟩ hy
    have hsink := ht _ hy
    have hc := hcalls _ hy
    cases c <;> first | exact hsink | cases hc
  obtain ⟨hx, -, -, hpublished⟩ := exec_publishAll h hcontained
  exact ⟨hx, hpublished⟩

theorem exec_collect_runner {t : List (Exchange (Env σ))} {out : Except Exn DriverSnapshot}
    (h : (collect r).Exec t (.ok (out, r'))) :
    r'.sinks = r.sinks ∧ r'.reference = r.reference ∧ ∀ s, out = .ok s → s.targetReference = r.reference := by
  obtain ⟨t₁, t₂, polled, rfl, -, hbody⟩ := Prog.exec_attempt_bind.mp h
  cases polled with
  | error e =>
    obtain ⟨rfl, hout⟩ := hbody
    obtain ⟨rfl, rfl⟩ := Prod.mk.inj (Except.ok.inj hout)
    exact ⟨rfl, rfl, fun s hs => nomatch hs⟩
  | ok gathered =>
    obtain ⟨t₃, t₄, host, rfl, -, hend⟩ := Prog.exec_attempt_bind.mp hbody
    obtain ⟨rfl, hout⟩ := hend
    obtain ⟨rfl, rfl⟩ := Prod.mk.inj (Except.ok.inj hout)
    refine ⟨rfl, rfl, ?_⟩
    intro s hs
    cases host with
    | error e => cases hs
    | ok samples =>
      obtain rfl := Except.ok.inj hs
      rfl

/-- A cycle that ends in a snapshot has handed it to every sink, and one that fails has handed over
nothing. -/
structure Hands (r : DriverRunner σ) (t : List (Exchange (Env σ))) (out : Except Exn DriverSnapshot)
    (r' : DriverRunner σ) : Prop where
  sinks : r'.sinks = r.sinks
  reference : r'.reference = r.reference
  own : ∀ s ∈ out.toOption.toList, s.targetReference = r.reference
  handed : published t = out.toOption.toList.flatMap fun s => r.sinks.map fun sink => (sink, s)

theorem hands_of_exec_runOnce {t : List (Exchange (Env σ))} {out : Except Exn DriverSnapshot}
    (h : (runOnce r).Exec t (.ok (out, r'))) (ht : ∀ y ∈ t, SinkContained y) : Hands r t out r' := by
  obtain ⟨t₁, t₂, collected, rfl, hcollect, hsilent, hcases⟩ := exec_runOnce_split h
  obtain ⟨hsinks, hreference, hown⟩ := exec_collect_runner hcollect
  rcases hcases with ⟨e, -, rfl, rfl⟩ | ⟨snapshot, result, rfl, hpublish, rfl⟩
  · exact ⟨hsinks, hreference, by simp [Except.toOption], by simpa [Except.toOption] using hsilent⟩
  · obtain ⟨rfl, hpublished⟩ := exec_publishAll_contained hpublish fun y hy => ht y (by simp [hy])
    refine ⟨hsinks, hreference, by simpa [Except.map, Except.toOption] using hown, ?_⟩
    rw [published_append, hsilent, hpublished, hsinks]
    simp [Except.map, Except.toOption]

/-- The same of a run: every sink is handed the same snapshots, in the order in which they were
made. -/
structure HandsAll (r : DriverRunner σ) (cs : List (PollCycle σ)) (r' : DriverRunner σ) : Prop where
  sinks : r'.sinks = r.sinks
  own : ∀ s ∈ snapshots cs, s.targetReference = r.reference
  handed : (cs.flatMap fun c => published c.trace) =
    (snapshots cs).flatMap fun s => r.sinks.map fun sink => (sink, s)

theorem handsAll_of_run {cs : List (PollCycle σ)} (h : Run r cs r')
    (hc : ∀ c ∈ cs, ∀ y ∈ c.trace, SinkContained y) : HandsAll r cs r' := by
  induction h with
  | nil r => exact ⟨rfl, by simp [snapshots], rfl⟩
  | @cons r q r' c cs hstep hrest ih =>
    obtain ⟨hone, hrest⟩ := List.forall_mem_cons.mp hc
    obtain ⟨hsinks, hreference, hown, hhanded⟩ := hands_of_exec_runOnce hstep hone
    obtain ⟨hsinks', hown', hhanded'⟩ := ih hrest
    have hsnapshots : snapshots (c :: cs) = c.outcome.toOption.toList ++ snapshots cs := by
      rw [snapshots, List.filterMap_cons]
      cases c.outcome <;> rfl
    refine ⟨hsinks'.trans hsinks, ?_, ?_⟩
    · intro s hs
      rw [hsnapshots] at hs
      cases List.mem_append.mp hs with
      | inl hs => exact hown s hs
      | inr hs => exact (hown' s hs).trans hreference
    · rw [List.flatMap_cons, hhanded, hhanded', hsnapshots, List.flatMap_append, hsinks]

end Cycles

/-! ## The loop -/

omit [Python] [Loads] [Digits] [FloatRepr] in
theorem handed_trace (interval : Rat) (p : Pass Process.Sink) :
    handed (p.trace interval) = published p.cycle.trace := by
  rw [Pass.trace, handed_append, handed_append, handed_map_inl]
  exact List.append_nil _

omit [Python] [Loads] [Digits] [FloatRepr] in
theorem handed_traceOf (interval : Rat) (passes : List (Pass Process.Sink)) :
    handed (traceOf interval passes) = (passes.map Pass.cycle).flatMap fun c => published c.trace := by
  induction passes with
  | nil => rfl
  | cons p passes ih =>
    rw [traceOf, List.flatMap_cons, handed_append, handed_trace, ← traceOf, ih]
    rfl

omit [Digits] [FloatRepr] in
/-- What a run hands over is within the limits. -/
theorem limited_of_run {reference : Str} {r r' : DriverRunner Process.Sink}
    {cs : List (PollCycle Process.Sink)} (h : Run r cs r')
    (hr : LimitedBaselines reference Inventory.maxContainers r.baselines)
    (hc : ∀ c ∈ cs, ∀ y ∈ c.trace, OverDriver reference y ∧ SinkContained y) :
    ∀ s ∈ snapshots cs, LimitedSnapshot reference r.postmortemTail s := by
  induction h with
  | nil r => simp [snapshots]
  | @cons r q r' c cs hstep _ ih =>
    obtain ⟨hone, hrest⟩ := List.forall_mem_cons.mp hc
    obtain ⟨htail, hkept, hpublished⟩ := limited_of_exec_runOnce hstep hr fun y hy => (hone y hy).1
    have hhands := hands_of_exec_runOnce hstep fun y hy => (hone y hy).2
    intro s hs
    obtain ⟨d, hd, hout⟩ := List.mem_filterMap.mp hs
    cases List.mem_cons.mp hd with
    | inl hd =>
      subst hd
      obtain ⟨sink, hsink⟩ := List.exists_mem_of_ne_nil _ r.nonempty
      apply hpublished (sink, s)
      rw [hhands.handed, hout]
      simpa using hsink
    | inr hd => exact htail ▸ ih hkept hrest s (List.mem_filterMap.mpr ⟨d, hd, hout⟩)

section Loop

variable {interval : Rat} {n : Nat} {r r' : DriverRunner Process.Sink} {passes : List (Pass Process.Sink)}
  {begun : List (PollCycle Process.Sink)} {last : List (Exchange (Loop Process.Sink))}
  {y : Except Exn (Option (DriverRunner Process.Sink))}

omit [Python] [Loads] [Digits] [FloatRepr]

theorem handed_ending (h : Ending interval n r passes begun last y) :
    handed last = begun.flatMap fun c => published c.trace := by
  cases h with
  | going _ => rfl
  | stopped _ => rfl
  | raised _ _ hbreaks =>
    rw [handed_append, handed_append, handed_map_inl]
    cases hbreaks <;> rfl

/-- What is handed over in the loop is handed over in one of its cycles. -/
theorem handed_loop (h : Ending interval n r passes begun last y) :
    handed (traceOf interval passes ++ last) =
      (passes.map Pass.cycle ++ begun).flatMap fun c => published c.trace := by
  rw [handed_append, handed_traceOf, handed_ending h, List.flatMap_append]

theorem mem_loop (h : Ending interval n r passes begun last y) :
    ∀ c ∈ passes.map Pass.cycle ++ begun, ∀ x ∈ c.trace, Exchange.inl x ∈ traceOf interval passes ++ last := by
  intro c hc x hx
  rw [List.mem_append] at hc ⊢
  refine hc.imp ?_ fun hc => h.mem_last c hc x hx
  intro hc
  obtain ⟨p, hp, rfl⟩ := List.mem_map.mp hc
  refine List.mem_flatMap.mpr ⟨p, hp, ?_⟩
  exact List.mem_append_right _ (List.mem_append_left _ (List.mem_map_of_mem hx))

end Loop

/-! ## The process -/

omit [Python] [Loads] [Digits] [FloatRepr] in
theorem reference_of_buildDriver {config : DriverProcessConfig} {driver : Driver}
    (h : buildDriver config = .ok driver) : driver.reference = config.targetReference := by
  unfold buildDriver at h
  split at h
  · obtain rfl := Except.ok.inj h
    rfl
  · split at h
    · split at h
      · cases h
      · rename_i url id apiKey _ _ _ _
        unfold Driver.ofPortainer at h
        split at h
        · cases h
        · split at h
          · cases h
          · split at h
            · cases h
            · obtain rfl := Except.ok.inj h
              rfl
    · cases h

/-- The process is as the configuration says, and has not polled. -/
structure Built (config : DriverProcessConfig) (process : DriverProcess) : Prop where
  driver : process.driver.reference = config.targetReference
  reference : process.runner.reference = config.targetReference
  postmortemTail : process.runner.postmortemTail = config.postmortemTail
  baselines : process.runner.baselines = Dict.empty

omit [Python] [Loads] [Digits] [FloatRepr] in
theorem built_of_buildRunner {config : DriverProcessConfig} {process : DriverProcess}
    (h : buildRunner config = .ok process) : Built config process := by
  obtain ⟨driver, hdriver, hcreate⟩ := bind_ok_iff.mp h
  unfold DriverProcess.create at hcreate
  dsimp only at hcreate
  split at hcreate
  · cases hcreate
  · obtain rfl := Except.ok.inj hcreate
    exact ⟨reference_of_buildDriver hdriver, rfl, rfl, rfl⟩

variable {passes : Nat} {hostname : Str} {environ : Dict Str Str} {t : List (Exchange wire)}
  {x : ProcessEnd Process.Sink}

/-- The process is idle, or its loop is carried out. -/
theorem exec_main (h : (main passes hostname environ).Exec t (.ok x)) :
    (t = [] ∧ (x = .exit 2 ∨ ∃ e, x = .startupError e)) ∨
    ∃ config process u m y, fromEnviron environ hostname = .ok config ∧ buildRunner config = .ok process ∧
      Prog.Linked (answer process.driver) (machine process) u t m ∧
      (runForever process.interval passes process.runner).Exec u y ∧ x = .ofLoop y := by
  unfold main Process.main at h
  cases hconfig : fromEnviron environ hostname with
  | error e =>
    obtain ⟨m, rfl⟩ := refusing_fromEnviron hostname e hconfig
    simp only [hconfig] at h
    exact .inl ⟨h.1, .inl (Except.ok.inj h.2)⟩
  | ok config =>
    cases hbuilt : buildRunner config with
    | error e =>
      simp only [hconfig, hbuilt] at h
      exact .inl ⟨h.1, .inr ⟨e, Except.ok.inj h.2⟩⟩
    | ok process =>
      simp only [hconfig, hbuilt] at h
      obtain ⟨t₁, t₂, ⟨y, m⟩, rfl, hloop, rfl, hx⟩ := Prog.exec_bind_ok.mp h
      obtain ⟨u, hlinked, hexec⟩ := Prog.exec_link.mp hloop
      rw [List.append_nil]
      exact .inr ⟨config, process, u, m, y, rfl, hbuilt, hlinked, hexec, Except.ok.inj hx⟩

/-- A process at work. What it does on the wire are the calls of its loop, carried out: those of its
passes, and of how the loop ends after them. Its cycles are a run of its runner. -/
structure Works (process : DriverProcess) (n : Nat) (passes : List (Pass Process.Sink))
    (begun : List (PollCycle Process.Sink)) (t : List (Exchange wire)) (x : ProcessEnd Process.Sink) : Prop where
  carried : ∃ r last y m, Run process.runner (passes.map Pass.cycle) r ∧
    Ending process.interval n r passes begun last y ∧ x = .ofLoop y ∧
    Prog.Linked (answer process.driver) (machine process) (traceOf process.interval passes ++ last) t m
  survived : ∀ p ∈ passes, Survived p.cycle

/-- What is posted: of every snapshot, in the order in which they were made, what each sink posts of
it, and nothing else. -/
structure Delivers (config : DriverProcessConfig) (process : DriverProcess)
    (cs : List (PollCycle Process.Sink)) (t : List (Exchange wire)) : Prop where
  posted : postsIn t = (snapshots cs).flatMap fun s => process.runner.sinks.flatMap (postsOf s)
  read : ∀ c ∈ cs, ∀ y ∈ c.trace, OverDriver config.targetReference y
  own : ∀ s ∈ snapshots cs, s.targetReference = config.targetReference
  limited : ∀ s ∈ snapshots cs, LimitedSnapshot config.targetReference config.postmortemTail s

omit [Python] [Loads] [Digits] [FloatRepr] in
theorem kept_machine (process : DriverProcess) : Kept process (machine process) := by
  unfold Kept machine
  cases process.hostMetrics <;> rfl

theorem works_of_exec_main (h : (main passes hostname environ).Exec t (.ok x)) :
    (t = [] ∧ (x = .exit 2 ∨ ∃ e, x = .startupError e)) ∨
    ∃ config process ps begun, fromEnviron environ hostname = .ok config ∧ buildRunner config = .ok process ∧
      Works process passes ps begun t x := by
  refine (exec_main h).imp_right ?_
  rintro ⟨config, process, u, m, y, hconfig, hbuilt, hlinked, hloop, rfl⟩
  obtain ⟨ps, begun, last, r, hrun, hsurvived, rfl, hending⟩ := exec_runForever hloop
  exact ⟨config, process, ps, begun, hconfig, hbuilt, ⟨r, last, y, m, hrun, hending, rfl, hlinked⟩, hsurvived⟩

section Works

variable {config : DriverProcessConfig} {process : DriverProcess} {n : Nat} {ps : List (Pass Process.Sink)}
  {begun : List (PollCycle Process.Sink)}

/-- What the cycles hand over is what they have made, and what is posted is what is sent for it. -/
theorem delivers_of_works (hbuilt : buildRunner config = .ok process) (h : Works process n ps begun t x) :
    Delivers config process (ps.map Pass.cycle ++ begun) t := by
  obtain ⟨r, last, y, m, hrun, hending, -, hlinked⟩ := h.carried
  obtain ⟨hdriver, hreference, htail, hbaselines⟩ := built_of_buildRunner hbuilt
  obtain ⟨hanswered, -, hposts⟩ := carried_of_linked hlinked (kept_machine process)
  have hfresh : LimitedBaselines process.driver.reference Inventory.maxContainers process.runner.baselines := by
    rw [hbaselines]
    exact ⟨Nat.zero_le _, by simp [Dict.empty], by simp [Dict.empty]⟩
  have hcycles : ∀ c ∈ ps.map Pass.cycle ++ begun, ∀ y ∈ c.trace,
      OverDriver process.driver.reference y ∧ SinkContained y :=
    fun c hc y hy => hanswered y (mem_loop hending c hc y hy)
  obtain ⟨r', hlast⟩ := hending.run
  have hall := handsAll_of_run (hrun.append hlast) fun c hc y hy => (hcycles c hc y hy).2
  refine ⟨?_, fun c hc y hy => hdriver ▸ (hcycles c hc y hy).1, hreference ▸ hall.own,
    htail ▸ hdriver ▸ limited_of_run (hrun.append hlast) hfresh hcycles⟩
  rw [hposts, handed_loop hending, hall.handed, List.flatMap_assoc]
  simp only [List.flatMap_map]

theorem permitted_of_works (h : Works process n ps begun t x) : ∀ y ∈ t, Permitted process y.1 := by
  obtain ⟨r, last, y, m, -, -, -, hlinked⟩ := h.carried
  exact (carried_of_linked hlinked (kept_machine process)).2.1

end Works

/-- However long the process runs, and whatever its daemon, its receivers and its host answer. -/
theorem main_delivers (h : (main passes hostname environ).Exec t (.ok x)) :
    (t = [] ∧ (x = .exit 2 ∨ ∃ e, x = .startupError e)) ∨
    ∃ config process ps begun, fromEnviron environ hostname = .ok config ∧ buildRunner config = .ok process ∧
      Works process passes ps begun t x ∧ Delivers config process (ps.map Pass.cycle ++ begun) t := by
  refine (works_of_exec_main h).imp_right ?_
  rintro ⟨config, process, ps, begun, hconfig, hbuilt, hworks⟩
  exact ⟨config, process, ps, begun, hconfig, hbuilt, hworks, delivers_of_works hbuilt hworks⟩

/-- What is sent goes where the environment says: the requests of the read surface to the endpoint of
the driver with its credential, posts to the address of a sink with the token that is set beside it,
and the collector looks at its own paths. -/
structure Confined (environ : Dict Str Str) (process : DriverProcess) (t : List (Exchange wire)) : Prop where
  permitted : ∀ y ∈ t, Permitted process y.1
  posts : ∀ post ∈ postsIn t, ∃ target ∈ pairs environ, Addressed target.2.1 target.2.2 post

omit [Python] [Loads] [Digits] in
theorem addressed_of_mem_postsOf {snapshot : DriverSnapshot} {sink : Process.Sink} {post : Post}
    (h : post ∈ postsOf snapshot sink) : Addressed sink.target.2.1 sink.target.2.2 post := by
  cases sink with
  | mirarun sink =>
    by_cases hcap : OverCap snapshot
    · rw [postsOf, if_pos hcap] at h
      cases h
    · rw [postsOf, if_neg hcap] at h
      obtain rfl := List.mem_singleton.mp h
      exact ⟨rfl, rfl⟩
  | admin sink =>
    obtain rfl := List.mem_singleton.mp h
    exact ⟨rfl, rfl⟩

/-- A process that refuses its environment sends nothing; one that does not keeps to it. -/
theorem main_confined (h : (main passes hostname environ).Exec t (.ok x)) :
    t = [] ∨ ∃ config process, fromEnviron environ hostname = .ok config ∧
      buildRunner config = .ok process ∧ Confined environ process t := by
  rcases works_of_exec_main h with ⟨rfl, -⟩ | ⟨config, process, ps, begun, hconfig, hbuilt, hworks⟩
  · exact .inl rfl
  · obtain ⟨hwell, hread⟩ := fromEnviron_ok hconfig
    obtain ⟨driver, hdriver⟩ := exists_driver hbuilt
    obtain ⟨process', hbuilt', hconfigured⟩ := exists_process hwell hread hdriver
    obtain rfl := Except.ok.inj (hbuilt.symm.trans hbuilt')
    refine .inr ⟨config, process, hconfig, hbuilt, permitted_of_works hworks, ?_⟩
    intro post hpost
    rw [(delivers_of_works hbuilt hworks).posted] at hpost
    obtain ⟨s, -, hpost⟩ := List.mem_flatMap.mp hpost
    obtain ⟨sink, hsink, hpost⟩ := List.mem_flatMap.mp hpost
    refine ⟨sink.target, ?_, addressed_of_mem_postsOf hpost⟩
    rw [← hconfigured.sinks]
    exact List.mem_map_of_mem hsink

end Python

/-! ## A host with one container -/

open MiraDriver.Reporter (listText statsText statsJson)

/-- The container, with the number of its restarts. -/
def restartsText (restarts : Str) : Str :=
  lit "\x7b\"Id\":\"0123456789ab\",\"Name\":\"/web\",\"RestartCount\":" ++ restarts ++
    lit ",\"Config\":\x7b\"Labels\":\x7b\x7d\x7d\x7d"

def restartsJson (restarts : Int) : Json :=
  .obj [(lit "Id", .str (lit "0123456789ab")), (lit "Name", .str (lit "/web")), (lit "RestartCount", .int restarts),
    (lit "Config", .obj [(lit "Labels", .obj [])])]

abbrev homeLoads : Loads := Loads.known [
  (Utf8.encode listText, .arr [.obj [(lit "Id", .str (lit "0123456789ab")), (lit "Names", .arr [.str (lit "/web")]),
    (lit "Labels", .obj [])]]),
  (Utf8.encode (restartsText ['0']), restartsJson 0), (Utf8.encode (restartsText ['1']), restartsJson 1),
  (Utf8.encode (statsText ['0'] ['0']), statsJson 0 0)]

/-- The daemon of a host with one container. It has written one line. -/
def homeDaemon (restarted : Bool) (url : Str) : Http.Reply :=
  let answer (body : List UInt8) : Http.Reply := .response 200 [body] true
  if (lit "containers/json").isSuffixOf url then answer (Utf8.encode listText)
  else if (lit "containers/web/json").isSuffixOf url then
    answer (Utf8.encode (restartsText (if restarted then ['1'] else ['0'])))
  else if (lit "containers/web/stats").isSuffixOf url then answer (Utf8.encode (statsText ['0'] ['0']))
  else if (lit "containers/web/logs").isSuffixOf url then
    answer ([1, 0, 0, 0, 0, 0, 0, 4] ++ Utf8.encode (lit "bye\n"))
  else .response 404 [] true

/-- The container is restarted after the first pass. The receiver is up, and the host can be read. -/
def home (restarted : Bool) : (c : WireCall) → WireReply c × Bool
  | .request sent => (homeDaemon restarted sent.url, restarted)
  | .post _ => (.response 200 [], restarted)
  | .host c =>
    ((Metrics.hostOf (Metrics.filesAfter "cpu  100 0 100 700 100\ncpu0 1\n" Metrics.meminfo) () c).1, restarted)
  | .now => (lit "2026-01-01T00:00:00+00:00", restarted)
  | .timer .isSet => (false, restarted)
  | .timer .monotonic => (0, restarted)
  | .timer (.wait _) => (some false, true)

/-- Two passes. -/
def homeMain : Except Empty (ProcessEnd Process.Sink) × List (Exchange wire) × Bool :=
  (@main Python.ascii homeLoads Digits.ascii FloatRepr.hundredths 2 (lit "vps1") downEnviron).serve
    (I := wire) home false

def homeEnd : ProcessEnd Process.Sink :=
  match homeMain.1 with
  | .ok x => x

theorem exec_homeMain :
    (@main Python.ascii homeLoads Digits.ascii FloatRepr.hundredths 2 (lit "vps1") downEnviron).Exec
      homeMain.2.1 (.ok homeEnd) := by
  have h := (@main Python.ascii homeLoads Digits.ascii FloatRepr.hundredths 2 (lit "vps1")
    downEnviron).exec_serve (I := wire) home false
  unfold homeEnd
  cases hout : homeMain.1 with
  | ok x => exact hout ▸ h
  | error e => cases e

theorem main_delivers_restarted : (postsIn homeMain.2.1).length = 2 ∧
    ((homeMain.2.1 = [] ∧ (homeEnd = .exit 2 ∨ ∃ e, homeEnd = .startupError e)) ∨
    ∃ config process ps begun,
      @fromEnviron downEnviron Python.ascii Digits.ascii (lit "vps1") = .ok config ∧
      buildRunner config = .ok process ∧
      @Works Python.ascii homeLoads Digits.ascii FloatRepr.hundredths process 2 ps begun homeMain.2.1 homeEnd ∧
      @Delivers Python.ascii homeLoads FloatRepr.hundredths config process (ps.map Pass.cycle ++ begun)
        homeMain.2.1) :=
  ⟨by decide +kernel, @main_delivers Python.ascii homeLoads Digits.ascii FloatRepr.hundredths
    2 _ _ _ _ exec_homeMain⟩

/-- Requests, posts and looks at the host. -/
def sent (t : List (Exchange wire)) : Nat × Nat × Nat :=
  (t.countP fun y => y.1 matches .request _, t.countP fun y => y.1 matches .post _,
    t.countP fun y => y.1 matches .host _)

theorem main_confined_restarted : sent homeMain.2.1 = (14, 2, 12) ∧
    (homeMain.2.1 = [] ∨ ∃ config process,
      @fromEnviron downEnviron Python.ascii Digits.ascii (lit "vps1") = .ok config ∧
      buildRunner config = .ok process ∧ Confined downEnviron process homeMain.2.1) :=
  ⟨by decide +kernel, @main_confined Python.ascii homeLoads Digits.ascii FloatRepr.hundredths 2 _ _ _ _ exec_homeMain⟩

end MiraDriver.Wire
