import MiraDriver.Daemon
import MiraDriver.Drivers

/-!
# The read surface

Whatever string a caller hands to `describe`, `logs`, `stats` or `revision`, the requests
made with it stay within five forms, and there are none unless the string is an address
of this driver's own.
-/
namespace MiraDriver.ReadSurface

open MiraDriver.Text MiraDriver.Base MiraDriver.Uri MiraDriver.Document MiraDriver.Identity
  MiraDriver.Inspect MiraDriver.Http MiraDriver.Docker MiraDriver.Program MiraDriver.Drivers

/-- One path segment of the Docker API, which no URL parser takes for anything else. -/
structure ApiSegment (x : Str) : Prop where
  isSegment : IsSegment x
  plain : ∀ c ∈ ['/', '?', '#', '%'], c ∉ x
  notDot : x ≠ ['.']
  notDots : x ≠ ['.', '.']

/-- The paths, each with its parameters. -/
inductive Bounded : Str → List (Str × Str) → Prop
  | list : Bounded (lit "containers/json") [(lit "all", lit "true")]
  | inspect {x : Str} (h : ApiSegment x) : Bounded (containerPath x "/json") []
  | logs {x : Str} (h : ApiSegment x) {tail : Int} (hmin : 1 ≤ tail) (hmax : tail ≤ 1000) :
      Bounded (containerPath x "/logs") (logParams tail)
  | stats {x : Str} (h : ApiSegment x) :
      Bounded (containerPath x "/stats") [(lit "stream", lit "false"), (lit "one-shot", lit "true")]
  | archive {x : Str} (h : ApiSegment x) :
      Bounded (containerPath x "/archive") [(lit "path", lit "/GIT_REVISION")]

/-- The operations that take an address. -/
inductive Read where
  | describe
  | logs (tail : Int)
  | stats
  | revision

variable [Python] [Loads]

/-- Run an operation, for its requests. -/
def Read.run (reference uri : Str) : Read → Prog http Exn Unit
  | .describe => do
    let _ ← Docker.describe reference uri
    pure ()
  | .logs tail => do
    let _ ← Docker.logs reference uri tail
    pure ()
  | .stats => do
    let _ ← Docker.stats reference uri
    pure ()
  | .revision => do
    let _ ← Docker.revision reference uri
    pure ()

omit [Python] [Loads] in
theorem apiSegment {x : Str} (h : IsSegment x) : ApiSegment x := by
  refine ⟨h, ?_, ?_, ?_⟩
  · rcases h with rfl | h
    · simp [orphans, lit_def]
    · intro c hc hx
      have hclass := h.chars c hx
      revert hclass
      simp only [List.mem_cons, List.not_mem_nil, or_false] at hc
      rcases hc with rfl | rfl | rfl | rfl <;> decide
  all_goals
    rintro rfl
    rcases h with h | h
    · simp [orphans, lit_def] at h
    · have hfirst := h.first '.' rfl
      revert hfirst
      decide

/-- The string is a canonical address of this driver's own reference, and a tail is in
range. -/
def Admissible (reference uri : Str) (op : Read) : Prop :=
  (∃ a : DockerAddress, Canonical a ∧ a.uri = uri ∧ a.targetReference = reference) ∧
    ∀ tail, op = .logs tail → 1 ≤ tail ∧ tail ≤ 1000

section Within

variable {α β : Type}

/-- The calls of a program stay within the bounded forms. -/
abbrev Within (p : Prog http Exn α) : Prop := p.AllCalls fun q : Request => Bounded q.path q.params

omit [Python] [Loads] in
theorem within_readResponse {path : Str} {params : List (Str × Str)} (h : Bounded path params)
    (maximumBytes : Nat) (truncate : Bool) : Within (readResponse path params maximumBytes truncate) := by
  apply Prog.allCalls_bind
  · exact (Prog.allCalls_ask (I := http) (ε := Exn) ⟨path, params⟩).mpr h
  · intro reply
    apply Prog.allCalls_ofExcept

omit [Python] in
theorem within_getJson {path : Str} {params : List (Str × Str)} (h : Bounded path params) :
    Within (getJson path params) := by
  apply Prog.allCalls_bind (within_readResponse h _ _)
  intro response
  apply Prog.allCalls_ofExcept

theorem within_describe (reference uri : Str) : Within (describe reference uri) := by
  apply Prog.allCalls_ofExcept_bind
  intro address ha
  split
  · apply Prog.allCalls_bind
    · apply Prog.allCalls_bind (within_getJson .list)
      intro document
      apply Prog.allCalls_ofExcept
    · intro resources
      split
      · apply Prog.allCalls_pure
      · apply Prog.allCalls_throw
  · rename_i container hcontainer
    have hsegment := (ownAddress_ok_iff.mp ha).1.container container hcontainer
    apply Prog.allCalls_bind (within_getJson (.inspect (apiSegment hsegment)))
    intro document
    apply Prog.allCalls_ofExcept

theorem within_inspectAddressed (reference uri : Str) (message : String) (check : Except Exn Unit) :
    Within (inspectAddressed reference uri message check) := by
  apply Prog.allCalls_ofExcept_bind
  intro address ha
  apply Prog.allCalls_ofExcept_bind
  intro container hcontainer
  have hsegment :=
    (ownAddress_ok_iff.mp ha).1.container container (requireContainer_ok_iff.mp hcontainer)
  apply Prog.allCalls_ofExcept_bind
  intro _ _
  apply Prog.allCalls_bind (within_getJson (.inspect (apiSegment hsegment)))
  intro document
  apply Prog.allCalls_bind (Prog.allCalls_ofExcept _)
  intro checked
  apply Prog.allCalls_pure

/-- What follows an inspected address has a segment to use, and the operation's own check
behind it. -/
theorem within_inspectAddressed_bind {reference uri : Str} {message : String}
    {check : Except Exn Unit} {f : Str × Object → Prog http Exn α}
    (hf : ∀ container inspect, ApiSegment container → check = .ok () →
      Within (f (container, inspect))) :
    Within (inspectAddressed reference uri message check >>= f) := by
  apply Prog.allCalls_bind_of_exec (within_inspectAddressed reference uri message check)
  intro t out h
  obtain ⟨container, inspect⟩ := out
  obtain ⟨address, document, c, reply, ha, hcontainer, hcheck, -⟩ := exec_inspectAddressed_ok.mp h
  have hsegment := (ownAddress_ok_iff.mp ha).1.container container hcontainer
  exact hf container inspect (apiSegment hsegment) hcheck

theorem within_run (reference uri : Str) (op : Read) : Within (op.run reference uri) := by
  cases op with
  | describe => exact Prog.allCalls_bind (within_describe reference uri) fun _ => trivial
  | logs tail =>
    refine Prog.allCalls_bind ?_ fun _ => trivial
    apply within_inspectAddressed_bind
    intro container inspect hsegment hcheck
    obtain ⟨hmin, hmax⟩ := checkTail_ok_iff.mp hcheck
    apply Prog.allCalls_bind (within_readResponse (.logs hsegment hmin hmax) _ _)
    intro response
    apply Prog.allCalls_ofExcept
  | stats =>
    refine Prog.allCalls_bind ?_ fun _ => trivial
    apply within_inspectAddressed_bind
    intro container inspect hsegment _
    apply Prog.allCalls_bind (within_getJson (.stats hsegment))
    intro document
    apply Prog.allCalls_ofExcept
  | revision =>
    refine Prog.allCalls_bind ?_ fun _ => trivial
    apply within_inspectAddressed_bind
    intro container inspect hsegment _
    apply Prog.allCalls_bind (Prog.allCalls_attempt (within_readResponse (.archive hsegment) _ _))
    intro archive
    split
    · apply Prog.allCalls_ofExcept
    · split
      · apply Prog.allCalls_pure
      · apply Prog.allCalls_throw

/-- A program that makes no call. -/
abbrev Silent (p : Prog http Exn α) : Prop := p.AllCalls fun _ => False

omit [Python] [Loads] in
theorem Silent.exec {p : Prog http Exn α} (hp : Silent p) {t : List (Exchange http)}
    {out : Except Exn α} (h : p.Exec t out) : t = [] :=
  List.eq_nil_iff_forall_not_mem.mpr fun x hx => hp.of_exec h x hx

theorem silent_inspectAddressed_bind {reference uri : Str} {message : String}
    {check : Except Exn Unit}
    (h : ∀ address, ownAddress reference uri = .ok address → check ≠ .ok ())
    (f : Str × Object → Prog http Exn α) :
    Silent (inspectAddressed reference uri message check >>= f) := by
  apply Prog.allCalls_bind_of_exec
  · apply Prog.allCalls_ofExcept_bind
    intro address ha
    apply Prog.allCalls_ofExcept_bind
    intro container _
    apply Prog.allCalls_ofExcept_bind
    intro _ hcheck
    exact absurd hcheck (h address ha)
  · intro t out hexec
    obtain ⟨address, _, _, _, ha, -, hcheck, -⟩ := exec_inspectAddressed_ok.mp hexec
    exact absurd hcheck (h address ha)

/-- Without an address of its own, or with a tail out of range, an operation ends before
its first request. -/
theorem silent_run {reference uri : Str} {op : Read} (h : ¬ Admissible reference uri op) :
    Silent (op.run reference uri) := by
  have hguard (address : DockerAddress) (ha : ownAddress reference uri = .ok address)
      (htail : ∀ tail, op = .logs tail → 1 ≤ tail ∧ tail ≤ 1000) : False :=
    h ⟨⟨address, ownAddress_ok_iff.mp ha⟩, htail⟩
  cases op with
  | describe =>
    refine Prog.allCalls_bind ?_ fun _ => trivial
    apply Prog.allCalls_ofExcept_bind
    intro address ha
    exact (hguard address ha (by simp)).elim
  | logs tail =>
    refine Prog.allCalls_bind (silent_inspectAddressed_bind ?_ _) fun _ => trivial
    intro address ha hcheck
    apply hguard address ha
    rintro _ ⟨⟩
    exact checkTail_ok_iff.mp hcheck
  | stats =>
    refine Prog.allCalls_bind (silent_inspectAddressed_bind ?_ _) fun _ => trivial
    intro address ha _
    exact hguard address ha (by simp)
  | revision =>
    refine Prog.allCalls_bind (silent_inspectAddressed_bind ?_ _) fun _ => trivial
    intro address ha _
    exact hguard address ha (by simp)

end Within

/-- Everything sent in an interaction is a `GET` of one of the five forms below the base
URL, and nothing is sent for an address that is not admissible. -/
def StaysBounded (driver : Driver) (uri : Str) (op : Read) (t : List (Exchange http)) : Prop :=
  (∀ s ∈ driver.sent t, s.method = lit "GET" ∧
    ∃ path, s.url = driver.client.baseUrl ++ path ∧ Bounded path s.params) ∧
  (¬ Admissible driver.reference uri op → driver.sent t = [])

theorem run_staysBounded (driver : Driver) (uri : Str) (op : Read) (t : List (Exchange http))
    (out : Except Exn Unit) (h : (op.run driver.reference uri).Exec t out) :
    StaysBounded driver uri op t := by
  constructor
  · intro s hs
    obtain ⟨x, hx, rfl⟩ := List.mem_map.mp hs
    exact ⟨rfl, x.1.path, rfl, (within_run driver.reference uri op).of_exec h x hx⟩
  · intro hnot
    rw [(silent_run hnot).exec h]
    rfl

/-- A Portainer instance in front of one container, with an empty log. -/
def webReply (_ : Unit) (q : Request) : Reply × Unit :=
  if q = inspectRequest (lit "web") then
    (Daemon.found (Daemon.inspectBytes (lit "0123456789ab") (lit "shop")), ())
  else (Daemon.found [], ())

def webLogs : Except Exn Unit × List (Exchange http) × Unit :=
  Prog.serve webReply (@Read.run Python.ascii Daemon.recreatedLoads (lit "local")
    Daemon.recreatedAddress.uri (.logs 10)) ()

def portainerDriver : Driver :=
  .portainer (lit "local") (lit "http://portainer/api/endpoints/1/docker") (lit "key")

def sentByPortainer (path : String) (params : List (Str × Str)) : Sent :=
  ⟨lit "GET", lit "http://portainer/api/endpoints/1/docker/containers/web" ++ lit path, params,
    [(lit "X-API-Key", lit "key")]⟩

omit [Python] [Loads] in
/-- The container is inspected, and its log is read. -/
theorem run_staysBounded_web :
    portainerDriver.sent webLogs.2.1 = [sentByPortainer "/json" [], sentByPortainer "/logs" (logParams 10)] ∧
    StaysBounded portainerDriver Daemon.recreatedAddress.uri (.logs 10) webLogs.2.1 :=
  ⟨by decide +kernel, @run_staysBounded Python.ascii Daemon.recreatedLoads portainerDriver
    Daemon.recreatedAddress.uri (.logs 10) webLogs.2.1 webLogs.1 (Prog.exec_serve _ _ ())⟩

end MiraDriver.ReadSurface
