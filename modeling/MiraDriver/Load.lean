import MiraDriver.Cost
import MiraDriver.Wire

/-!
# The load of the process

How many requests the process makes to its daemon, how many posts to its receivers, and how
often it looks at its host.
-/
namespace MiraDriver.Load

open MiraDriver.Text MiraDriver.Mapping MiraDriver.Base MiraDriver.Program MiraDriver.Document
  MiraDriver.Numerals MiraDriver.Inventory MiraDriver.Http MiraDriver.Runner MiraDriver.Cycle
  MiraDriver.Lifecycle MiraDriver.Drivers MiraDriver.Sinks MiraDriver.Admin MiraDriver.Config
  MiraDriver.Process MiraDriver.Footprint MiraDriver.Isolation MiraDriver.Schedule MiraDriver.Wire

/-! ## The operations of a driver -/

section Operations

/-- Every request counts. -/
def perRequest (_ : Request) : Nat := 1

abbrev Requests {α : Type} (n : Nat) (p : Prog http Exn α) : Prop := p.Spends (I := http) perRequest n

theorem requests_readResponse (path : Str) (params : List (Str × Str)) (maximumBytes : Nat) (truncate : Bool) :
    Requests 1 (readResponse path params maximumBytes truncate) := by
  apply Prog.spends_bind_free (Prog.spends_ask (I := http) _)
  intro reply
  apply Prog.spends_ofExcept

variable [Loads]

theorem requests_getJson (path : Str) (params : List (Str × Str)) : Requests 1 (getJson path params) := by
  apply Prog.spends_bind_free (requests_readResponse _ _ _ _)
  intro response
  apply Prog.spends_ofExcept

variable [Python] (reference uri : Str)

theorem requests_query (q : DriverResourceQuery) : Requests 1 (Docker.query reference q) := by
  apply Prog.spends_bind_free (requests_getJson _ _)
  intro document
  apply Prog.spends_ofExcept

theorem requests_describe : Requests 1 (Docker.describe reference uri) := by
  apply Prog.spends_ofExcept_bind
  intro address
  split
  · apply Prog.spends_bind_free (requests_query _ _)
    intro resources
    split
    · apply Prog.spends_pure
    · apply Prog.spends_throw
  · apply Prog.spends_bind_free (requests_getJson _ _)
    intro document
    apply Prog.spends_ofExcept

theorem requests_inspectAddressed (message : String) (check : Except Exn Unit) :
    Requests 1 (Docker.inspectAddressed reference uri message check) := by
  apply Prog.spends_ofExcept_bind
  intro address
  apply Prog.spends_ofExcept_bind
  intro container
  apply Prog.spends_ofExcept_bind
  intro _
  apply Prog.spends_bind_free (requests_getJson _ _)
  intro document
  apply Prog.spends_ofExcept_bind
  intro checked
  apply Prog.spends_pure

theorem requests_logs (tail : Int) : Requests 2 (Docker.logs reference uri tail) := by
  apply Prog.spends_bind (n := 1) (requests_inspectAddressed _ _ _ _)
  rintro ⟨container, inspect⟩
  apply Prog.spends_bind_free (requests_readResponse _ _ _ _)
  intro response
  apply Prog.spends_ofExcept

theorem requests_stats : Requests 2 (Docker.stats reference uri) := by
  apply Prog.spends_bind (n := 1) (requests_inspectAddressed _ _ _ _)
  rintro ⟨container, inspect⟩
  apply Prog.spends_bind_free (requests_getJson _ _)
  intro document
  apply Prog.spends_ofExcept

theorem requests_revision : Requests 2 (Docker.revision reference uri) := by
  apply Prog.spends_bind (n := 1) (requests_inspectAddressed _ _ _ _)
  rintro ⟨container, inspect⟩
  apply Prog.spends_bind_free (Prog.spends_attempt (requests_readResponse _ _ _ _))
  intro archive
  cases archive with
  | ok response => apply Prog.spends_ofExcept
  | error e =>
    dsimp only
    split
    · apply Prog.spends_pure
    · apply Prog.spends_throw

end Operations

/-! ## A cycle -/

/-- A price for each call of the runner. -/
structure Prices where
  query : Nat
  describe : Nat
  stats : Nat
  revision : Nat
  logs : Nat
  collect : Nat
  publish : Nat

namespace Prices

variable {σ : Type} (p : Prices)

def price : Call σ → Nat
  | .now => 0
  | .query _ => p.query
  | .describe _ => p.describe
  | .stats _ => p.stats
  | .revision _ => p.revision
  | .logs _ _ => p.logs
  | .collect => p.collect
  | .publish _ _ => p.publish

/-- What is asked about one container. -/
def perContainer : Nat := p.describe + (p.stats + (p.revision + p.logs))

end Prices

/-- How many resources the inventory has in an interaction. -/
def listed {σ : Type} (t : List (Exchange (Env σ))) : Nat :=
  ((listings t).map fun reply => (reply.toOption.getD []).length).sum

section Cycle

variable {σ : Type} (p : Prices) {r : DriverRunner σ}

abbrev Spends {α : Type} (n : Nat) (q : Prog (Env σ) Exn α) : Prop := q.Spends (I := Env σ) p.price n

theorem spends_call {ε : Type} (c : Call σ) :
    (call c : Prog (Env σ) ε (Reply c)).Spends (I := Env σ) p.price (p.price c) :=
  Prog.spends_ask (I := Env σ) c

theorem spends_sampleStats (uri : Str) : Spends p p.stats (sampleStats r uri) := by
  unfold sampleStats
  split
  · apply Prog.spends_bind_free (spends_call p (.stats uri))
    intro reply
    apply Prog.spends_ofExcept
  · apply Prog.spends_pure

theorem spends_sampleRevision (uri : Str) : Spends p p.revision (sampleRevision r uri) := by
  unfold sampleRevision
  split
  · apply Prog.spends_bind_free (spends_call p (.revision uri))
    intro reply
    apply Prog.spends_ofExcept
  · apply Prog.spends_pure

theorem spends_detectEvent (previous : Option Baseline) (details : DriverResourceDetails) (occurredAt : Str) :
    Spends p p.logs (detectEvent r previous details occurredAt) := by
  unfold detectEvent
  split
  · apply Prog.spends_pure
  · apply Prog.spends_bind_free
    · apply Prog.spends_bind_free (spends_call p (.logs _ _))
      intro reply
      apply Prog.spends_ofExcept
    · intro logTail
      apply Prog.spends_pure

theorem spends_observe (collectedAt : Str) (progress : Progress) (resource : DriverResource) :
    Spends p p.perContainer (observe r collectedAt progress resource) := by
  apply Prog.spends_bind (spends_call p (.describe resource.uri))
  intro described
  cases described with
  | ok details =>
    apply Prog.spends_bind (spends_sampleStats p resource.uri)
    intro stats
    apply Prog.spends_bind (spends_sampleRevision p resource.uri)
    intro revision
    apply Prog.spends_ofExcept_bind
    intro cpu
    apply Prog.spends_bind_free (spends_detectEvent p _ _ _)
    intro event
    apply Prog.spends_pure
  | error e =>
    dsimp only
    split
    · apply Prog.spends_pure
    · apply Prog.spends_throw

theorem spends_observeAll (collectedAt : Str) (progress : Progress) (resources : List DriverResource) :
    Spends p (resources.length * p.perContainer) (observeAll r collectedAt progress resources) := by
  induction resources generalizing progress with
  | nil => exact Prog.spends_pure _ _
  | cons resource rest ih =>
    rw [List.length_cons, Nat.add_mul, Nat.one_mul, Nat.add_comm]
    exact Prog.spends_bind (spends_observe p collectedAt progress resource) ih

theorem spends_collectHost : Spends p p.collect (collectHost r) := by
  unfold collectHost
  split
  · apply Prog.spends_bind_free (spends_call p .collect)
    intro reply
    cases reply with
    | ok samples => apply Prog.spends_pure
    | error e =>
      dsimp only
      split
      · apply Prog.spends_pure
      · apply Prog.spends_throw
  · apply Prog.spends_pure

theorem spends_publishAll (snapshot : DriverSnapshot) (sinks : List σ) :
    Spends p (sinks.length * p.publish) (publishAll snapshot sinks) := by
  induction sinks with
  | nil => exact Prog.spends_pure _ _
  | cons sink rest ih =>
    have hsum : (sink :: rest).length * p.publish =
        p.price (.publish sink snapshot) + rest.length * p.publish := by
      rw [List.length_cons, Nat.add_mul, Nat.one_mul, Nat.add_comm, Prices.price]
    rw [hsum]
    apply Prog.spends_bind (spends_call p (.publish sink snapshot))
    intro reply
    cases reply with
    | ok u => exact ih
    | error e =>
      dsimp only
      split
      · exact ih
      · apply Prog.spends_throw

/-- A poll asks for the inventory once, and for each container that is listed. -/
theorem cost_of_exec_poll {t : List (Exchange (Env σ))} {x : Except Exn (Str × Progress)}
    (h : (poll r).Exec t x) : cost (I := Env σ) p.price t ≤ p.query + listed t * p.perContainer := by
  obtain ⟨collectedAt, t, rfl, hquery⟩ := exec_call_bind.mp h
  obtain ⟨reply, t, rfl, hloop⟩ := exec_call_bind.mp hquery
  simp only [cost_cons, Prices.price, Nat.zero_add]
  apply Nat.add_le_add_left
  cases reply with
  | error e =>
    obtain ⟨rfl, -⟩ := hloop
    exact Nat.zero_le _
  | ok resources =>
    have hwalk : (observeAll r collectedAt ⟨[], [], Dict.empty⟩ resources >>= fun progress =>
        pure (collectedAt, progress)).Exec t x := hloop
    have hspends : Spends p (resources.length * p.perContainer) (observeAll r collectedAt
        ⟨[], [], Dict.empty⟩ resources >>= fun progress => pure (collectedAt, progress)) := by
      apply Prog.spends_bind_free (spends_observeAll p _ _ _)
      intro progress
      apply Prog.spends_pure
    refine (hspends t x hwalk).trans (Nat.mul_le_mul_right _ ?_)
    exact Nat.le_add_right _ _

omit p in
theorem listed_append (s t : List (Exchange (Env σ))) : listed (s ++ t) = listed s + listed t := by
  simp [listed]

/-- The price of a cycle over so many sinks that has listed so many containers. -/
def Prices.cycle (sinks containers : Nat) : Nat :=
  p.query + containers * p.perContainer + p.collect + sinks * p.publish

theorem cost_of_exec_collect {t : List (Exchange (Env σ))} {out : Except Exn DriverSnapshot}
    {r' : DriverRunner σ} (h : (collect r).Exec t (.ok (out, r'))) :
    cost (I := Env σ) p.price t ≤ p.query + listed t * p.perContainer + p.collect := by
  obtain ⟨t₁, t₂, polled, rfl, hpoll, hbody⟩ := Prog.exec_attempt_bind.mp h
  have hone := cost_of_exec_poll p hpoll
  rw [cost_append, listed_append, Nat.add_mul]
  cases polled with
  | error e =>
    obtain ⟨rfl, -⟩ := hbody
    rw [cost_nil]
    omega
  | ok gathered =>
    obtain ⟨t₃, t₄, host, rfl, hhost, rfl, -⟩ := Prog.exec_attempt_bind.mp hbody
    have htwo := spends_collectHost p t₃ host hhost
    rw [List.append_nil]
    omega

theorem cost_of_exec_runOnce {t : List (Exchange (Env σ))} {out : Except Exn DriverSnapshot}
    {r' : DriverRunner σ} (h : (runOnce r).Exec t (.ok (out, r'))) :
    cost (I := Env σ) p.price t ≤ p.cycle r.sinks.length (listed t) := by
  obtain ⟨t₁, t₂, collected, rfl, hcollect, -, hcases⟩ := Isolation.exec_runOnce_split h
  have hone := cost_of_exec_collect p hcollect
  rw [cost_append, listed_append, Prices.cycle, Nat.add_mul]
  rcases hcases with ⟨e, -, -, rfl⟩ | ⟨snapshot, result, -, hpublish, -⟩
  · rw [cost_nil]
    omega
  · have htwo := spends_publishAll p snapshot r'.sinks t₂ result hpublish
    rw [(exec_collect_runner hcollect).1] at htwo
    omega

end Cycle

/-! ## The loop -/

section Loop

variable (p : Prices) {interval : Rat} {r r' : DriverRunner Process.Sink}

/-- The clock and the event cost nothing. -/
def loopPrice {σ : Type} (p : Prices) : (Schedule.Loop σ).Call → Nat
  | .inl c => p.price c
  | .inr _ => 0

theorem cost_map_inl {σ : Type} (t : List (Exchange (Env σ))) :
    cost (I := Schedule.Loop σ) (loopPrice p) (t.map .inl) = cost (I := Env σ) p.price t := by
  induction t with
  | nil => rfl
  | cons x t ih =>
    rw [List.map_cons, cost_cons, cost_cons, ih]
    rfl

theorem cost_trace {σ : Type} (q : Pass σ) :
    cost (I := Schedule.Loop σ) (loopPrice p) (q.trace interval) = cost (I := Env σ) p.price q.cycle.trace := by
  rw [Pass.trace, cost_append, cost_append, cost_map_inl]
  exact Nat.zero_add _

/-- How many resources each inventory has that is asked for. -/
def inventories {σ : Type} (u : List (Exchange (Schedule.Loop σ))) : List Nat :=
  u.filterMap fun
    | ⟨.inl (.query _), reply⟩ => some (reply.toOption.getD []).length
    | _ => none

theorem inventories_append {σ : Type} (u v : List (Exchange (Schedule.Loop σ))) :
    inventories (u ++ v) = inventories u ++ inventories v := List.filterMap_append

theorem inventories_map_inl {σ : Type} (t : List (Exchange (Env σ))) :
    inventories (t.map .inl) = (listings t).map fun reply => (reply.toOption.getD []).length := by
  induction t with
  | nil => rfl
  | cons x t ih =>
    obtain ⟨c, reply⟩ := x
    cases c with
    | query q => exact congrArg (_ :: ·) ih
    | _ => exact ih

/-- There is one inventory in a cycle. -/
theorem inventories_cycle {σ : Type} {r r' : DriverRunner σ} {t : List (Exchange (Env σ))}
    {out : Except Exn DriverSnapshot} (h : (runOnce r).Exec t (.ok (out, r'))) :
    inventories (t.map .inl) = [listed t] := by
  obtain ⟨time, reply, s, rfl, hquiet⟩ := exec_runOnce_listing h
  have hs : listings s = [] := by
    apply List.filterMap_eq_nil_iff.mpr
    intro ⟨c, x⟩ hx
    cases c with
    | query q => exact absurd trivial (hquiet _ hx)
    | _ => rfl
  have hone : listings (⟨.now, time⟩ :: ⟨.query (.all .container), reply⟩ :: s : List (Exchange (Env σ))) =
      [reply] := congrArg (reply :: ·) hs
  rw [inventories_map_inl, listed, hone]
  rfl

theorem inventories_trace {σ : Type} {r r' : DriverRunner σ} {q : Pass σ}
    (h : (runOnce r).Exec q.cycle.trace (.ok (q.cycle.outcome, r'))) :
    inventories (q.trace interval) = [listed q.cycle.trace] := by
  rw [Pass.trace, inventories_append, inventories_append, inventories_cycle h]
  rfl

theorem sinks_of_exec_runOnce {σ : Type} {r r' : DriverRunner σ} {t : List (Exchange (Env σ))}
    {out : Except Exn DriverSnapshot} (h : (runOnce r).Exec t (.ok (out, r'))) : r'.sinks = r.sinks := by
  obtain ⟨t₁, t₂, collected, rfl, hcollect, -, -⟩ := Isolation.exec_runOnce_split h
  exact (exec_collect_runner hcollect).1

/-- The price of some cycles over so many sinks. -/
def Prices.total (sinks : Nat) (inventories : List Nat) : Nat := (inventories.map (p.cycle sinks)).sum

theorem cost_traceOf (interval : Rat) {passes : List (Pass Process.Sink)} (h : Run r (passes.map Pass.cycle) r') :
    r'.sinks = r.sinks ∧ (inventories (traceOf interval passes)).length = passes.length ∧
      cost (I := Schedule.Loop Process.Sink) (loopPrice p) (traceOf interval passes) ≤
        p.total r.sinks.length (inventories (traceOf interval passes)) := by
  induction passes generalizing r with
  | nil =>
    cases h with
    | nil => exact ⟨rfl, rfl, Nat.zero_le _⟩
  | cons q passes ih =>
    cases h with
    | cons hstep hrest =>
      obtain ⟨hsinks, hlength, hcost⟩ := ih hrest
      have hone := cost_of_exec_runOnce p hstep
      have hsinks' := sinks_of_exec_runOnce hstep
      rw [hsinks'] at hsinks hcost
      refine ⟨hsinks, ?_, ?_⟩
      · rw [traceOf, List.flatMap_cons, inventories_append, inventories_trace hstep]
        exact congrArg Nat.succ hlength
      · rw [traceOf, List.flatMap_cons, inventories_append, inventories_trace hstep, cost_append, cost_trace]
        exact Nat.add_le_add hone hcost

/-- What the loop calls costs what its cycles cost, of which there is at most one in a pass. -/
theorem cost_of_exec_runForever {n : Nat} {u : List (Exchange (Schedule.Loop Process.Sink))}
    {y : Except Exn (Option (DriverRunner Process.Sink))} (h : (runForever interval n r).Exec u y) :
    (inventories u).length ≤ n ∧
      cost (I := Schedule.Loop Process.Sink) (loopPrice p) u ≤ p.total r.sinks.length (inventories u) := by
  obtain ⟨passes, begun, last, r', hrun, -, rfl, hending⟩ := exec_runForever h
  obtain ⟨hsinks, hlength, hcost⟩ := cost_traceOf p interval hrun
  rw [inventories_append, List.length_append, cost_append, Prices.total, List.map_append, List.sum_append, hlength]
  cases hending with
  | going hn => exact ⟨hn.le, Nat.add_le_add hcost (Nat.zero_le _)⟩
  | stopped hn => exact ⟨hn.le, Nat.add_le_add hcost (Nat.zero_le _)⟩
  | @raised started c rest e q hn hstep hbreaks =>
    have hone := cost_of_exec_runOnce p hstep
    have hrest : inventories rest = [] ∧ cost (I := Schedule.Loop Process.Sink) (loopPrice p) rest = 0 := by
      cases hbreaks <;> exact ⟨rfl, rfl⟩
    have hinventories : inventories (opening started ++ (c.trace.map .inl ++ rest) :
        List (Exchange (Schedule.Loop _))) = [listed c.trace] := by
      rw [inventories_append, inventories_append, inventories_cycle hstep, hrest.1]
      rfl
    rw [hinventories]
    refine ⟨hn, Nat.add_le_add hcost ?_⟩
    rw [cost_append, cost_append, cost_map_inl, hrest.2]
    rw [hsinks] at hone
    simpa [opening, Exchange.inr, loopPrice] using hone

end Loop

/-! ## On the wire -/

/-- A price for a request to the daemon, for a post and for a look at the host. -/
structure WirePrices where
  request : Nat
  post : Nat
  look : Nat

namespace WirePrices

variable (w : WirePrices)

def price : WireCall → Nat
  | .request _ => w.request
  | .post _ => w.post
  | .host _ => w.look
  | _ => 0

/-- What the calls of the runner cost, with a collector of so many filesystems. -/
def upper (disks : Nat) : Prices where
  query := w.request * 1
  describe := w.request * 1
  stats := w.request * 2
  revision := w.request * 2
  logs := w.request * 2
  collect := w.look * (5 + disks)
  publish := w.post * 1

end WirePrices

section Wire

/-- Every look counts. -/
def perLook (_ : Metrics.Call) : Nat := 1

theorem spends_reader {collector : Metrics.HostMetricsCollector} {α : Type} {name : String}
    (parse : Str → Except Exn α) : (collector.reader name parse).Spends perLook 1 := by
  intro t x h
  obtain ⟨reply, rfl, -⟩ := Metrics.exec_reader h
  exact Nat.le_refl 1

theorem spends_filesystems (disks : List (Str × Str)) :
    (Metrics.filesystems disks).Spends perLook disks.length := by
  induction disks with
  | nil => exact Prog.spends_pure _ _
  | cons d disks ih =>
    obtain ⟨mountpoint, path⟩ := d
    rw [List.length_cons, Nat.add_comm]
    apply Prog.spends_bind (Prog.spends_ask (I := Metrics.host) (.statvfs path))
    intro reply
    apply Prog.spends_ofExcept_bind
    intro stats
    apply Prog.spends_ofExcept_bind
    intro samples
    apply Prog.spends_bind_free ih
    intro more
    apply Prog.spends_pure

variable [Python] [Digits]

theorem spends_collect (collector : Metrics.HostMetricsCollector) :
    collector.collect.Spends perLook (5 + collector.disks.entries.length) := by
  have hfirst : collector.firstSamples.Spends perLook 2 := by
    apply Prog.spends_bind (n := 1) (spends_reader _)
    intro load
    apply Prog.spends_bind_free (spends_reader _)
    intro count
    apply Prog.spends_pure
  have hlast (c : Metrics.HostMetricsCollector) : c.lastSamples.Spends perLook (2 + c.disks.entries.length) := by
    have hsorted : (Metrics.sortedPairs c.disks.entries).length = c.disks.entries.length :=
      List.length_insertionSort _ _
    rw [← hsorted, Nat.add_assoc 1 1]
    apply Prog.spends_bind (spends_reader _)
    intro memory
    apply Prog.spends_bind (spends_reader _)
    intro uptime
    apply Prog.spends_bind_free (spends_filesystems _)
    intro disks
    apply Prog.spends_pure
  intro t r h
  cases r with
  | error e => exact nomatch e
  | ok out =>
    obtain ⟨out, collector'⟩ := out
    rcases Metrics.exec_collect h with ⟨e, h₁, -, -⟩ | ⟨t₁, t₂, first, e, rfl, h₁, h₂, -, -⟩ |
      ⟨t₁, t₂, t₃, first, now, cpu, last, rfl, h₁, h₂, rfl, -, h₃, -⟩
    · have hone := hfirst t _ h₁
      omega
    · have hone := hfirst t₁ _ h₁
      have htwo := spends_reader _ t₂ _ h₂
      rw [cost_append]
      omega
    · have hone := hfirst t₁ _ h₁
      have htwo := spends_reader _ t₂ _ h₂
      have hthree : cost perLook t₃ ≤ 2 + collector.disks.entries.length := hlast _ t₃ _ h₃
      rw [cost_append, cost_append]
      omega

variable (w : WirePrices) {process : DriverProcess} {m m' : Machine}

/-- The filesystems that the process looks at. -/
def disksOf (process : DriverProcess) : Nat :=
  match process.hostMetrics with
  | some collector => collector.disks.entries.length
  | none => 0

omit [Python] [Digits] in
theorem spends_overDriver {α : Type} {n : Nat} {p : Prog http Exn α} (h : Requests n p) (driver : Driver)
    (m : Machine) : (overDriver driver p m).Spends (I := wire) w.price (w.request * n) := by
  have hscaled := h.scale w.request
  refine Prog.spends_link_relay (I := http) (J := wire) ?_ hscaled m
  intro q
  exact (Nat.mul_one _).symm

theorem spends_overHost (collector : Metrics.HostMetricsCollector) (m : Machine) :
    (overHost collector.collect m).Spends (I := wire) w.price
      (w.look * (5 + collector.disks.entries.length)) := by
  have hscaled := (spends_collect collector).scale w.look
  refine Prog.spends_link_relay (I := Metrics.host) (J := wire) ?_ hscaled m
  intro c
  exact (Nat.mul_one _).symm

/-- Every post counts. -/
def perPost (_ : Post) : Nat := 1

omit [Python] [Digits] in
theorem spends_overNetwork [FloatRepr] (snapshot : DriverSnapshot) (sink : Process.Sink) (m : Machine) :
    (overNetwork (publish snapshot sink) m).Spends (I := wire) w.price (w.post * 1) := by
  have hone : (publish snapshot sink).Spends (I := posts) perPost 1 := by
    intro t x h
    have hlength : t.length ≤ 1 := by
      rw [← List.length_map Sigma.fst, posts_of_exec_publish h]
      cases sink with
      | mirarun sink =>
        by_cases hcap : OverCap snapshot
        · rw [postsOf, if_pos hcap]
          exact Nat.zero_le 1
        · rw [postsOf, if_neg hcap]
          exact Nat.le_refl 1
      | admin sink => exact Nat.le_refl 1
    simpa [cost, perPost] using hlength
  have hscaled := hone.scale w.post
  refine Prog.spends_link_relay (I := posts) (J := wire) ?_ hscaled m
  intro c
  exact (Nat.mul_one _).symm

/-- What carries out a call keeps to its price. -/
theorem spends_answer [Loads] [FloatRepr] (hm : Kept process m) (c : (Schedule.Loop Process.Sink).Call) :
    (answer process.driver m c).Spends (I := wire) w.price (loopPrice (w.upper (disksOf process)) c) := by
  rcases c with c | c
  · cases c with
    | now =>
      apply Prog.spends_bind_free (Prog.spends_ask (I := wire) .now)
      intro reply
      apply Prog.spends_pure
    | query q => exact spends_overDriver w (requests_query _ q) _ m
    | describe uri => exact spends_overDriver w (requests_describe _ uri) _ m
    | stats uri => exact spends_overDriver w (requests_stats _ uri) _ m
    | revision uri => exact spends_overDriver w (requests_revision _ uri) _ m
    | logs uri tail => exact spends_overDriver w (requests_logs _ uri tail) _ m
    | collect =>
      cases m with
      | none => exact Prog.spends_pure _ _
      | some collector =>
        have hdisks : disksOf process = collector.disks.entries.length := by
          have hprocess : process.hostMetrics = some collector.toHostMetricsCollector := hm.symm
          simp [disksOf, hprocess]
        have hcollect := spends_overHost w collector (some collector)
        rw [← hdisks] at hcollect
        apply Prog.spends_bind_free hcollect
        rintro ⟨out, m'⟩
        cases out with
        | ok out => apply Prog.spends_pure
        | error e => exact nomatch e
    | publish sink snapshot =>
      apply Prog.spends_bind_free (spends_overNetwork w snapshot sink m)
      rintro ⟨out, m'⟩
      apply Prog.spends_pure
  · apply Prog.spends_bind_free (Prog.spends_ask (I := wire) (.timer c))
    intro reply
    apply Prog.spends_pure

end Wire

/-! ## The process -/

/-- The requests to the daemon. -/
def requestsIn (t : List (Exchange wire)) : Nat := cost (I := wire) (WirePrices.price ⟨1, 0, 0⟩) t

/-- The posts to the receivers. -/
def postCount (t : List (Exchange wire)) : Nat := cost (I := wire) (WirePrices.price ⟨0, 1, 0⟩) t

/-- The looks at the host. -/
def looksIn (t : List (Exchange wire)) : Nat := cost (I := wire) (WirePrices.price ⟨0, 0, 1⟩) t

/-- What passes of the loop come to on the wire: a request for each inventory and seven for each
container in it, and for each cycle a post for each sink and some looks at the host. -/
structure Loaded (passes : Nat) (process : DriverProcess) (u : List (Exchange (Schedule.Loop Process.Sink)))
    (t : List (Exchange wire)) : Prop where
  inventories : (inventories u).length ≤ passes
  sizes : ∀ k ∈ Load.inventories u, k ≤ maxContainers
  requests : requestsIn t ≤ ((Load.inventories u).map fun k => 1 + 7 * k).sum
  posts : postCount t ≤ (Load.inventories u).length * process.runner.sinks.length
  looks : looksIn t ≤ (Load.inventories u).length * (5 + disksOf process)

section Main

variable [Python] [Loads] [Digits] [FloatRepr]

omit [Digits] [FloatRepr] in
theorem inventories_le {reference : Str} {u : List (Exchange (Schedule.Loop Process.Sink))}
    (h : ∀ y, Exchange.inl y ∈ u → OverDriver reference y) : ∀ k ∈ inventories u, k ≤ maxContainers := by
  intro k hk
  obtain ⟨⟨c, reply⟩, hmem, hsize⟩ := List.mem_filterMap.mp hk
  rcases c with c | c
  · cases c with
    | query q =>
      obtain rfl := Option.some.inj hsize
      cases reply with
      | error e => exact Nat.zero_le _
      | ok resources =>
        obtain ⟨s, hexec⟩ := h ⟨.query q, .ok resources⟩ hmem
        exact (Bounds.limited_of_exec_query hexec).1
    | _ => cases hsize
  · cases hsize

theorem cost_of_linked (w : WirePrices) {process : DriverProcess} {n : Nat} {m : Machine}
    {u : List (Exchange (Schedule.Loop Process.Sink))} {t : List (Exchange wire)}
    {y : Except Exn (Option (DriverRunner Process.Sink))}
    (hlinked : Prog.Linked (answer process.driver) (machine process) u t m)
    (h : (runForever process.interval n process.runner).Exec u y) :
    cost (I := wire) w.price t ≤
      (w.upper (disksOf process)).total process.runner.sinks.length (inventories u) := by
  have hbelow := Prog.cost_of_linked (K := Kept process) (fun _ c hm => spends_answer w hm c)
    (fun _ _ _ _ _ hm hs => (carried_of_exec_answer hm hs).1) hlinked (kept_machine process)
  exact hbelow.trans (cost_of_exec_runForever _ h).2

omit [Python] [Loads] [Digits] [FloatRepr] in
theorem total_upper (w : WirePrices) (disks sinks : Nat) (inventories : List Nat) :
    (w.upper disks).total sinks inventories =
      (inventories.map fun k => w.request * (1 + 7 * k) + w.look * (5 + disks) + w.post * sinks).sum := by
  apply congrArg List.sum
  apply List.map_congr_left
  intro k _
  simp only [Prices.cycle, Prices.perContainer, WirePrices.upper]
  ring

/-- The process refines its loop, and the load is bounded by what its inventories list. -/
theorem main_load {passes : Nat} {hostname : Str} {environ : Dict Str Str} {t : List (Exchange wire)}
    {x : ProcessEnd Process.Sink} (h : (Wire.main passes hostname environ).Exec t (.ok x)) :
    (t = [] ∧ (x = .exit 2 ∨ ∃ e, x = .startupError e)) ∨
    ∃ config process u m, fromEnviron environ hostname = .ok config ∧ buildRunner config = .ok process ∧
      Prog.Linked (answer process.driver) (machine process) u t m ∧
      (Schedule.main passes hostname environ).Exec u (.ok x) ∧ Loaded passes process u t := by
  refine (exec_main h).imp_right ?_
  rintro ⟨config, process, u, m, y, hconfig, hbuilt, hlinked, hloop, rfl⟩
  obtain ⟨hanswered, -, -⟩ := carried_of_linked hlinked (kept_machine process)
  refine ⟨config, process, u, m, hconfig, hbuilt, hlinked, ?_, ?_⟩
  · unfold Schedule.main Process.main
    simp only [hconfig, hbuilt]
    exact Prog.exec_attempt_bind.mpr ⟨u, [], y, (List.append_nil u).symm, hloop, rfl, rfl⟩
  · refine ⟨(cost_of_exec_runForever ⟨0, 0, 0, 0, 0, 0, 0⟩ hloop).1,
      inventories_le fun y hy => (hanswered y hy).1, ?_, ?_, ?_⟩
    · refine (cost_of_linked ⟨1, 0, 0⟩ hlinked hloop).trans (le_of_eq ?_)
      simp only [total_upper, Nat.one_mul, Nat.zero_mul, Nat.add_zero]
    · refine (cost_of_linked ⟨0, 1, 0⟩ hlinked hloop).trans (le_of_eq ?_)
      simp [total_upper]
    · refine (cost_of_linked ⟨0, 0, 1⟩ hlinked hloop).trans (le_of_eq ?_)
      simp [total_upper]

end Main

theorem main_load_restarted : requestsIn homeMain.2.1 = 14 ∧
    ((homeMain.2.1 = [] ∧ (homeEnd = .exit 2 ∨ ∃ e, homeEnd = .startupError e)) ∨
    ∃ config process u m,
      @fromEnviron downEnviron Python.ascii Digits.ascii (lit "vps1") = .ok config ∧
      buildRunner config = .ok process ∧
      Prog.Linked (@answer Python.ascii homeLoads Digits.ascii FloatRepr.hundredths process.driver)
        (machine process) u homeMain.2.1 m ∧
      (@Schedule.main Python.ascii Digits.ascii 2 (lit "vps1") downEnviron).Exec u (.ok homeEnd) ∧
      Loaded 2 process u homeMain.2.1) :=
  ⟨by decide +kernel, @main_load Python.ascii homeLoads Digits.ascii FloatRepr.hundredths
    2 _ _ _ _ exec_homeMain⟩

end MiraDriver.Load
