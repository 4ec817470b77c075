import MiraDriver.Runner

/-!
# One poll cycle

What a complete interaction of `run_once` amounts to: nothing at all, or one visit for
each container that was described, out of which the snapshot and the new baselines are
assembled.
-/
namespace MiraDriver.Cycle

open MiraDriver.Text MiraDriver.Mapping MiraDriver.Base MiraDriver.Program MiraDriver.Runner

variable {σ : Type}

/-- The inventory replies of an interaction. -/
def listings (t : List (Exchange (Env σ))) : List (Except Exn (List DriverResource)) :=
  t.filterMap fun
    | ⟨.query _, reply⟩ => some reply
    | _ => none

/-- The addresses described in an interaction, each with the reply. -/
def describes (t : List (Exchange (Env σ))) : List (Str × Except Exn DriverResourceDetails) :=
  t.filterMap fun
    | ⟨.describe uri, reply⟩ => some (uri, reply)
    | _ => none

/-- The sinks called in an interaction, each with the snapshot. -/
def published (t : List (Exchange (Env σ))) : List (σ × DriverSnapshot) :=
  t.filterMap fun
    | ⟨.publish sink snapshot, _⟩ => some (sink, snapshot)
    | _ => none

@[simp] theorem listings_nil : listings ([] : List (Exchange (Env σ))) = [] := rfl

@[simp] theorem describes_nil : describes ([] : List (Exchange (Env σ))) = [] := rfl

@[simp] theorem published_nil : published ([] : List (Exchange (Env σ))) = [] := rfl

@[simp] theorem listings_append (s t : List (Exchange (Env σ))) :
    listings (s ++ t) = listings s ++ listings t := List.filterMap_append

@[simp] theorem describes_append (s t : List (Exchange (Env σ))) :
    describes (s ++ t) = describes s ++ describes t := List.filterMap_append

@[simp] theorem published_append (s t : List (Exchange (Env σ))) :
    published (s ++ t) = published s ++ published t := List.filterMap_append

theorem describes_describe (uri : Str) (reply : Except Exn DriverResourceDetails)
    (t : List (Exchange (Env σ))) : describes (⟨.describe uri, reply⟩ :: t) = (uri, reply) :: describes t :=
  rfl

/-- The calls that concern neither the inventory nor a sink. -/
def IsSample : Call σ → Prop
  | .query _ => False
  | .describe _ => False
  | .publish _ _ => False
  | _ => True

/-- A sink raises nothing but an `Exception`, and the collector nothing but
`HostMetricsUnavailable`. -/
def Contained : Exchange (Env σ) → Prop
  | ⟨.publish _ _, reply⟩ => ∀ e, reply = .error e → e.isException = true
  | ⟨.collect, reply⟩ => ∀ e, reply = .error e → e.isHostMetricsUnavailable = true
  | _ => True

theorem quiet_of_samples {t : List (Exchange (Env σ))} (h : ∀ x ∈ t, IsSample x.1) :
    listings t = [] ∧ describes t = [] ∧ published t = [] := by
  refine ⟨?_, ?_, ?_⟩
  all_goals
    apply List.filterMap_eq_nil_iff.mpr
    intro ⟨c, x⟩ hx
    have hs := h _ hx
    cases c <;> first | rfl | exact hs.elim

/-- What is found out about one container of the inventory. -/
structure Visit where
  uri : Str
  details : DriverResourceDetails
  stats : Option DriverContainerStats
  cpuPercent : Option Rat
  revision : Option Str
  logTail : List Str

namespace Visit

def observation (v : Visit) : ContainerObservation := ⟨v.details, v.stats, v.cpuPercent, v.revision⟩

def baseline (v : Visit) : Baseline := ⟨v.details.restartCount, v.details.finishedAt, v.stats⟩

def event (baselines : Dict Str Baseline) (occurredAt : Str) (v : Visit) : Option DriverEvent :=
  (eventKind (baselines.get? v.uri) v.details).map fun kind =>
    ⟨kind, v.details.resource.uri, occurredAt, v.details.exitCode, v.logTail⟩

end Visit

/-- Some visits recorded after what has been gathered so far. -/
def Progress.add (baselines : Dict Str Baseline) (occurredAt : Str) (p : Progress)
    (visits : List Visit) : Progress where
  observations := p.observations ++ visits.map Visit.observation
  events := p.events ++ visits.filterMap (Visit.event baselines occurredAt)
  newBaselines := (visits.map fun v => (v.uri, v.baseline)).foldl (fun d e => d.set e.1 e.2)
    p.newBaselines

@[simp] theorem Progress.add_nil (baselines : Dict Str Baseline) (occurredAt : Str) (p : Progress) :
    Progress.add baselines occurredAt p [] = p := by
  simp [Progress.add]

theorem Progress.add_append (baselines : Dict Str Baseline) (occurredAt : Str) (p : Progress)
    (vs ws : List Visit) :
    Progress.add baselines occurredAt p (vs ++ ws) =
      Progress.add baselines occurredAt (Progress.add baselines occurredAt p vs) ws := by
  simp [Progress.add]

/-- A reply that leaves the cycle going. -/
def Answered (reply : Except Exn DriverResourceDetails) : Prop :=
  ∀ e, reply = .error e → e.isResourceNotFound = true

/-- The details that came back, each with the address that was described. -/
def returned (ds : List (Str × Except Exn DriverResourceDetails)) :
    List (Str × DriverResourceDetails) :=
  ds.filterMap fun d => d.2.toOption.map fun details => (d.1, details)

/-- A walk over part of the inventory: everything listed is described, in order, and
everything that comes back is visited. -/
structure Survey (baselines : Dict Str Baseline) (resources : List DriverResource)
    (ds : List (Str × Except Exn DriverResourceDetails)) (visits : List Visit) : Prop where
  described : ds.map Prod.fst = resources.map DriverResource.uri
  answered : ∀ d ∈ ds, Answered d.2
  visited : visits.map (fun v => (v.uri, v.details)) = returned ds
  cpuPercent : ∀ v ∈ visits,
    cpuPercent ((baselines.get? v.uri).bind Baseline.stats) v.stats = .ok v.cpuPercent

namespace Survey

variable {baselines : Dict Str Baseline}

theorem nil : Survey baselines [] [] [] where
  described := rfl
  answered := by simp
  visited := rfl
  cpuPercent := by simp

theorem append {rs rs' : List DriverResource} {ds ds' : List (Str × Except Exn DriverResourceDetails)}
    {vs vs' : List Visit} (h : Survey baselines rs ds vs) (h' : Survey baselines rs' ds' vs') :
    Survey baselines (rs ++ rs') (ds ++ ds') (vs ++ vs') where
  described := by rw [List.map_append, List.map_append, h.described, h'.described]
  answered := by
    intro d hd
    cases List.mem_append.mp hd with
    | inl hd => exact h.answered d hd
    | inr hd => exact h'.answered d hd
  visited := by
    rw [List.map_append, h.visited, h'.visited]
    exact List.filterMap_append.symm
  cpuPercent := by
    intro v hv
    cases List.mem_append.mp hv with
    | inl hv => exact h.cpuPercent v hv
    | inr hv => exact h'.cpuPercent v hv

end Survey

section Calls

/-- A call, and what follows it. -/
theorem exec_call_bind {ε α : Type} {c : Call σ} {f : Reply c → Prog (Env σ) ε α}
    {t : List (Exchange (Env σ))} {x : Except ε α} :
    (call c >>= f).Exec t x ↔ ∃ (reply : Reply c) (s : _), t = ⟨c, reply⟩ :: s ∧ (f reply).Exec s x :=
  Iff.rfl

variable {r : DriverRunner σ} {P : Call σ → Prop}

theorem allCalls_call {ε : Type} {c : Call σ} (h : P c) :
    (call c : Prog (Env σ) ε (Reply c)).AllCalls P :=
  (Prog.allCalls_ask (I := Env σ) c).mpr h

theorem allCalls_sampleStats (uri : Str) (h : P (.stats uri)) : (sampleStats r uri).AllCalls P := by
  unfold sampleStats
  split
  · apply Prog.allCalls_bind (allCalls_call h)
    intro reply
    apply Prog.allCalls_ofExcept
  · apply Prog.allCalls_pure

theorem allCalls_sampleRevision (uri : Str) (h : P (.revision uri)) :
    (sampleRevision r uri).AllCalls P := by
  unfold sampleRevision
  split
  · apply Prog.allCalls_bind (allCalls_call h)
    intro reply
    apply Prog.allCalls_ofExcept
  · apply Prog.allCalls_pure

theorem allCalls_detectEvent (previous : Option Baseline) (details : DriverResourceDetails)
    (occurredAt : Str) (h : P (.logs details.resource.uri r.postmortemTail)) :
    (detectEvent r previous details occurredAt).AllCalls P := by
  unfold detectEvent
  split
  · apply Prog.allCalls_pure
  · apply Prog.allCalls_bind
    · apply Prog.allCalls_bind (allCalls_call h)
      intro reply
      apply Prog.allCalls_ofExcept
    · intro logTail
      apply Prog.allCalls_pure

theorem allCalls_observeDetails (collectedAt : Str) (progress : Progress) (uri : Str)
    (details : DriverResourceDetails) (hs : P (.stats uri)) (hr : P (.revision uri))
    (hl : P (.logs details.resource.uri r.postmortemTail)) :
    (observeDetails r collectedAt progress uri details).AllCalls P := by
  apply Prog.allCalls_bind (allCalls_sampleStats uri hs)
  intro stats
  apply Prog.allCalls_bind (allCalls_sampleRevision uri hr)
  intro revision
  apply Prog.allCalls_bind (Prog.allCalls_ofExcept _)
  intro cpu
  apply Prog.allCalls_bind (allCalls_detectEvent _ details collectedAt hl)
  intro event
  apply Prog.allCalls_pure

theorem allCalls_collectHost (h : P .collect) : (collectHost r).AllCalls P := by
  unfold collectHost
  split
  · apply Prog.allCalls_bind (allCalls_call h)
    intro reply
    cases reply with
    | ok samples => apply Prog.allCalls_pure
    | error e =>
      change (if e.isHostMetricsUnavailable = true then pure [] else throw e :
        Prog (Env σ) Exn (List MetricSample)).AllCalls P
      split
      · apply Prog.allCalls_pure
      · apply Prog.allCalls_throw
  · apply Prog.allCalls_pure

theorem allCalls_publishAll (snapshot : DriverSnapshot) (sinks : List σ)
    (h : ∀ sink, P (.publish sink snapshot)) : (publishAll snapshot sinks).AllCalls P := by
  induction sinks with
  | nil => exact trivial
  | cons sink rest ih =>
    apply Prog.allCalls_bind (allCalls_call (h sink))
    intro reply
    cases reply with
    | ok u => exact ih
    | error e =>
      change (if e.isException = true then publishAll snapshot rest else throw e).AllCalls P
      split
      · exact ih
      · apply Prog.allCalls_throw

end Calls

variable {r : DriverRunner σ}

theorem exec_detectEvent_ok {previous : Option Baseline} {details : DriverResourceDetails}
    {occurredAt : Str} {t : List (Exchange (Env σ))} {event : Option DriverEvent}
    (h : (detectEvent r previous details occurredAt).Exec t (.ok event)) :
    ∃ logTail, event = (eventKind previous details).map fun kind =>
      ⟨kind, details.resource.uri, occurredAt, details.exitCode, logTail⟩ := by
  unfold detectEvent at h
  split at h
  · rename_i hk
    obtain ⟨-, he⟩ := h
    exact ⟨[], by rw [hk]; exact Except.ok.inj he⟩
  · rename_i kind hk
    obtain ⟨t₁, t₂, logTail, -, -, -, he⟩ := Prog.exec_bind_ok.mp h
    exact ⟨logTail, by rw [hk]; exact Except.ok.inj he⟩

/-- The loop body on a resource that was described is one visit. -/
theorem exec_observeDetails_ok {collectedAt : Str} {p p' : Progress} {uri : Str}
    {details : DriverResourceDetails} {t : List (Exchange (Env σ))}
    (h : (observeDetails r collectedAt p uri details).Exec t (.ok p')) :
    ∃ v : Visit, v.uri = uri ∧ v.details = details ∧
      cpuPercent ((r.baselines.get? uri).bind Baseline.stats) v.stats = .ok v.cpuPercent ∧
      p' = Progress.add r.baselines collectedAt p [v] := by
  obtain ⟨t₁, t₂, stats, -, -, h⟩ := Prog.exec_bind_ok.mp h
  obtain ⟨t₁, t₂, revision, -, -, h⟩ := Prog.exec_bind_ok.mp h
  obtain ⟨t₁, t₂, cpu, -, hcpu, h⟩ := Prog.exec_bind_ok.mp h
  obtain ⟨t₁, t₂, event, -, hevent, h⟩ := Prog.exec_bind_ok.mp h
  obtain ⟨logTail, rfl⟩ := exec_detectEvent_ok hevent
  have hcpu' := ((Prog.exec_ofExcept _ _ _).mp hcpu).2
  refine ⟨⟨uri, details, stats, cpu, revision, logTail⟩, rfl, rfl, hcpu'.symm, ?_⟩
  obtain rfl := Except.ok.inj h.2
  simp only [Progress.add, Visit.observation, Visit.baseline, List.map_cons, List.map_nil,
    List.foldl_cons, List.foldl_nil, Progress.mk.injEq, List.append_cancel_left_eq, true_and, and_true]
  cases he : eventKind (r.baselines.get? uri) details <;> simp [Visit.event, he]

/-- The loop body makes one describe call, and visits the container if it is there. -/
theorem exec_observe_ok {collectedAt : Str} {p p' : Progress} {resource : DriverResource}
    {t : List (Exchange (Env σ))} (h : (observe r collectedAt p resource).Exec t (.ok p')) :
    listings t = [] ∧ ∃ visits, Survey r.baselines [resource] (describes t) visits ∧
      p' = Progress.add r.baselines collectedAt p visits := by
  obtain ⟨described, t, rfl, hbody⟩ := exec_call_bind.mp h
  cases described with
  | ok details =>
    have hquiet := quiet_of_samples
      ((allCalls_observeDetails (P := IsSample) collectedAt p resource.uri details trivial trivial
        trivial).of_exec hbody)
    obtain ⟨v, huri, hdetails, hcpu, rfl⟩ := exec_observeDetails_ok hbody
    refine ⟨hquiet.1, [v], ?_, rfl⟩
    rw [describes_describe, hquiet.2.1]
    exact ⟨rfl, by simp [Answered], by simp [returned, huri, hdetails, Except.toOption],
      by simpa [huri] using hcpu⟩
  | error e =>
    by_cases he : e.isResourceNotFound = true
    · simp only [he, if_true] at hbody
      obtain ⟨rfl, hp⟩ := hbody
      refine ⟨rfl, [], ?_, ?_⟩
      · rw [describes_describe]
        exact ⟨rfl, by simpa [Answered] using he, rfl, by simp⟩
      · rw [Progress.add_nil]
        exact Except.ok.inj hp
    · simp only [he] at hbody
      cases hbody.2

theorem exec_observeAll_ok {collectedAt : Str} {resources : List DriverResource} {p p' : Progress}
    {t : List (Exchange (Env σ))}
    (h : (observeAll r collectedAt p resources).Exec t (.ok p')) :
    listings t = [] ∧ ∃ visits, Survey r.baselines resources (describes t) visits ∧
      p' = Progress.add r.baselines collectedAt p visits := by
  induction resources generalizing p t with
  | nil =>
    obtain ⟨rfl, hp⟩ := h
    exact ⟨rfl, [], .nil, by rw [Progress.add_nil]; exact Except.ok.inj hp⟩
  | cons resource rest ih =>
    obtain ⟨t₁, t₂, q, rfl, hq, h⟩ := Prog.exec_bind_ok.mp h
    obtain ⟨hlist, vs, hvs, rfl⟩ := exec_observe_ok hq
    obtain ⟨hlist', ws, hws, rfl⟩ := ih h
    refine ⟨by rw [listings_append, hlist, hlist']; rfl, vs ++ ws, ?_, ?_⟩
    · rw [describes_append]
      exact hvs.append hws
    · rw [Progress.add_append]

/-- A completed poll, from the inventory reply to what was gathered. -/
theorem exec_poll_ok {collectedAt : Str} {progress : Progress} {t : List (Exchange (Env σ))}
    (h : (poll r).Exec t (.ok (collectedAt, progress))) :
    ∃ resources visits, listings t = [.ok resources] ∧
      Survey r.baselines resources (describes t) visits ∧
      progress = Progress.add r.baselines collectedAt ⟨[], [], Dict.empty⟩ visits := by
  obtain ⟨time, t, rfl, hquery⟩ := exec_call_bind.mp h
  obtain ⟨listed, t, rfl, hloop⟩ := exec_call_bind.mp hquery
  obtain ⟨_, t, resources, rfl, hresources, hwalk⟩ := Prog.exec_bind_ok.mp hloop
  obtain ⟨t, _, gathered, rfl, hall, hend⟩ := Prog.exec_bind_ok.mp hwalk
  obtain ⟨rfl, rfl⟩ := (Prog.exec_ofExcept _ _ _).mp hresources
  obtain ⟨rfl, hout⟩ := hend
  obtain ⟨rfl, rfl⟩ := Prod.mk.inj (Except.ok.inj hout)
  obtain ⟨hlist, visits, hsurvey, hprogress⟩ := exec_observeAll_ok hall
  rw [List.nil_append, List.append_nil]
  exact ⟨resources, visits, congrArg (Except.ok resources :: ·) hlist, hsurvey, hprogress⟩

theorem allCalls_observeAll {P : Call σ → Prop} (hd : ∀ uri, P (.describe uri))
    (hs : ∀ uri, P (.stats uri)) (hr : ∀ uri, P (.revision uri)) (hl : ∀ uri tail, P (.logs uri tail))
    (collectedAt : Str) (p : Progress) (resources : List DriverResource) :
    (observeAll r collectedAt p resources).AllCalls P := by
  have hobserve (p : Progress) (resource : DriverResource) :
      (observe r collectedAt p resource).AllCalls P := by
    apply Prog.allCalls_bind (allCalls_call (hd resource.uri))
    intro described
    cases described with
    | ok details => exact allCalls_observeDetails _ _ _ _ (hs _) (hr _) (hl _ _)
    | error e =>
      change (if e.isResourceNotFound = true then pure p else throw e : Prog (Env σ) Exn Progress).AllCalls P
      split
      · apply Prog.allCalls_pure
      · apply Prog.allCalls_throw
  induction resources generalizing p with
  | nil => exact trivial
  | cons resource rest ih => exact Prog.allCalls_bind (hobserve p resource) ih

theorem allCalls_poll {P : Call σ → Prop} (hnow : P .now) (hq : ∀ q, P (.query q))
    (hd : ∀ uri, P (.describe uri)) (hs : ∀ uri, P (.stats uri)) (hr : ∀ uri, P (.revision uri))
    (hl : ∀ uri tail, P (.logs uri tail)) : (poll r).AllCalls P := by
  apply Prog.allCalls_bind (allCalls_call hnow)
  intro collectedAt
  apply Prog.allCalls_bind (allCalls_call (hq _))
  intro listed
  apply Prog.allCalls_bind (Prog.allCalls_ofExcept _)
  intro resources
  apply Prog.allCalls_bind (allCalls_observeAll hd hs hr hl collectedAt _ resources)
  intro progress
  apply Prog.allCalls_pure

/-- Polling publishes nothing, however it ends. -/
theorem published_poll {t : List (Exchange (Env σ))} {x : Except Exn (Str × Progress)}
    (h : (poll r).Exec t x) : published t = [] := by
  have hcalls := (allCalls_poll (r := r) (P := fun c => ∀ sink snapshot, c ≠ .publish sink snapshot)
    (by simp) (by simp) (by simp) (by simp) (by simp) (by simp)).of_exec h
  apply List.filterMap_eq_nil_iff.mpr
  intro ⟨c, x⟩ hx
  cases c <;> first | rfl | exact absurd rfl (hcalls _ hx _ _)

/-- The collector's failure is contained. -/
theorem exec_collectHost {t : List (Exchange (Env σ))} {x : Except Exn (List MetricSample)}
    (h : (collectHost r).Exec t x) (hc : ∀ e ∈ t, Contained e) : ∃ samples, x = .ok samples := by
  unfold collectHost at h
  split at h
  · obtain ⟨reply, t, rfl, hrest⟩ := exec_call_bind.mp h
    have hcontained := hc _ List.mem_cons_self
    cases reply with
    | ok samples => exact ⟨samples, hrest.2⟩
    | error e =>
      have he : e.isHostMetricsUnavailable = true := hcontained e rfl
      simp only [he, if_true] at hrest
      exact ⟨[], hrest.2⟩
  · exact ⟨[], h.2⟩

/-- The snapshot that a list of visits amounts to. -/
def snapshotOf (r : DriverRunner σ) (collectedAt : Str) (visits : List Visit)
    (hostMetrics : List MetricSample) : DriverSnapshot where
  targetReference := r.reference
  collectedAt := collectedAt
  containers := visits.map Visit.observation
  hostMetrics := hostMetrics
  events := visits.filterMap (Visit.event r.baselines collectedAt)

/-- The runner that has just made these visits. -/
def after (r : DriverRunner σ) (visits : List Visit) : DriverRunner σ :=
  { r with baselines := Dict.ofList (visits.map fun v => (v.uri, v.baseline)) }

theorem exec_collect {t : List (Exchange (Env σ))} {out : Except Exn DriverSnapshot}
    {r' : DriverRunner σ} (h : (collect r).Exec t (.ok (out, r'))) (hc : ∀ e ∈ t, Contained e) :
    published t = [] ∧ ((∃ e, out = .error e ∧ r' = r) ∨
      ∃ collectedAt resources visits hostMetrics, listings t = [.ok resources] ∧
        Survey r.baselines resources (describes t) visits ∧
        out = .ok (snapshotOf r collectedAt visits hostMetrics) ∧ r' = after r visits) := by
  obtain ⟨t₁, t₂, polled, rfl, hpoll, hbody⟩ := Prog.exec_attempt_bind.mp h
  have hsilent := published_poll hpoll
  cases polled with
  | error e =>
    obtain ⟨rfl, hout⟩ := hbody
    obtain ⟨rfl, rfl⟩ := Prod.mk.inj (Except.ok.inj hout)
    exact ⟨by simpa using hsilent, .inl ⟨e, rfl, rfl⟩⟩
  | ok gathered =>
    obtain ⟨collectedAt, progress⟩ := gathered
    obtain ⟨t₃, t₄, host, rfl, hhost, hend⟩ := Prog.exec_attempt_bind.mp hbody
    obtain ⟨rfl, hout⟩ := hend
    obtain ⟨rfl, rfl⟩ := Prod.mk.inj (Except.ok.inj hout)
    obtain ⟨samples, rfl⟩ := exec_collectHost hhost fun e he => hc e (by simp [he])
    have hquiet := quiet_of_samples ((allCalls_collectHost (P := IsSample) trivial).of_exec hhost)
    obtain ⟨resources, visits, hlist, hsurvey, rfl⟩ := exec_poll_ok hpoll
    refine ⟨by simp [hsilent, hquiet.2.2], .inr ⟨collectedAt, resources, visits, samples, ?_, ?_, ?_, ?_⟩⟩
    · simp [hlist, hquiet.1]
    · simpa [hquiet.2.1] using hsurvey
    · simp [Except.map, snapshotOf, Progress.add]
    · rfl

/-- Every sink is called, whatever the others do. -/
theorem exec_publishAll {snapshot : DriverSnapshot} {sinks : List σ} {t : List (Exchange (Env σ))}
    {x : Except Exn Unit} (h : (publishAll snapshot sinks).Exec t x) (hc : ∀ e ∈ t, Contained e) :
    x = .ok () ∧ listings t = [] ∧ describes t = [] ∧
      published t = sinks.map fun sink => (sink, snapshot) := by
  induction sinks generalizing t with
  | nil =>
    obtain ⟨rfl, rfl⟩ := h
    exact ⟨rfl, rfl, rfl, rfl⟩
  | cons sink rest ih =>
    obtain ⟨reply, t, rfl, hrest⟩ := exec_call_bind.mp h
    have hcontained := hc _ List.mem_cons_self
    have hnext : (publishAll snapshot rest).Exec t x := by
      cases reply with
      | ok u => exact hrest
      | error e =>
        have he : e.isException = true := hcontained e rfl
        simpa only [he, if_true] using hrest
    obtain ⟨hx, hl, hd, hp⟩ := ih hnext fun e he => hc e (List.mem_cons_of_mem _ he)
    exact ⟨hx, hl, hd, congrArg ((sink, snapshot) :: ·) hp⟩

/-- A cycle that fails leaves the runner as it was and publishes nothing. A cycle that
returns has made its visits, and has called every sink with what they amount to. -/
theorem exec_runOnce {t : List (Exchange (Env σ))} {out : Except Exn DriverSnapshot}
    {r' : DriverRunner σ} (h : (runOnce r).Exec t (.ok (out, r'))) (hc : ∀ x ∈ t, Contained x) :
    (∃ e, out = .error e ∧ published t = [] ∧ r' = r) ∨
      ∃ collectedAt resources visits hostMetrics, listings t = [.ok resources] ∧
        Survey r.baselines resources (describes t) visits ∧
        out = .ok (snapshotOf r collectedAt visits hostMetrics) ∧ r' = after r visits ∧
        published t = r.sinks.map fun sink =>
          (sink, snapshotOf r collectedAt visits hostMetrics) := by
  obtain ⟨t₁, t₂, ⟨collected, q⟩, rfl, hcollect, hrest⟩ := Prog.exec_bind_ok.mp h
  obtain ⟨hsilent, hcases⟩ := exec_collect hcollect fun x hx => hc x (List.mem_append_left _ hx)
  cases hcases with
  | inl hfail =>
    obtain ⟨e, rfl, rfl⟩ := hfail
    obtain ⟨rfl, hout⟩ := hrest
    obtain ⟨rfl, rfl⟩ := Prod.mk.inj (Except.ok.inj hout)
    exact .inl ⟨e, rfl, by simpa using hsilent, rfl⟩
  | inr hdone =>
    obtain ⟨collectedAt, resources, visits, hostMetrics, hlist, hsurvey, rfl, rfl⟩ := hdone
    obtain ⟨t₃, t₄, result, rfl, hpublish, hend⟩ := Prog.exec_attempt_bind.mp hrest
    obtain ⟨rfl, hl, hd, hp⟩ := exec_publishAll hpublish fun x hx => hc x (by simp [hx])
    obtain ⟨rfl, hout⟩ := hend
    obtain ⟨rfl, rfl⟩ := Prod.mk.inj (Except.ok.inj hout)
    refine .inr ⟨collectedAt, resources, visits, hostMetrics, ?_, ?_, rfl, rfl, ?_⟩
    · simp [hlist, hl]
    · simpa [hd] using hsurvey
    · rw [published_append, hsilent, List.append_nil]
      exact hp

/-- Either the cycle raises, no sink was called and the baselines are as they were, or it
returns the snapshot of the whole inventory: everything listed was described or is gone,
and every sink was called with the snapshot, once and in order. -/
def Atomic (r : DriverRunner σ) (t : List (Exchange (Env σ))) (out : Except Exn DriverSnapshot)
    (r' : DriverRunner σ) : Prop :=
  (∃ e, out = .error e ∧ published t = [] ∧ r'.baselines = r.baselines) ∨
    ∃ snapshot resources, out = .ok snapshot ∧ listings t = [.ok resources] ∧
      (describes t).map Prod.fst = resources.map DriverResource.uri ∧
      (∀ d ∈ describes t, Answered d.2) ∧
      snapshot.containers.map ContainerObservation.details =
        (returned (describes t)).map Prod.snd ∧
      (∀ uri, uri ∈ r'.baselines.keys ↔ uri ∈ (returned (describes t)).map Prod.fst) ∧
      published t = r.sinks.map fun sink => (sink, snapshot)

theorem runOnce_atomic (r : DriverRunner σ) (t : List (Exchange (Env σ)))
    (out : Except Exn DriverSnapshot) (r' : DriverRunner σ)
    (h : (runOnce r).Exec t (.ok (out, r'))) (hc : ∀ x ∈ t, Contained x) : Atomic r t out r' := by
  cases exec_runOnce h hc with
  | inl hfail =>
    obtain ⟨e, rfl, hp, rfl⟩ := hfail
    exact .inl ⟨e, rfl, hp, rfl⟩
  | inr hdone =>
    obtain ⟨collectedAt, resources, visits, hostMetrics, hlist, hsurvey, rfl, rfl, hp⟩ := hdone
    refine .inr ⟨_, resources, rfl, hlist, hsurvey.described, hsurvey.answered, ?_, ?_, hp⟩
    · rw [← hsurvey.visited, List.map_map]
      exact List.map_map
    · intro uri
      rw [← hsurvey.visited]
      simp [after, Dict.mem_keys_ofList]

/-- A container of which nothing but its address is known. -/
def plainContainer (uri : Str) : DriverResource := ⟨uri, .container, [], none, none, none, none, none⟩

def plainDetails (uri : Str) : DriverResourceDetails :=
  ⟨plainContainer uri, none, none, none, [], [], none, none, none, none⟩

/-- A runner over two sinks, which has not polled yet. -/
def freshRunner : DriverRunner Bool :=
  ⟨[true, false], by simp, [], false, 50, false, false, Dict.empty⟩

/-- The snapshot of one plain container. -/
def plainSnapshot : DriverSnapshot :=
  ⟨[], [], [⟨plainDetails ['a'], none, none, none⟩], [], []⟩

/-- One of two containers vanishes before it is described, and the first sink is down. -/
def vanishing : List (Exchange (Env Bool)) :=
  [⟨.now, []⟩,
    ⟨.query (.all .container), .ok [plainContainer ['a'], plainContainer ['b']]⟩,
    ⟨.describe ['a'], .ok (plainDetails ['a'])⟩,
    ⟨.describe ['b'], .error (.driverResourceNotFound [])⟩,
    ⟨.publish true plainSnapshot, .error (.exception [])⟩, ⟨.publish false plainSnapshot, .ok ()⟩]

theorem runOnce_atomic_vanishing :
    Atomic freshRunner vanishing (.ok plainSnapshot)
      { freshRunner with baselines := Dict.ofList [(['a'], ⟨none, none, none⟩)] } := by
  apply runOnce_atomic
  · exact ⟨_, _, rfl, _, _, rfl, _, _, rfl, _, _, rfl, _, _, rfl, _, _, rfl, rfl, rfl⟩
  · simp [vanishing, Contained, Exn.isException]

end MiraDriver.Cycle
