import MiraDriver.History
import MiraDriver.Outage

/-!
# The inventories of the receivers

Both receivers take the absence of a container from a report as its end: they replace the
inventory that they hold with every report they accept. A receiver is here what this makes of
it, the last snapshot that its sink has published.
-/
namespace MiraDriver.Receivers

open MiraDriver.Text MiraDriver.Mapping MiraDriver.Base MiraDriver.Program MiraDriver.History
  MiraDriver.Runner MiraDriver.Cycle MiraDriver.Lifecycle MiraDriver.Outage

variable {σ : Type}

/-- The receiver behind a sink has accepted the snapshot. -/
def Accepts (sink : σ) (c : PollCycle σ) (s : DriverSnapshot) : Prop := Handed sink c s (.ok ())

/-- The inventory that the receiver holds after some cycles. -/
def Holds (sink : σ) (cs : List (PollCycle σ)) (s : DriverSnapshot) : Prop := Latest (Accepts sink) cs s

def addresses (s : DriverSnapshot) : List Str := s.containers.map (·.details.resource.uri)

/-- The container was described in the cycle. -/
def Present (c : PollCycle σ) (uri : Str) : Prop := ∃ details, (uri, .ok details) ∈ describes c.trace

/-- The container was not in the list of the cycle, or the driver has said that it does not
exist. -/
def Absent (c : PollCycle σ) (uri : Str) : Prop :=
  ∃ resources, .ok resources ∈ listings c.trace ∧ (uri ∉ resources.map DriverResource.uri ∨
    ∃ e, (uri, .error e) ∈ describes c.trace ∧ e.isResourceNotFound = true)

/-- The inventory is what one cycle has found: each container once, and there is evidence
for the presence of those that are in it and for the absence of all others. -/
structure Evident (c : PollCycle σ) (s : DriverSnapshot) : Prop where
  nodup : (addresses s).Nodup
  present : ∀ uri, uri ∈ addresses s ↔ Present c uri
  absent : ∀ uri, uri ∉ addresses s ↔ Absent c uri

section Cycle

variable {r r' : DriverRunner σ} {c : PollCycle σ} {s : DriverSnapshot}

theorem mem_returned {ds : List (Str × Except Exn DriverResourceDetails)} {uri : Str}
    {details : DriverResourceDetails} : (uri, details) ∈ returned ds ↔ (uri, .ok details) ∈ ds := by
  unfold returned
  rw [List.mem_filterMap]
  constructor
  · rintro ⟨⟨uri', reply⟩, hmem, hsome⟩
    cases reply with
    | error e => cases hsome
    | ok details' =>
      obtain ⟨rfl, rfl⟩ := Prod.mk.inj (Option.some.inj hsome)
      exact hmem
  · intro hmem
    exact ⟨_, hmem, rfl⟩

/-- A cycle that returns is evidence for what it returns. -/
theorem evident_of_outcome (h : (runOnce r).Exec c.trace (.ok (c.outcome, r'))) (hc : c.Regular)
    (hs : c.outcome = .ok s) : Evident c s := by
  cases exec_runOnce h hc.contained with
  | inl hfail =>
    obtain ⟨e, he, -⟩ := hfail
    rw [hs] at he
    cases he
  | inr hdone =>
    obtain ⟨collectedAt, resources, visits, hostMetrics, hlist, hsurvey, hout, -, -⟩ := hdone
    obtain rfl := Except.ok.inj (hs.symm.trans hout)
    have hdistinct := hc.distinct resources (by simp [hlist])
    have haddresses : addresses (snapshotOf r collectedAt visits hostMetrics) = visits.map Visit.uri := by
      simp only [addresses, snapshotOf, List.map_map]
      exact List.map_congr_left fun v hv => uri_details hsurvey hc.addressed hv
    have hvisited : visits.map Visit.uri = (returned (describes c.trace)).map Prod.fst := by
      rw [← hsurvey.visited, List.map_map]
      rfl
    have hpresent : ∀ uri, uri ∈ visits.map Visit.uri ↔ Present c uri := by
      intro uri
      rw [hvisited, List.mem_map]
      constructor
      · rintro ⟨⟨uri, details⟩, hmem, rfl⟩
        exact ⟨details, mem_returned.mp hmem⟩
      · rintro ⟨details, hmem⟩
        exact ⟨_, mem_returned.mpr hmem, rfl⟩
    refine ⟨haddresses ▸ nodup_visits hsurvey hdistinct, haddresses ▸ hpresent, ?_⟩
    intro uri
    rw [haddresses, hpresent]
    have hdescribed : (describes c.trace).map Prod.fst = resources.map DriverResource.uri :=
      hsurvey.described
    have hnodup : ((describes c.trace).map Prod.fst).Nodup := hdescribed ▸ hdistinct
    constructor
    · intro hnot
      refine ⟨resources, by simp [hlist], ?_⟩
      by_cases hlisted : uri ∈ resources.map DriverResource.uri
      · rw [← hdescribed] at hlisted
        obtain ⟨⟨uri, reply⟩, hmem, rfl⟩ := List.mem_map.mp hlisted
        cases reply with
        | ok details => exact absurd ⟨details, hmem⟩ hnot
        | error e => exact .inr ⟨e, hmem, hsurvey.answered _ hmem e rfl⟩
      · exact .inl hlisted
    · rintro ⟨resources', hlisted, habsent⟩ ⟨details, hmem⟩
      rw [hlist, List.mem_singleton] at hlisted
      obtain rfl := Except.ok.inj hlisted
      rcases habsent with hnot | ⟨e, herror, -⟩
      · rw [← hdescribed] at hnot
        exact hnot (List.mem_map_of_mem hmem)
      · -- an address is described once
        have hsame := List.inj_on_of_nodup_map hnodup hmem herror rfl
        cases (Prod.mk.inj hsame).2

end Cycle

section Run

variable {r r' : DriverRunner σ} {cs ds : List (PollCycle σ)} {sink : σ} {s s' : DriverSnapshot}

theorem outcome_of_accepts (h : Run r cs r') (hc : ∀ c ∈ cs, c.Regular) {c : PollCycle σ} (hmem : c ∈ cs)
    (ha : Accepts sink c s) : c.outcome = .ok s := by
  obtain ⟨q, q', hstep⟩ := h.exists_step hmem
  exact (outcome_of_handed hstep (hc c hmem).contained ha).1

/-- What a receiver holds is what the last cycle that has reached it found. -/
theorem evident_of_holds (h : Run r cs r') (hc : ∀ c ∈ cs, c.Regular) (hs : Holds sink cs s) :
    ∃ before c after, cs = before ++ c :: after ∧ Accepts sink c s ∧
      (∀ later ∈ after, ∀ s', ¬ Accepts sink later s') ∧ Evident c s := by
  obtain ⟨before, c, after, rfl, haccepts, hafter⟩ := hs
  have hmem : c ∈ before ++ c :: after := by simp
  obtain ⟨q, q', hstep⟩ := h.exists_step hmem
  have hout := outcome_of_accepts h hc hmem haccepts
  exact ⟨before, c, after, rfl, haccepts, hafter, evident_of_outcome hstep (hc c hmem) hout⟩

/-- A receiver holds one inventory at a time. -/
theorem holds_unique (h : Run r cs r') (hc : ∀ c ∈ cs, c.Regular) (hs : Holds sink cs s)
    (hs' : Holds sink cs s') : s = s' := by
  apply Latest.unique _ hs hs'
  intro c hmem a b ha hb
  exact Except.ok.inj ((outcome_of_accepts h hc hmem ha).symm.trans (outcome_of_accepts h hc hmem hb))

/-- The inventory of a receiver is evident from one cycle, the last one that has reached it. What
it held before and holds no longer was absent in a cycle that has reached it since. -/
structure Sound (sink : σ) (cs : List (PollCycle σ)) (s : DriverSnapshot) : Prop where
  evident : ∃ before c after, cs = before ++ c :: after ∧ Accepts sink c s ∧
    (∀ later ∈ after, ∀ s', ¬ Accepts sink later s') ∧ Evident c s
  removed : ∀ before after s', cs = before ++ after → Holds sink before s' → ∀ uri ∈ addresses s',
    uri ∉ addresses s → ∃ c ∈ after, Accepts sink c s ∧ Absent c uri

end Run

/-! ## A container that vanishes -/

def vanishedSnapshot (uris : List Str) : DriverSnapshot :=
  ⟨[], [], uris.map fun uri => ⟨plainDetails uri, none, none, none⟩, [], []⟩

/-- There are two containers; then the daemon is down; then one of them vanishes between the list
and its description. The second sink is down at the end. -/
def vanishedRun : List (PollCycle Bool) :=
  let both := [plainContainer ['a'], plainContainer ['b']]
  let failure := Exn.driverUnavailable []
  [⟨[⟨.now, []⟩, ⟨.query (.all .container), .ok both⟩, ⟨.describe ['a'], .ok (plainDetails ['a'])⟩,
      ⟨.describe ['b'], .ok (plainDetails ['b'])⟩,
      ⟨.publish true (vanishedSnapshot [['a'], ['b']]), .ok ()⟩,
      ⟨.publish false (vanishedSnapshot [['a'], ['b']]), .ok ()⟩],
      .ok (vanishedSnapshot [['a'], ['b']])⟩,
    ⟨[⟨.now, []⟩, ⟨.query (.all .container), .error failure⟩], .error failure⟩,
    ⟨[⟨.now, []⟩, ⟨.query (.all .container), .ok both⟩, ⟨.describe ['a'], .ok (plainDetails ['a'])⟩,
      ⟨.describe ['b'], .error (.driverResourceNotFound [])⟩,
      ⟨.publish true (vanishedSnapshot [['a']]), .ok ()⟩,
      ⟨.publish false (vanishedSnapshot [['a']]), .error (.exception [])⟩],
      .ok (vanishedSnapshot [['a']])⟩]

theorem run_vanishedRun : ∃ r, Run freshRunner vanishedRun r := by
  apply Exists.intro
  apply Run.cons
  · exact ⟨_, _, rfl, _, _, rfl, _, _, rfl, _, _, rfl, _, _, rfl, _, _, rfl, rfl, rfl⟩
  apply Run.cons
  · exact ⟨_, _, rfl, _, _, rfl, rfl, rfl⟩
  apply Run.cons
  · exact ⟨_, _, rfl, _, _, rfl, _, _, rfl, _, _, rfl, _, _, rfl, _, _, rfl, rfl, rfl⟩
  · exact Run.nil _

theorem regular_vanishedRun : ∀ c ∈ vanishedRun, c.Regular := by
  intro c hc
  constructor <;>
    simp only [vanishedRun, List.mem_cons, List.not_mem_nil, or_false] at hc <;>
    obtain rfl | rfl | rfl := hc <;>
    simp [listings, describes, returned, Contained, plainDetails, plainContainer, Except.toOption,
      Exn.isException]

theorem holds_vanishedRun : Holds true vanishedRun (vanishedSnapshot [['a']]) := by
  refine ⟨vanishedRun.take 2, _, [], rfl, ?_, by simp⟩
  simp [Accepts, Handed]

end MiraDriver.Receivers
