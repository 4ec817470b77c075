import MiraDriver.Lifecycle

/-!
# A sink that is down

There is one set of baselines for all sinks, and a snapshot is handed to each sink once.
The event of a death therefore goes to every sink with the first snapshot that shows it,
and is lost to a sink that is down in that cycle.
-/
namespace MiraDriver.Outage

open MiraDriver.Text MiraDriver.Mapping MiraDriver.Base MiraDriver.Program MiraDriver.Runner
  MiraDriver.Cycle MiraDriver.Lifecycle

variable {σ : Type}

/-- The snapshot was handed to the sink, whose publish ended so. -/
def Handed (sink : σ) (c : PollCycle σ) (s : DriverSnapshot) (reply : Except Exn Unit) : Prop :=
  ⟨.publish sink s, reply⟩ ∈ c.trace

/-- The snapshot has observed the container, with this time of its last end. -/
def Shows (s : DriverSnapshot) (uri : Str) (finishedAt : Option Str) : Prop :=
  ∃ o ∈ s.containers, o.details.resource.uri = uri ∧ o.details.finishedAt = finishedAt

/-- The container is in the inventory of every cycle that has one. -/
def Present (uri : Str) (cs : List (PollCycle σ)) : Prop :=
  ∀ c ∈ cs, ∀ s, c.outcome = .ok s → ∃ finishedAt, Shows s uri finishedAt

/-- The sink was reached in two cycles, and the container ended in between. The cycles after
the first and up to the second are the later ones. -/
def Death (sink : σ) (uri : Str) (cs later : List (PollCycle σ)) : Prop :=
  ∃ first ci mid cj rest si sj before now, cs = first ++ ci :: (later ++ rest) ∧
    later = mid ++ [cj] ∧ Handed sink ci si (.ok ()) ∧ Handed sink cj sj (.ok ()) ∧
    Shows si uri before ∧ Shows sj uri now ∧ now ≠ none ∧ now ≠ before

/-- A snapshot that the sink has published tells of the container. -/
def Published (sink : σ) (uri : Str) (later : List (PollCycle σ)) : Prop :=
  ∃ c ∈ later, ∃ s, Handed sink c s (.ok ()) ∧ eventsOf s uri ≠ []

/-- A snapshot that the sink was handed tells of the container, and it is one that the sink
has published if the sink never raised in these cycles. -/
def HandedOver (sink : σ) (uri : Str) (later : List (PollCycle σ)) : Prop :=
  (∃ c ∈ later, ∃ s reply, Handed sink c s reply ∧ eventsOf s uri ≠ []) ∧
    ((∀ c ∈ later, ∀ s e, ¬ Handed sink c s (.error e)) → Published sink uri later)

theorem handed_published {sink : σ} {c : PollCycle σ} {s : DriverSnapshot} {reply : Except Exn Unit}
    (h : Handed sink c s reply) : (sink, s) ∈ published c.trace :=
  List.mem_filterMap.mpr ⟨_, h, rfl⟩

theorem exists_handed {sink : σ} {c : PollCycle σ} {s : DriverSnapshot}
    (h : (sink, s) ∈ published c.trace) : ∃ reply, Handed sink c s reply := by
  obtain ⟨⟨call, reply⟩, hmem, hsome⟩ := List.mem_filterMap.mp h
  cases call with
  | publish sink' s' =>
    obtain ⟨rfl, rfl⟩ := Prod.mk.inj (Option.some.inj hsome)
    exact ⟨reply, hmem⟩
  | _ => cases hsome

section Step

variable {r r' : DriverRunner σ} {c : PollCycle σ}
  (h : (runOnce r).Exec c.trace (.ok (c.outcome, r'))) (hc : ∀ x ∈ c.trace, Contained x)

include h hc

theorem sinks_step : r'.sinks = r.sinks := by
  cases exec_runOnce h hc with
  | inl hfail => rw [hfail.choose_spec.2.2]
  | inr hdone =>
    obtain ⟨_, _, _, _, -, -, -, rfl, -⟩ := hdone
    rfl

/-- A sink is handed the snapshot of its cycle. -/
theorem outcome_of_handed {sink : σ} {s : DriverSnapshot} {reply : Except Exn Unit}
    (hs : Handed sink c s reply) : c.outcome = .ok s ∧ sink ∈ r.sinks := by
  have hpublished := handed_published hs
  cases exec_runOnce h hc with
  | inl hfail =>
    obtain ⟨e, -, hnone, -⟩ := hfail
    rw [hnone] at hpublished
    cases hpublished
  | inr hdone =>
    obtain ⟨_, _, _, _, -, -, hout, -, hall⟩ := hdone
    rw [hall] at hpublished
    obtain ⟨sink', hmem, he⟩ := List.mem_map.mp hpublished
    obtain ⟨rfl, rfl⟩ := Prod.mk.inj he
    exact ⟨hout, hmem⟩

/-- Every sink is handed the snapshot of a cycle that has one. -/
theorem exists_handed_of_outcome {sink : σ} (hsink : sink ∈ r.sinks) {s : DriverSnapshot}
    (hs : c.outcome = .ok s) : ∃ reply, Handed sink c s reply := by
  cases exec_runOnce h hc with
  | inl hfail =>
    obtain ⟨e, he, -⟩ := hfail
    rw [hs] at he
    cases he
  | inr hdone =>
    obtain ⟨_, _, _, _, -, -, hout, -, hall⟩ := hdone
    obtain rfl := Except.ok.inj (hs.symm.trans hout)
    apply exists_handed
    rw [hall]
    exact List.mem_map_of_mem hsink

end Step

section Run

variable {r r' : DriverRunner σ} {cs : List (PollCycle σ)}

/-- A snapshot with a death since the one before has an event for it. -/
theorem eventsOf_ne_nil {s s' : DriverSnapshot} (h : EventsFollow s s') {uri : Str}
    {before now : Option Str} (hs : Shows s uri before) (hs' : Shows s' uri now) (hnow : now ≠ none)
    (hne : now ≠ before) : eventsOf s' uri ≠ [] := by
  obtain ⟨a, ha, rfl, rfl⟩ := hs
  obtain ⟨b, hb, huri, rfl⟩ := hs'
  obtain ⟨e, he, -⟩ := h.1 a ha b hb huri.symm (.inl ⟨hnow, hne⟩)
  rw [← huri, he]
  exact List.cons_ne_nil e []

/-- However many cycles a death takes to be seen, and whatever fails in between, the first
cycle that shows it hands it over: by induction on the cycles, with the baselines those of
the last snapshot. -/
theorem exists_event {sink : σ} (h : Run r cs r') (hc : ∀ c ∈ cs, c.Regular) (hsink : sink ∈ r.sinks)
    {uri : Str} (hp : Present uri cs) {s : DriverSnapshot} (hr : Remembers r s)
    {before now : Option Str} (hs : Shows s uri before) (hnow : now ≠ none) (hne : now ≠ before)
    (hlast : ∃ c ∈ cs, ∃ s', c.outcome = .ok s' ∧ Shows s' uri now) :
    ∃ c ∈ cs, ∃ s' reply, Handed sink c s' reply ∧ eventsOf s' uri ≠ [] := by
  induction h generalizing s before with
  | nil r =>
    obtain ⟨c, hmem, -⟩ := hlast
    cases hmem
  | @cons r q r' c cs hstep hrest ih =>
    have hcontained := (hc c List.mem_cons_self).contained
    have hregular : ∀ d ∈ cs, d.Regular := fun d hd => hc d (List.mem_cons_of_mem c hd)
    have hpresent : Present uri cs := fun d hd => hp d (List.mem_cons_of_mem c hd)
    have hsinks : sink ∈ q.sinks := (sinks_step hstep hcontained).symm ▸ hsink
    -- a cycle that does not show the death leaves it to the rest
    have hgoesOn : ∀ {s : DriverSnapshot} {before : Option Str}, Remembers q s → Shows s uri before →
        now ≠ before → (∀ s', c.outcome = .ok s' → ¬ Shows s' uri now) →
          ∃ d ∈ c :: cs, ∃ s' reply, Handed sink d s' reply ∧ eventsOf s' uri ≠ [] := by
      intro s before hr hs hne hnot
      have hlater : ∃ d ∈ cs, ∃ s', d.outcome = .ok s' ∧ Shows s' uri now := by
        obtain ⟨d, hd, s', hs', hshows⟩ := hlast
        cases List.mem_cons.mp hd with
        | inl hd => exact absurd hshows (hnot s' (hd ▸ hs'))
        | inr hd => exact ⟨d, hd, s', hs', hshows⟩
      obtain ⟨d, hd, hevent⟩ := ih hregular hsinks hpresent hr hs hne hlater
      exact ⟨d, List.mem_cons_of_mem c hd, hevent⟩
    cases hout : c.outcome with
    | error e =>
      obtain rfl := step_failed hstep hcontained (by rw [PollCycle.succeeded, hout]; rfl)
      apply hgoesOn hr hs hne
      intro s' hs'
      rw [hout] at hs'
      cases hs'
    | ok s' =>
      obtain ⟨hr', hfollows⟩ := step_succeeded hstep (hc c List.mem_cons_self) hout
      by_cases hshows : Shows s' uri now
      · obtain ⟨reply, hhanded⟩ := exists_handed_of_outcome hstep hcontained hsink hout
        exact ⟨c, List.mem_cons_self, s', reply, hhanded,
          eventsOf_ne_nil (hfollows s hr) hs hshows hnow hne⟩
      · obtain ⟨finishedAt, hfinished⟩ := hp c List.mem_cons_self s' hout
        apply hgoesOn hr' hfinished
        · rintro rfl
          exact hshows hfinished
        · intro s'' hs''
          rw [hout] at hs''
          obtain rfl := Except.ok.inj hs''
          exact hshows

end Run

def outageAlive : DriverResourceDetails := plainDetails ['a']

def outageDead : DriverResourceDetails := { outageAlive with finishedAt := some ['t'] }

def outageSnapshot (details : DriverResourceDetails) (events : List DriverEvent) : DriverSnapshot :=
  ⟨[], [], [⟨details, none, none, none⟩], [], events⟩

/-- The first sink is down in the cycle that finds the container dead, and back in the next. -/
def outageRun : List (PollCycle Bool) :=
  [cycle outageAlive [] [] (.ok ()), cycle outageDead [⟨.logs ['a'] 50, .ok ⟨[], false⟩⟩]
      [⟨.exited, ['a'], [], none, []⟩] (.error (.exception [])), cycle outageDead [] [] (.ok ())]
where
  cycle (details : DriverResourceDetails) (logs : List (Exchange (Env Bool)))
      (events : List DriverEvent) (reply : Except Exn Unit) : PollCycle Bool :=
    ⟨⟨.now, []⟩ :: ⟨.query (.all .container), .ok [plainContainer ['a']]⟩ ::
        ⟨.describe ['a'], .ok details⟩ :: logs ++
        [⟨.publish true (outageSnapshot details events), reply⟩,
          ⟨.publish false (outageSnapshot details events), .ok ()⟩],
      .ok (outageSnapshot details events)⟩

theorem run_outageRun : ∃ r, Run freshRunner outageRun r := by
  apply Exists.intro
  apply Run.cons
  · exact ⟨_, _, rfl, _, _, rfl, _, _, rfl, _, _, rfl, _, _, rfl, rfl, rfl⟩
  apply Run.cons
  · exact ⟨_, _, rfl, _, _, rfl, _, _, rfl, _, _, rfl, _, _, rfl, _, _, rfl, rfl, rfl⟩
  apply Run.cons
  · exact ⟨_, _, rfl, _, _, rfl, _, _, rfl, _, _, rfl, _, _, rfl, rfl, rfl⟩
  · exact Run.nil _

theorem regular_outageRun : ∀ c ∈ outageRun, c.Regular := by
  intro c hc
  constructor <;>
    simp only [outageRun, List.mem_cons, List.not_mem_nil, or_false] at hc <;>
    obtain rfl | rfl | rfl := hc <;>
    simp [outageRun.cycle, listings, describes, returned, Contained, plainDetails, plainContainer,
      outageAlive, outageDead, Except.toOption, Exn.isException]

theorem present_outageRun : Present ['a'] outageRun := by
  intro c hc s hs
  simp only [outageRun, List.mem_cons, List.not_mem_nil, or_false] at hc
  obtain rfl | rfl | rfl := hc <;>
  · obtain rfl := Except.ok.inj hs
    exact ⟨_, _, List.mem_cons_self, rfl, rfl⟩

def outageLater : List (PollCycle Bool) := outageRun.tail

theorem death_outageRun : Death true ['a'] outageRun outageLater := by
  refine ⟨[], _, [_], _, [], outageSnapshot outageAlive [], outageSnapshot outageDead [], none,
    some ['t'], rfl, rfl, ?_, ?_, ?_, ?_, nofun, nofun⟩
  · simp [Handed, outageRun.cycle]
  · simp [Handed, outageRun.cycle]
  · exact ⟨_, List.mem_cons_self, rfl, rfl⟩
  · exact ⟨_, List.mem_cons_self, rfl, rfl⟩

end MiraDriver.Outage
