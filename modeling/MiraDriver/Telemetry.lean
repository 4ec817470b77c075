import MiraDriver.Base
import MiraDriver.Program

/-!
# The counting exporter

`telemetry.py`, `_CountingExporter`: it wraps an exporter, and counts what comes of its batches in
an `ExportStats` that may be read at any time, from another thread.
-/
namespace MiraDriver.Telemetry

open MiraDriver.Base MiraDriver.Program

/-- The fields of `ExportStats`. -/
inductive Stat where
  | attemptedBatches
  | failedBatches
  | failedSpans
  deriving DecidableEq, Repr

inductive SpanExportResult where
  | success
  | failure
  deriving DecidableEq, Repr

/-- What the exporter does: it adds to a field, or calls its delegate. -/
inductive Call (σ : Type) where
  | add (stat : Stat) (n : Nat)
  | exportSpans (spans : List σ)
  | shutdown
  | forceFlush (timeoutMillis : Int)

abbrev Reply {σ : Type} : Call σ → Type
  | .add _ _ => Unit
  | .exportSpans _ => Except Exn SpanExportResult
  | .shutdown => Except Exn Unit
  | .forceFlush _ => Except Exn Bool

abbrev exporter (σ : Type) : Interface := ⟨Call σ, Reply⟩

variable {σ : Type}

def ask {ε : Type} (c : Call σ) : Prog (exporter σ) ε (Reply c) := Prog.ask (I := exporter σ) c

/-- The result that counts: an `Exception` counts as a failure. -/
def resultOf (reply : Except Exn SpanExportResult) : Except Exn SpanExportResult :=
  match reply with
  | .ok result => .ok result
  | .error e => if e.isException then .ok .failure else .error e

/-- `export`. -/
def exportSpans (spans : List σ) : Prog (exporter σ) Exn SpanExportResult := do
  ask (.add .attemptedBatches 1)
  let reply ← ask (.exportSpans spans)
  let result ← Prog.ofExcept (resultOf reply)
  if result = .success then pure result
  else do
    ask (.add .failedBatches 1)
    ask (.add .failedSpans spans.length)
    pure result

/-- `shutdown`. -/
def shutdown : Prog (exporter σ) Exn Unit := do
  let reply ← ask .shutdown
  Prog.ofExcept reply

/-- `force_flush`. -/
def forceFlush (timeoutMillis : Int) : Prog (exporter σ) Exn Bool := do
  let reply ← ask (.forceFlush timeoutMillis)
  Prog.ofExcept reply

/-! ## What has been counted -/

/-- What has been added to a field. -/
def counted (stat : Stat) (t : List (Exchange (exporter σ))) : Nat :=
  (t.map fun
    | ⟨.add s n, _⟩ => if s = stat then n else 0
    | _ => 0).sum

/-- The batches that the delegate has been given, with what has come of them. -/
def delegated (t : List (Exchange (exporter σ))) : List (List σ × Except Exn SpanExportResult) :=
  t.filterMap fun
    | ⟨.exportSpans spans, reply⟩ => some (spans, reply)
    | _ => none

/-- The delegate has failed, and not with an exception that ends the process. -/
def Failed (x : List σ × Except Exn SpanExportResult) : Bool := resultOf x.2 = .ok .failure

def failed (t : List (Exchange (exporter σ))) : List (List σ) := ((delegated t).filter Failed).map Prod.fst

/-- The number of spans in batches that have failed. -/
def lost (t : List (Exchange (exporter σ))) : Nat := ((failed t).map List.length).sum

/-- The size of the batch that the delegate was given last. -/
def inProgress (t : List (Exchange (exporter σ))) : Nat := ((delegated t).getLast?.map fun x => x.1.length).getD 0

/-- A reader is behind by one batch at the most, and by that batch's spans. -/
structure Behind (t : List (Exchange (exporter σ))) : Prop where
  attempted : (delegated t).length ≤ counted .attemptedBatches t
  ahead : counted .attemptedBatches t ≤ (delegated t).length + 1
  failedBatches : counted .failedBatches t ≤ (failed t).length
  pending : (failed t).length ≤ counted .failedBatches t + 1
  failedSpans : counted .failedSpans t ≤ lost t
  pendingSpans : lost t ≤ counted .failedSpans t + inProgress t

/-- Nothing is counted twice or left out, at any time; between two calls the counts are exact. -/
structure Accounted (t : List (Exchange (exporter σ))) : Prop where
  during : ∀ s, s <+: t → Behind s
  attempted : counted .attemptedBatches t = (delegated t).length
  failedBatches : counted .failedBatches t = (failed t).length
  failedSpans : counted .failedSpans t = lost t

section Append

variable (s t : List (Exchange (exporter σ)))

@[simp] theorem counted_append (stat : Stat) : counted stat (s ++ t) = counted stat s + counted stat t := by
  simp [counted]

@[simp] theorem delegated_append : delegated (s ++ t) = delegated s ++ delegated t := List.filterMap_append

@[simp] theorem failed_append : failed (s ++ t) = failed s ++ failed t := by simp [failed]

@[simp] theorem lost_append : lost (s ++ t) = lost s + lost t := by simp [lost]

end Append

/-- What is in progress has failed, or nothing has been lost. -/
theorem pendingSpans_append (s : List (Exchange (exporter σ))) {t : List (Exchange (exporter σ))}
    (h : lost t ≤ counted .failedSpans t + inProgress t) : lost t ≤ counted .failedSpans t + inProgress (s ++ t) := by
  cases hlast : (delegated t).getLast? with
  | none =>
    have hlost : lost t = 0 := by
      simp [lost, failed, List.getLast?_eq_none_iff.mp hlast]
    omega
  | some x =>
    have hsame : inProgress (s ++ t) = inProgress t := by
      rw [inProgress, inProgress, delegated_append, List.getLast?_append, hlast, Option.some_or]
    omega

theorem behind_append {s t : List (Exchange (exporter σ))} (hs : Accounted s) (ht : Behind t) : Behind (s ++ t) := by
  obtain ⟨-, hattempted, hfailed, hlost⟩ := hs
  obtain ⟨h₁, h₂, h₃, h₄, h₅, h₆⟩ := ht
  have hpending := pendingSpans_append s h₆
  constructor <;> simp only [counted_append, delegated_append, failed_append, lost_append, List.length_append] <;> omega

theorem accounted_append {s t : List (Exchange (exporter σ))} (hs : Accounted s) (ht : Accounted t) :
    Accounted (s ++ t) := by
  refine ⟨?_, ?_, ?_, ?_⟩
  · intro p hp
    rcases List.prefix_or_prefix_of_prefix hp (List.prefix_append s t) with hp' | ⟨q, rfl⟩
    · exact hs.during p hp'
    · exact behind_append hs (ht.during q ((List.prefix_append_right_inj s).mp hp))
  · simp [hs.attempted, ht.attempted]
  · simp [hs.failedBatches, ht.failedBatches]
  · simp [hs.failedSpans, ht.failedSpans]

theorem accounted_nil : Accounted ([] : List (Exchange (exporter σ))) := by
  refine ⟨?_, rfl, rfl, rfl⟩
  intro s hs
  rw [List.prefix_nil.mp hs]
  exact ⟨Nat.le_refl 0, Nat.zero_le 1, Nat.le_refl 0, Nat.zero_le 1, Nat.le_refl 0, Nat.zero_le _⟩

/-! ## One call -/

/-- The counts of a batch that has failed. -/
def closing (spans : List σ) : List (Exchange (exporter σ)) :=
  [⟨.add .failedBatches 1, ()⟩, ⟨.add .failedSpans spans.length, ()⟩]

/-- A batch is counted before it is given to the delegate, and again if it fails. -/
theorem exec_exportSpans {spans : List σ} {t : List (Exchange (exporter σ))} {r : Except Exn SpanExportResult}
    (h : (exportSpans spans).Exec t r) : ∃ reply, r = resultOf reply ∧
      t = ⟨.add .attemptedBatches 1, ()⟩ :: ⟨.exportSpans spans, reply⟩ ::
        if resultOf reply = .ok .failure then closing spans else [] := by
  obtain ⟨u, t, rfl, reply, t, rfl, hrest⟩ := h
  refine ⟨reply, ?_⟩
  change (Prog.ofExcept (resultOf reply) >>= fun result => if result = .success then pure result else do
    ask (.add .failedBatches 1)
    ask (.add .failedSpans spans.length)
    pure result).Exec t r at hrest
  cases hresult : resultOf reply with
  | error e =>
    rw [hresult] at hrest
    obtain ⟨rfl, rfl⟩ := hrest
    exact ⟨rfl, rfl⟩
  | ok result =>
    rw [hresult] at hrest
    cases result with
    | success =>
      obtain ⟨rfl, rfl⟩ := hrest
      exact ⟨rfl, rfl⟩
    | failure =>
      obtain ⟨u, t, rfl, v, t, rfl, rfl, rfl⟩ := hrest
      exact ⟨rfl, rfl⟩

/-- Before it is known what comes of a batch. -/
theorem behind_opening {spans : List σ} {reply : Except Exn SpanExportResult} {s : List (Exchange (exporter σ))}
    (hs : s <+: [⟨.add .attemptedBatches 1, ()⟩, ⟨.exportSpans spans, reply⟩]) : Behind s := by
  simp only [List.prefix_cons_iff, List.prefix_nil] at hs
  obtain rfl | ⟨_, rfl, rfl | ⟨_, rfl, rfl⟩⟩ := hs
  · exact accounted_nil.during [] List.nil_prefix
  · constructor <;> simp [counted, lost, failed, delegated]
  · by_cases hfailed : resultOf reply = .ok .failure <;>
    constructor <;> simp [counted, lost, failed, delegated, inProgress, Failed, hfailed]

/-- At every point of an export the counts are behind by this batch at the most. -/
theorem accounted_exportSpans {spans : List σ} {t : List (Exchange (exporter σ))}
    {r : Except Exn SpanExportResult} (h : (exportSpans spans).Exec t r) : Accounted t := by
  obtain ⟨reply, -, rfl⟩ := exec_exportSpans h
  by_cases hfailed : resultOf reply = .ok .failure
  · rw [if_pos hfailed]
    refine ⟨?_, ?_, ?_, ?_⟩
    · intro s hs
      rcases List.prefix_or_prefix_of_prefix hs (List.prefix_append
        [⟨.add .attemptedBatches 1, ()⟩, ⟨.exportSpans spans, reply⟩] (closing spans)) with hs' | ⟨q, rfl⟩
      · exact behind_opening hs'
      · -- one field is behind, or none
        have hq : q <+: closing spans := (List.prefix_append_right_inj _).mp hs
        simp only [closing, List.prefix_cons_iff, List.prefix_nil] at hq
        obtain rfl | ⟨_, rfl, rfl | ⟨_, rfl, rfl⟩⟩ := hq
        · rw [List.append_nil]
          exact behind_opening (List.prefix_refl _)
        all_goals constructor <;> simp [counted, lost, failed, delegated, inProgress, Failed, hfailed]
    · simp [counted, delegated, closing]
    · simp [counted, failed, delegated, Failed, closing, hfailed]
    · simp [counted, lost, failed, delegated, Failed, closing, hfailed]
  · rw [if_neg hfailed]
    refine ⟨fun s hs => behind_opening hs, ?_, ?_, ?_⟩
    · simp [counted, delegated]
    · simp [counted, failed, delegated, Failed, hfailed]
    · simp [counted, lost, failed, delegated, Failed, hfailed]

/-- A call that is passed on counts nothing. -/
theorem accounted_passed {x : Exchange (exporter σ)} (hcounted : ∀ stat, counted stat [x] = 0)
    (hdelegated : delegated [x] = []) : Accounted [x] := by
  have hfailed : failed [x] = [] := by simp [failed, hdelegated]
  have hlost : lost [x] = 0 := by simp [lost, hfailed]
  refine ⟨?_, by rw [hcounted, hdelegated, List.length_nil], by rw [hcounted, hfailed, List.length_nil],
    by rw [hcounted, hlost]⟩
  intro s hs
  simp only [List.prefix_cons_iff, List.prefix_nil] at hs
  obtain rfl | ⟨_, rfl, rfl⟩ := hs
  · exact accounted_nil.during [] (List.nil_prefix)
  · constructor <;> simp [hcounted, hdelegated, hfailed, hlost]

/-! ## All calls -/

/-- A call of the exporter, whatever it is answered and however it ends. -/
inductive Used : List (Exchange (exporter σ)) → Prop
  | exportSpans {spans : List σ} {t : List (Exchange (exporter σ))} {r : Except Exn SpanExportResult} :
    (exportSpans spans).Exec t r → Used t
  | shutdown {t : List (Exchange (exporter σ))} {r : Except Exn Unit} : shutdown.Exec t r → Used t
  | forceFlush {n : Int} {t : List (Exchange (exporter σ))} {r : Except Exn Bool} :
    (forceFlush n).Exec t r → Used t

theorem accounted_of_used {t : List (Exchange (exporter σ))} (h : Used t) : Accounted t := by
  cases h with
  | exportSpans h => exact accounted_exportSpans h
  | shutdown h =>
    obtain ⟨reply, t, rfl, hreply⟩ := h
    obtain ⟨rfl, -⟩ := (Prog.exec_ofExcept _ _ _).mp hreply
    exact accounted_passed (fun _ => rfl) rfl
  | forceFlush h =>
    obtain ⟨reply, t, rfl, hreply⟩ := h
    obtain ⟨rfl, -⟩ := (Prog.exec_ofExcept _ _ _).mp hreply
    exact accounted_passed (fun _ => rfl) rfl

/-- However often the exporter is used, and whatever its delegate does, what is read is behind by one
batch at the most, and exact between two calls. -/
theorem exporter_accounted {calls : List (List (Exchange (exporter σ)))} (h : ∀ t ∈ calls, Used t) :
    Accounted calls.flatten := by
  induction calls with
  | nil => exact accounted_nil
  | cons t calls ih =>
    obtain ⟨ht, hcalls⟩ := List.forall_mem_cons.mp h
    exact accounted_append (accounted_of_used ht) (ih hcalls)

/-- A delegate that cannot export anything of two spans. -/
def smallDelegate (_ : Unit) : (c : Call Nat) → Reply c × Unit
  | .add _ _ => ((), ())
  | .exportSpans spans =>
    (if spans.length < 2 then .ok .success else .error (.exception (Text.lit "ConnectionError")), ())
  | .shutdown => (.ok (), ())
  | .forceFlush _ => (.ok true, ())

/-- What is done in an export. -/
def exported (spans : List Nat) : List (Exchange (exporter Nat)) :=
  ((exportSpans spans).serve (I := exporter Nat) smallDelegate ()).2.1

theorem used_exported (spans : List Nat) : Used (exported spans) :=
  .exportSpans (Prog.exec_serve (I := exporter Nat) smallDelegate (exportSpans spans) ())

theorem exporter_accounted_small :
    (counted .attemptedBatches [exported [1], exported [2, 3], exported [4, 5, 6]].flatten = 3 ∧
      counted .failedBatches [exported [1], exported [2, 3], exported [4, 5, 6]].flatten = 2 ∧
      counted .failedSpans [exported [1], exported [2, 3], exported [4, 5, 6]].flatten = 5) ∧
    Accounted [exported [1], exported [2, 3], exported [4, 5, 6]].flatten :=
  ⟨by decide +kernel, exporter_accounted (by simp [used_exported])⟩

end MiraDriver.Telemetry
