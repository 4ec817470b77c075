import MiraDriver.BuildReport
import MiraDriver.Lockstep

/-!
# The attributes of a build's metrics

The metrics of a build have few attributes, on purpose: what identifies the build is in the log
record only.
-/
namespace MiraDriver.Cardinality

open MiraDriver.Text MiraDriver.Mapping MiraDriver.Base MiraDriver.Program MiraDriver.Document
  MiraDriver.Numerals MiraDriver.Dumps MiraDriver.Drivers MiraDriver.Admin MiraDriver.Url
  MiraDriver.BuildReport

/-- The variables that the metrics are made from. -/
def boundedVariables : List String :=
  ["OTEL_EXPORTER_OTLP_ENDPOINT", "OTEL_EXPORTER_OTLP_HEADERS", "REPO", "JOB_NAME", "BUILD_STARTED_AT"]

/-- Two builds of one image, in one job: they differ in what identifies a build. -/
structure SameJob (e f : Dict Str Str) : Prop where
  bounded : ∀ name ∈ boundedVariables, getenv e name = getenv f name
  imageName : (getenv e "IMAGE_REF").map (fun imageRef => (splitImageTag imageRef).1) =
    (getenv f "IMAGE_REF").map fun imageRef => (splitImageTag imageRef).1
  gitSha : (getenv e "GIT_SHA").isSome = (getenv f "GIT_SHA").isSome
  pushed : getenvOr e "IMAGE_DIGEST" = [] ↔ getenvOr f "IMAGE_DIGEST" = []

/-- The content of a post is a log record. -/
def isLogs (post : Post) : Bool := (Utf8.encode (lit "\x7b\"resourceLogs\": ")).isPrefixOf post.content

/-- The headers of a post, but for the length of its content. -/
def unmeasured (headers : List (Str × Str)) : List (Str × Str) :=
  headers.map fun header => if header.1 = lit "Content-Length" then (header.1, []) else header

/-- A call, but for the command, the content of a log record and the text that is printed. -/
inductive Observed where
  | time
  | run
  | logs (secure : Bool) (netloc path : Str) (headers : List (Str × Str))
  | post (post : Post)
  | print (level : Level)
  deriving DecidableEq, Repr

def observed : Call → Observed
  | .time => .time
  | .run _ => .run
  | .post post =>
    if isLogs post then .logs post.secure post.netloc post.path (unmeasured post.headers) else .post post
  | .print level _ => .print level

abbrev boundedView : Coupling world world := .through observed

theorem SameJob.getenv_eq {e f : Dict Str Str} (h : SameJob e f) {name : String} (hname : name ∈ boundedVariables) :
    getenv e name = getenv f name := h.bounded name hname

theorem SameJob.getenvOr_eq {e f : Dict Str Str} (h : SameJob e f) {name : String}
    (hname : name ∈ boundedVariables) : getenvOr e name = getenvOr f name := by
  rw [getenvOr, getenvOr, h.getenv_eq hname]

theorem lockstep_print (level : Level) (message message' : List Piece) :
    Prog.Lockstep boundedView Eq (say level message) (say level message') :=
  lockstep_say rfl fun _ _ h => eq_of_heq h

/-! ## Headers of two lengths -/

theorem unmeasured_put (k v : Str) {l l' : List (Str × Str)} (h : unmeasured l = unmeasured l') :
    unmeasured (put k v l) = unmeasured (put k v l') := by
  have hkey (header : Str × Str) :
      (if header.1 = lit "Content-Length" then (header.1, []) else header).1 = header.1 := by
    split <;> rfl
  rw [unmeasured, map_put hkey, unmeasured, map_put hkey]
  exact congrArg (put k _) h

theorem unmeasured_update (entries : List (Str × Str)) {d d' : Dict Str Str}
    (h : unmeasured d.entries = unmeasured d'.entries) :
    unmeasured (update d entries).entries = unmeasured (update d' entries).entries := by
  induction entries generalizing d d' with
  | nil => exact h
  | cons e entries ih => exact ih (unmeasured_put e.1 e.2 h)

/-! ## In step -/

section Bounded

variable [Python] [Digits] [Script] [FloatRepr]

omit [Python] [Digits] [FloatRepr] in
theorem lockstep_inspected (command command' : List Str) :
    Prog.Lockstep boundedView Eq (inspected command) (inspected command') := by
  refine .call rfl ?_
  intro x y hxy
  obtain rfl := eq_of_heq hxy
  apply Prog.lockstep_refl

omit [FloatRepr] in
theorem lockstep_resolved (imageRef imageRef' : Str) (manifest : Json) :
    Prog.Lockstep boundedView Eq (resolved imageRef manifest) (resolved imageRef' manifest) := by
  refine Prog.lockstep_bind (Prog.lockstep_refl _ _) ?_
  rintro d _ rfl
  cases d.get? (lit "manifests") with
  | none => apply Prog.lockstep_refl
  | some manifests =>
    refine Prog.lockstep_bind (Prog.lockstep_refl _ _) ?_
    rintro sub _ rfl
    refine Prog.lockstep_bind (lockstep_inspected _ _) ?_
    rintro layers _ rfl
    apply Prog.lockstep_refl

omit [FloatRepr] in
/-- What is known of an image does not depend on how it is named. -/
theorem lockstep_inspectImage {imageRef imageRef' digest digest' : Str} (h : digest = [] ↔ digest' = []) :
    Prog.Lockstep boundedView Eq (inspectImage imageRef digest) (inspectImage imageRef' digest') := by
  refine lockstep_rescue ?_ fun e => Prog.lockstep_bind (lockstep_print _ _ _) fun _ _ _ => .ret rfl
  unfold inspection
  by_cases hnil : digest = []
  · rw [if_neg (not_not.mpr hnil), if_neg (not_not.mpr (h.mp hnil))]
    refine Prog.lockstep_bind (lockstep_inspected _ _) ?_
    rintro info _ rfl
    apply Prog.lockstep_refl
  · rw [if_pos hnil, if_pos (mt h.mpr hnil)]
    refine Prog.lockstep_bind (lockstep_inspected _ _) ?_
    rintro manifest _ rfl
    apply lockstep_resolved

omit [Python] [Digits] [Script] in
theorem dumps_singleton (key : Str) (value : Body) :
    dumps (.obj [(key, value)]) = '{' :: (dumpsStr key ++ [':', ' ']) ++ (dumps value ++ ['}']) := by
  simp [dumps, dumpsMembers, joined]

omit [Python] [Digits] [Script] in
theorem isLogs_logsBody (repo : Str) (record : Body) :
    (Utf8.encode (lit "\x7b\"resourceLogs\": ")).isPrefixOf (Utf8.encode (dumps (logsBody repo record))) = true := by
  have hkey : '{' :: (dumpsStr (lit "resourceLogs") ++ [':', ' ']) = lit "\x7b\"resourceLogs\": " := by
    decide +kernel
  rw [logsBody, field, dumps_singleton, hkey, Utf8.encode_append, List.isPrefixOf_iff_prefix]
  exact List.prefix_append _ _

omit [Digits] [Script] in
/-- The posts of two log records differ in their contents only. -/
theorem outcomes_postOf_logs (baseUrl : Str) (headers : Dict Str Str) (repo : Str) (record record' : Body) :
    Outcomes (fun p q => observed (.post p) = observed (.post q))
      (postOf baseUrl (lit "/v1/logs") headers (logsBody repo record))
      (postOf baseUrl (lit "/v1/logs") headers (logsBody repo record')) := by
  unfold postOf
  cases urlsplit (rstrip '/' baseUrl ++ lit "/v1/logs") with
  | none => exact .error _
  | some parsed =>
    dsimp only
    split
    · exact .error _
    · apply Outcomes.ok
      have hown (n m : Str) : unmeasured
          (Dict.ofList [(lit "Content-Type", lit "application/json"), (lit "Content-Length", n)]).entries =
          unmeasured (Dict.ofList [(lit "Content-Type", lit "application/json"), (lit "Content-Length", m)]).entries := by
        simp [Dict.ofList, Dict.set, Dict.empty, put, unmeasured, lit_def]
      simp only [observed, isLogs, isLogs_logsBody, if_true]
      rw [unmeasured_update headers.entries (hown _ _)]

omit [Digits] [Script] in
theorem lockstep_postJson_logs (baseUrl : Str) (headers : Dict Str Str) (repo : Str) (record record' : Body) :
    Prog.Lockstep boundedView Eq (postJson baseUrl (lit "/v1/logs") headers (logsBody repo record))
      (postJson baseUrl (lit "/v1/logs") headers (logsBody repo record')) := by
  refine Prog.lockstep_bind (Prog.lockstep_ofExcept (outcomes_postOf_logs _ _ _ _ _)) ?_
  intro post post' hpost
  refine .call hpost ?_
  intro x y hxy
  obtain rfl := eq_of_heq hxy
  apply Prog.lockstep_refl

section SameJob

variable {e f : Dict Str Str}

omit [Digits] [Script] in
/-- A body is posted for one image, and another for the other. -/
theorem SameJob.lockstep_postBody (h : SameJob e f) (imageRef imageRef' : Str) {path : String} {body body' : Body}
    (hbody : ∀ baseUrl headers, Prog.Lockstep boundedView Eq (postJson baseUrl (lit path) headers body)
      (postJson baseUrl (lit path) headers body')) :
    Prog.Lockstep boundedView Eq (postBody e imageRef path body) (postBody f imageRef' path body') := by
  unfold postBody
  rw [h.getenvOr_eq (by simp [boundedVariables]), h.getenvOr_eq (by simp [boundedVariables])]
  refine lockstep_rescue ?_ fun e => lockstep_print _ _ _
  refine Prog.lockstep_bind (hbody _ _) ?_
  rintro status _ rfl
  apply lockstep_print

omit [Digits] [Script] in
theorem SameJob.lockstep_postLogs (h : SameJob e f) (imageRef imageRef' : Str) {subject subject' : Subject}
    (hrepo : subject.repo = subject'.repo) (measured : Measured) :
    Prog.Lockstep boundedView Eq (postLogs e imageRef subject measured) (postLogs f imageRef' subject' measured) := by
  unfold postLogs
  rw [hrepo]
  apply h.lockstep_postBody
  intro baseUrl headers
  apply lockstep_postJson_logs

omit [Digits] [Script] in
theorem SameJob.lockstep_postMetrics (h : SameJob e f) (imageRef imageRef' : Str) {subject subject' : Subject}
    (hname : subject.imageName = subject'.imageName) (hjob : subject.job = subject'.job)
    (hrepo : subject.repo = subject'.repo) (measured : Measured) :
    Prog.Lockstep boundedView Eq (postMetrics e imageRef subject measured)
      (postMetrics f imageRef' subject' measured) := by
  unfold postMetrics
  rw [hname, hjob, hrepo]
  dsimp only
  split
  · apply h.lockstep_postBody
    intro baseUrl headers
    apply Prog.lockstep_refl
  · apply lockstep_print

omit [Python] [Digits] [Script] [FloatRepr] in
theorem outcomes_required {name : String} {R : Str → Str → Prop}
    (hset : (getenv e name).isSome = (getenv f name).isSome)
    (hR : ∀ a b, getenv e name = some a → getenv f name = some b → R a b) :
    Outcomes R (required e name) (required f name) := by
  unfold required
  cases he : getenv e name with
  | none =>
    cases hf : getenv f name with
    | none => exact .error _
    | some b => simp [he, hf] at hset
  | some a =>
    cases hf : getenv f name with
    | none => simp [he, hf] at hset
    | some b => exact .ok (hR a b he hf)

theorem SameJob.lockstep_main (h : SameJob e f) : Prog.Lockstep boundedView Eq (main e) (main f) := by
  have hendpoint : getenvOr e "OTEL_EXPORTER_OTLP_ENDPOINT" = getenvOr f "OTEL_EXPORTER_OTLP_ENDPOINT" :=
    h.getenvOr_eq (by simp [boundedVariables])
  unfold main
  rw [hendpoint]
  split
  · apply Prog.lockstep_refl
  · -- the image has one name, however it is tagged
    have himage : Outcomes (fun a b => (splitImageTag a).1 = (splitImageTag b).1) (required e "IMAGE_REF")
        (required f "IMAGE_REF") := by
      have hsome := congrArg Option.isSome h.imageName
      simp only [Option.isSome_map] at hsome
      refine outcomes_required hsome ?_
      intro a b ha hb
      have hname := h.imageName
      rw [ha, hb] at hname
      exact Option.some.inj hname
    have hrepo : required e "REPO" = required f "REPO" := by
      rw [required, required, h.getenv_eq (by simp [boundedVariables])]
    have hstarted : getenvOr e "BUILD_STARTED_AT" = getenvOr f "BUILD_STARTED_AT" :=
      h.getenvOr_eq (by simp [boundedVariables])
    rw [hrepo, hstarted]
    refine Prog.lockstep_bind (Prog.lockstep_ofExcept himage) ?_
    intro imageRef imageRef' hname
    refine Prog.lockstep_bind (Prog.lockstep_refl _ _) ?_
    rintro repo _ rfl
    refine Prog.lockstep_bind (Prog.lockstep_ofExcept (outcomes_required (R := fun _ _ => True) h.gitSha
      fun _ _ _ _ => trivial)) ?_
    intro gitSha gitSha' _
    refine Prog.lockstep_bind (Prog.lockstep_refl _ _) ?_
    rintro completed _ rfl
    refine Prog.lockstep_bind (lockstep_inspectImage h.pushed) ?_
    rintro image _ rfl
    refine Prog.lockstep_bind (Prog.lockstep_refl _ _) ?_
    rintro duration _ rfl
    refine Prog.lockstep_bind (Prog.lockstep_refl _ _) ?_
    rintro measured _ rfl
    have hjob : getenv e "JOB_NAME" = getenv f "JOB_NAME" := h.getenv_eq (by simp [boundedVariables])
    have hrepos : (subjectOf e imageRef repo gitSha).repo = (subjectOf f imageRef' repo gitSha').repo := rfl
    refine Prog.lockstep_bind (h.lockstep_postMetrics _ _ hname hjob hrepos measured) ?_
    rintro u _ rfl
    exact h.lockstep_postLogs _ _ hrepos measured

/-- Between two builds of one job nothing differs but commands, the contents of log records and what
is printed. So what identifies a build is in no metric, even where a post fails or something is
raised. -/
theorem script_bounded (h : SameJob e f) {t u : List (Exchange world)} {r s : Except Exn Nat}
    (ht : (script e).Exec t r) (hu : (script f).Exec u s) (hanswered : Answered boundedView t u) :
    t.map (fun x => observed x.1) = u.map (fun x => observed x.1) ∧ r = s := by
  have hscript : Prog.Lockstep boundedView Eq (script e) (script f) := by
    refine Prog.lockstep_bind (lockstep_rescue h.lockstep_main fun e => lockstep_print _ _ _) ?_
    rintro u _ rfl
    apply Prog.lockstep_refl
  obtain ⟨hcalls, hout⟩ := hscript.exec ht hu hanswered
  exact ⟨map_eq_of_forall₂ hcalls, outcomes_eq.mp hout⟩

end SameJob

end Bounded

/-! ## Two builds of an image -/

/-- Calls that look the same are of one kind. -/
theorem buildWorld_same (status : Except Exn Int) {c d : Call} (h : observed c = observed d) :
    HEq (buildWorld status () c).1 (buildWorld status () d).1 := by
  have hpost (post : Post) : observed (.post post) ≠ .time ∧ observed (.post post) ≠ .run ∧
      ∀ level, observed (.post post) ≠ .print level := by
    unfold observed
    dsimp only
    split <;> simp
  cases c <;> cases d
  case time.time => exact HEq.rfl
  case run.run => exact HEq.rfl
  case post.post => exact HEq.rfl
  case print.print => exact HEq.rfl
  case time.post post => exact absurd h.symm (hpost post).1
  case post.time post => exact absurd h (hpost post).1
  case run.post _ post => exact absurd h.symm (hpost post).2.1
  case post.run post _ => exact absurd h (hpost post).2.1
  case print.post level _ post => exact absurd h.symm ((hpost post).2.2 level)
  case post.print post level _ => exact absurd h ((hpost post).2.2 level)
  all_goals cases h

/-- What is answered depends on no more than the kind of the call. -/
theorem answered_reportOn (status : Except Exn Int) (e f : Dict Str Str) :
    Answered boundedView (reportOn status e).2.1 (reportOn status f).2.1 := by
  have hworld (environ : Dict Str Str) :
      ∀ x ∈ (reportOn status environ).2.1, x.2 = (buildWorld status () x.1).1 :=
    Prog.serve_forall (I := world) (buildWorld status) (fun _ _ => rfl) _ ()
  intro z hz hcall
  obtain ⟨hx, hy⟩ := List.of_mem_zip hz
  have hsame := buildWorld_same status hcall
  rw [← hworld e _ hx, ← hworld f _ hy] at hsame
  exact hsame

theorem sameJob_buildEnviron : SameJob (buildEnviron "sha-1" "1") (buildEnviron "sha-2" "2") := by
  constructor <;> decide +kernel

/-- The metrics are there, and the same for both builds. -/
theorem script_bounded_builds :
    (posts (reportOn (.ok 200) (buildEnviron "sha-1" "1")).2.1).map isLogs = [false, true] ∧
    (reportOn (.ok 200) (buildEnviron "sha-1" "1")).2.1.map (fun x => observed x.1) =
        (reportOn (.ok 200) (buildEnviron "sha-2" "2")).2.1.map (fun x => observed x.1) ∧
      (reportOn (.ok 200) (buildEnviron "sha-1" "1")).1 = (reportOn (.ok 200) (buildEnviron "sha-2" "2")).1 :=
  ⟨by decide +kernel, @script_bounded Python.ascii Digits.ascii Script.single FloatRepr.hundredths _ _
    sameJob_buildEnviron _ _ _ _ (exec_reportOn _ _) (exec_reportOn _ _) (answered_reportOn _ _ _)⟩

end MiraDriver.Cardinality
