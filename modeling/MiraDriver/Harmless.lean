import MiraDriver.BuildReport

/-!
# A report that fails no build

Whatever is answered, the script ends with the status 0, after few calls that change nothing. It
fails only if it is interrupted, or if the print that tells of the last error fails itself. A post
that fails does not keep it from the next one.
-/
namespace MiraDriver.Harmless

open MiraDriver.Text MiraDriver.Mapping MiraDriver.Base MiraDriver.Program MiraDriver.Document
  MiraDriver.Numerals MiraDriver.Admin MiraDriver.BuildReport

section Ordinary

variable {α β : Type}

/-- Whatever is raised is an `Exception`. -/
def Ordinary (x : Except Exn α) : Prop := ∀ e, x = .error e → e.isException = true

theorem ordinary_ok (a : α) : Ordinary (.ok a : Except Exn α) := by
  intro e h
  cases h

theorem ordinary_raised (name : String) : Ordinary (raised name : Except Exn α) := by
  intro e h
  obtain rfl := Except.error.inj h
  rfl

theorem ordinary_bind {x : Except Exn α} {f : α → Except Exn β} (hx : Ordinary x) (hf : ∀ a, Ordinary (f a)) :
    Ordinary (x >>= f) := by
  intro e h
  cases bind_error_iff.mp h with
  | inl h => exact hx e h
  | inr h =>
    obtain ⟨a, -, ha⟩ := h
    exact hf a e ha

theorem ordinary_mapM {f : α → Except Exn β} (hf : ∀ a, Ordinary (f a)) (l : List α) : Ordinary (l.mapM f) := by
  induction l with
  | nil => exact ordinary_ok []
  | cons a l ih =>
    rw [List.mapM_cons]
    refine ordinary_bind (hf a) fun b => ordinary_bind ih fun bs => ?_
    apply ordinary_ok

theorem ordinary_item (d : Object) (key : String) : Ordinary (item d key) := by
  unfold item
  split
  · apply ordinary_ok
  · apply ordinary_raised

theorem ordinary_asDict (value : Json) : Ordinary (asDict value) := by
  unfold asDict
  split
  · apply ordinary_ok
  · apply ordinary_raised

theorem ordinary_iterate (value : Json) : Ordinary (iterate value) := by
  cases value <;> first | apply ordinary_ok | apply ordinary_raised

theorem ordinary_firstOf (value : Json) : Ordinary (firstOf value) := by
  unfold firstOf
  split <;> first | apply ordinary_ok | apply ordinary_raised

theorem ordinary_lengthOf (value : Json) : Ordinary (lengthOf value) := by
  unfold lengthOf
  split <;> first | apply ordinary_ok | apply ordinary_raised

theorem ordinary_required (environ : Dict Str Str) (name : String) : Ordinary (required environ name) := by
  unfold required
  split
  · apply ordinary_ok
  · apply ordinary_raised

theorem ordinary_strInt (n : Int) : Ordinary (strInt n) := by
  unfold strInt
  split
  · apply ordinary_raised
  · apply ordinary_ok

variable [Python] [Digits] [Script]

omit [Script] in
theorem ordinary_intOf (value : Json) : Ordinary (intOf value) := by
  unfold intOf
  split
  · apply ordinary_ok
  · apply ordinary_ok
  · apply ordinary_ok
  · apply ordinary_raised
  · split
    · apply ordinary_ok
    · apply ordinary_raised
  · apply ordinary_raised

omit [Python] [Digits] in
theorem ordinary_subDigest (manifests : Json) : Ordinary (subDigest manifests) := by
  refine ordinary_bind (ordinary_firstOf _) fun first => ordinary_bind ?_ fun value => ordinary_ok _
  split
  · apply ordinary_item
  · apply ordinary_raised

omit [Script] in
theorem ordinary_layersOf (manifest : Json) : Ordinary (layersOf manifest) := by
  refine ordinary_bind (ordinary_asDict _) fun d => ordinary_bind (ordinary_iterate _) fun layers =>
    ordinary_bind (ordinary_mapM (fun layer => ?_) _) fun sizes => ordinary_ok _
  exact ordinary_bind (ordinary_asDict _) fun l => ordinary_intOf _

omit [Python] [Digits] [Script] in
theorem ordinary_imageOf (info : Json) : Ordinary (imageOf info) := by
  refine ordinary_bind (ordinary_asDict _) fun d => ordinary_bind ?_ fun rootFs => ordinary_bind ?_ fun count =>
    ordinary_ok _
  · unfold dictOrEmpty
    split
    · apply ordinary_asDict
    · apply ordinary_ok
  · unfold lengthOrZero
    split
    · apply ordinary_lengthOf
    · apply ordinary_ok

omit [Script] in
theorem ordinary_measure (completed : Rat) (duration : Option Double) (image : Json × Option Nat) :
    Ordinary (measure completed duration image) := by
  refine ordinary_bind ?_ fun size => ordinary_ok _
  unfold sizeText
  split
  · apply ordinary_ok
  · exact ordinary_bind (ordinary_intOf _) fun n => ordinary_bind (ordinary_strInt n) fun text => ordinary_ok _

end Ordinary

/-- The reply is this exception. -/
def Fails (e : Exn) : Exchange world → Prop
  | ⟨.time, _⟩ => False
  | ⟨.run _, out⟩ => out = .error e
  | ⟨.post _, status⟩ => status = .error e
  | ⟨.print _ _, printed⟩ => printed = .error e

/-- It is over with a call that raises this exception. -/
def EndsWith (e : Exn) (t : List (Exchange world)) : Prop := ∃ x, t.getLast? = some x ∧ Fails e x

theorem EndsWith.append {e : Exn} {t : List (Exchange world)} (h : EndsWith e t) (s : List (Exchange world)) :
    EndsWith e (s ++ t) := by
  obtain ⟨x, hx, hfails⟩ := h
  exact ⟨x, by rw [List.getLast?_append, hx, Option.some_or], hfails⟩

section Blames

variable {α β : Type}

/-- Whatever is raised is an `Exception`, or was the last reply. -/
def Blames (p : Prog world Exn α) : Prop :=
  ∀ t e, p.Exec t (.error e) → e.isException = true ∨ EndsWith e t

theorem blames_pure (a : α) : Blames (pure a) := by
  rintro t e ⟨-, h⟩
  cases h

theorem blames_ofExcept {x : Except Exn α} (h : Ordinary x) : Blames (Prog.ofExcept x) := by
  intro t e hexec
  exact .inl (h e ((Prog.exec_ofExcept _ _ _).mp hexec).2.symm)

theorem blames_bind {p : Prog world Exn α} {f : α → Prog world Exn β} (hp : Blames p) (hf : ∀ a, Blames (f a)) :
    Blames (p >>= f) := by
  intro t e h
  obtain ⟨t₁, t₂, x, rfl, h₁, h₂⟩ := Prog.exec_bind_outcome h
  cases x with
  | ok a => exact (hf a t₂ e h₂).imp_right fun hends => hends.append t₁
  | error e' =>
    obtain ⟨rfl, he⟩ := h₂
    obtain rfl := Except.error.inj he
    rw [List.append_nil]
    exact hp t₁ e h₁

/-- A call whose failure is raised, or what is made of its result. -/
theorem blames_ask {c : Call} {f : Reply c → Except Exn α}
    (h : ∀ x e, f x = .error e → e.isException = true ∨ Fails e ⟨c, x⟩) :
    Blames (ask c >>= fun x => Prog.ofExcept (f x)) := by
  rintro t e ⟨x, t, rfl, hexec⟩
  obtain ⟨rfl, he⟩ := (Prog.exec_ofExcept _ _ _).mp hexec
  exact (h x e he.symm).imp_right fun hfails => ⟨_, rfl, hfails⟩

theorem blames_say (level : Level) (message : List Piece) : Blames (say level message) := by
  apply blames_ask
  intro printed e h
  exact .inr h

theorem blames_rescue {p : Prog world Exn α} {handler : Exn → Prog world Exn α} (hp : Blames p)
    (hhandler : ∀ e, Blames (handler e)) : Blames (rescue p handler) := by
  intro t e h
  rcases exec_rescue_error h with ⟨h, -⟩ | ⟨t₁, t₂, e', rfl, -, h⟩
  · exact hp t e h
  · exact (hhandler e' t₂ e h).imp_right fun hends => hends.append t₁

variable [Python] [Digits] [Script] [FloatRepr]

omit [Python] [Digits] [FloatRepr] in
theorem blames_inspected (command : List Str) : Blames (inspected command) := by
  apply blames_ask
  intro out e h
  cases bind_error_iff.mp h with
  | inl h => exact .inr h
  | inr h =>
    obtain ⟨text, -, htext⟩ := h
    split at htext
    · cases htext
    · exact .inl (ordinary_raised _ e htext)
    · obtain rfl := Except.error.inj htext
      exact .inl rfl

omit [FloatRepr] in
theorem blames_inspection (imageRef digest : Str) : Blames (inspection imageRef digest) := by
  unfold inspection
  split
  · refine blames_bind (blames_inspected _) fun manifest => blames_bind (blames_ofExcept (ordinary_asDict _)) fun d => ?_
    split
    · exact blames_ofExcept (ordinary_layersOf _)
    · refine blames_bind (blames_ofExcept (ordinary_subDigest _)) fun sub =>
        blames_bind (blames_inspected _) fun layers => blames_ofExcept (ordinary_layersOf _)
  · exact blames_bind (blames_inspected _) fun info => blames_ofExcept (ordinary_imageOf _)

omit [FloatRepr] in
theorem blames_inspectImage (imageRef digest : Str) : Blames (inspectImage imageRef digest) :=
  blames_rescue (blames_inspection _ _) fun _ => blames_bind (blames_say _ _) fun _ => blames_pure _

omit [Script] [FloatRepr] in
theorem blames_durationOf (completed : Rat) (started : Str) : Blames (durationOf completed started) := by
  unfold durationOf
  split
  · apply blames_pure
  · split
    · apply blames_pure
    · exact blames_bind (blames_say _ _) fun u => blames_pure _

omit [Digits] [Script] in
theorem blames_postJson (baseUrl path : Str) (headers : Dict Str Str) (body : Body) :
    Blames (postJson baseUrl path headers body) := by
  refine blames_bind (blames_ofExcept ?_) fun post => ?_
  · unfold postOf
    split
    · apply ordinary_raised
    · split
      · apply ordinary_raised
      · apply ordinary_ok
  · apply blames_ask
    intro status e h
    exact .inr h

omit [Digits] [Script] in
theorem blames_postBody (environ : Dict Str Str) (imageRef : Str) (path : String) (body : Body) :
    Blames (postBody environ imageRef path body) :=
  blames_rescue (blames_bind (blames_postJson _ _ _ _) fun _ => blames_say _ _) fun _ => blames_say _ _

theorem blames_main (environ : Dict Str Str) : Blames (main environ) := by
  unfold main
  split
  · apply blames_say
  · refine blames_bind (blames_ofExcept (ordinary_required _ _)) fun imageRef =>
      blames_bind (blames_ofExcept (ordinary_required _ _)) fun repo =>
      blames_bind (blames_ofExcept (ordinary_required _ _)) fun gitSha =>
      blames_bind ?_ fun completed => blames_bind (blames_inspectImage _ _) fun image =>
      blames_bind (blames_durationOf _ _) fun duration =>
      blames_bind (blames_ofExcept (ordinary_measure _ _ _)) fun measured =>
      blames_bind ?_ fun u => blames_postBody _ _ _ _
    · rintro t e ⟨x, t, rfl, -, h⟩
      cases h
    · unfold postMetrics
      dsimp only
      split
      · apply blames_postBody
      · apply blames_say

end Blames

/-! ## What the script does to the build -/

section Harmless

variable [Python] [Digits] [Script] [FloatRepr]

/-- A command that only looks at an image. -/
def Looks (imageRef : Str) (command : List Str) : Prop :=
  command = localImage imageRef ∨ ∃ digest, command = rawManifest imageRef digest

/-- What the script may call: commands that look at the image, posts to its endpoint, and prints. -/
def Permitted (environ : Dict Str Str) : Call → Prop
  | .time => True
  | .run command => ∃ imageRef, getenv environ "IMAGE_REF" = some imageRef ∧ Looks imageRef command
  | .post post => ∃ path ∈ ["/v1/metrics", "/v1/logs"], ∃ body,
    postOf (getenvOr environ "OTEL_EXPORTER_OTLP_ENDPOINT") (lit path)
      (otlpHeaders (getenvOr environ "OTEL_EXPORTER_OTLP_HEADERS")) body = .ok post
  | .print _ _ => True

/-- The price of a command, of a post, and of a print. -/
def price (a b c : Nat) : Call → Nat
  | .time => 0
  | .run _ => a
  | .post _ => b
  | .print _ _ => c

def isPrint : Call → Bool
  | .print _ _ => true
  | _ => false

/-- The script ends with this exception. It is interrupted, or its last print fails. -/
def Interrupted (t : List (Exchange world)) (e : Exn) : Prop :=
  EndsWith e t ∧ (e.isException = false ∨
    ∃ before e', t = before ++ [⟨.print .warning (lastResort e'), .error e⟩])

/-- Whatever is answered, the script is over after so many calls, and does not fail the build. -/
structure DoesNoHarm (environ : Dict Str Str) (t : List (Exchange world)) (r : Except Exn Nat) : Prop where
  status : r = .ok 0 ∨ ∃ e, r = .error e ∧ Interrupted t e
  permitted : ∀ x ∈ t, Permitted environ x.1
  bounded : ∀ a b c, cost (price a b c) t ≤ 2 * a + 2 * b + 7 * c
  unset : getenvOr environ "OTEL_EXPORTER_OTLP_ENDPOINT" = [] → ∀ x ∈ t, isPrint x.1 = true

section Calls

variable {environ : Dict Str Str}

omit [Digits] [Script] in
theorem permitted_postBody (imageRef : Str) {path : String} (hpath : path ∈ ["/v1/metrics", "/v1/logs"])
    (body : Body) : (postBody environ imageRef path body).AllCalls (Permitted environ) := by
  refine allCalls_rescue ?_ fun e => allCalls_say trivial
  refine Prog.allCalls_bind ?_ fun status => allCalls_say trivial
  apply Prog.allCalls_ofExcept_bind
  intro post hpost
  exact ⟨⟨path, hpath, body, hpost⟩, fun status => Prog.allCalls_ofExcept status⟩

omit [Python] [Digits] [FloatRepr] in
theorem allCalls_inspected {P : Call → Prop} {command : List Str} (h : P (.run command)) :
    (inspected command).AllCalls P := ⟨h, fun out => Prog.allCalls_ofExcept (decoded out)⟩

omit [FloatRepr] in
theorem looks_inspection {P : Call → Prop} {imageRef : Str} (hP : ∀ command, Looks imageRef command → P (.run command))
    (digest : Str) : (inspection imageRef digest).AllCalls P := by
  have hraw (digest : Str) : P (.run (rawManifest imageRef digest)) := hP _ (.inr ⟨digest, rfl⟩)
  unfold inspection
  split
  · apply Prog.allCalls_bind (allCalls_inspected (hraw digest))
    intro manifest
    apply Prog.allCalls_bind (Prog.allCalls_ofExcept _)
    intro d
    split
    · apply Prog.allCalls_ofExcept
    · apply Prog.allCalls_bind (Prog.allCalls_ofExcept _)
      intro sub
      apply Prog.allCalls_bind (allCalls_inspected (hraw sub))
      intro layers
      apply Prog.allCalls_ofExcept
  · apply Prog.allCalls_bind (allCalls_inspected (hP _ (.inl rfl)))
    intro info
    apply Prog.allCalls_ofExcept

omit [FloatRepr] in
theorem looks_inspectImage {P : Call → Prop} {imageRef : Str}
    (hP : ∀ command, Looks imageRef command → P (.run command)) (hprint : ∀ level message, P (.print level message))
    (digest : Str) : (inspectImage imageRef digest).AllCalls P :=
  allCalls_rescue (looks_inspection hP digest) fun _ =>
    Prog.allCalls_bind (allCalls_say (hprint _ _)) fun _ => Prog.allCalls_pure _

omit [Script] [FloatRepr] in
theorem allCalls_durationOf {P : Call → Prop} (hprint : ∀ level message, P (.print level message))
    (completed : Rat) (started : Str) : (durationOf completed started).AllCalls P := by
  unfold durationOf
  split
  · apply Prog.allCalls_pure
  · split
    · apply Prog.allCalls_pure
    · exact Prog.allCalls_bind (allCalls_say (hprint _ _)) fun u => Prog.allCalls_pure _

omit [Python] [Digits] [Script] [FloatRepr] in
theorem required_ok {name : String} {value : Str} (h : required environ name = .ok value) :
    getenv environ name = some value := by
  unfold required at h
  split at h
  · rename_i hvalue
    rw [hvalue, Except.ok.inj h]
  · cases h

theorem permitted_main (environ : Dict Str Str) : (main environ).AllCalls (Permitted environ) := by
  have hprint (level : Level) (message : List Piece) : Permitted environ (.print level message) := trivial
  unfold main
  split
  · exact allCalls_say (hprint _ _)
  · apply Prog.allCalls_ofExcept_bind
    intro imageRef himage
    have hlooks : ∀ command, Looks imageRef command → Permitted environ (.run command) :=
      fun command h => ⟨imageRef, required_ok himage, h⟩
    refine Prog.allCalls_bind (Prog.allCalls_ofExcept _) fun repo =>
      Prog.allCalls_bind (Prog.allCalls_ofExcept _) fun gitSha =>
      Prog.allCalls_bind ⟨trivial, fun completed => Prog.allCalls_pure completed⟩ fun completed =>
      Prog.allCalls_bind (looks_inspectImage hlooks hprint _) fun image =>
      Prog.allCalls_bind (allCalls_durationOf hprint _ _) fun duration =>
      Prog.allCalls_bind (Prog.allCalls_ofExcept _) fun measured => Prog.allCalls_bind ?_ fun u => ?_
    · unfold postMetrics
      dsimp only
      split
      · apply permitted_postBody
        simp
      · exact allCalls_say (hprint _ _)
    · apply permitted_postBody
      simp

variable (a b c : Nat)

omit [Python] [Digits] [FloatRepr] in
theorem spends_inspected (command : List Str) : (inspected command).Spends (price a b c) a :=
  Prog.spends_bind_free (Prog.spends_ask (I := world) (.run command)) fun _ => Prog.spends_ofExcept _ _

omit [FloatRepr] in
theorem spends_inspection (imageRef digest : Str) : (inspection imageRef digest).Spends (price a b c) (2 * a) := by
  unfold inspection
  split
  · have hrest (manifest : Json) : (resolved imageRef manifest).Spends (price a b c) a := by
      apply Prog.spends_ofExcept_bind
      intro d
      split
      · apply Prog.spends_ofExcept
      · apply Prog.spends_ofExcept_bind
        intro sub
        exact Prog.spends_bind_free (spends_inspected a b c _) fun layers => Prog.spends_ofExcept _ _
    exact (Prog.spends_bind (spends_inspected a b c _) hrest).mono (by omega)
  · exact (Prog.spends_bind_free (spends_inspected a b c _) fun info => Prog.spends_ofExcept _ _).mono (by omega)

omit [FloatRepr] in
theorem spends_inspectImage (imageRef digest : Str) :
    (inspectImage imageRef digest).Spends (price a b c) (2 * a + c) :=
  spends_rescue (spends_inspection a b c imageRef digest) fun _ =>
    Prog.spends_bind_free (spends_say _ _) fun _ => Prog.spends_pure _ _

omit [Script] [FloatRepr] in
theorem spends_durationOf (completed : Rat) (started : Str) :
    (durationOf completed started).Spends (price a b c) c := by
  unfold durationOf
  split
  · apply Prog.spends_pure
  · split
    · apply Prog.spends_pure
    · exact Prog.spends_bind_free (spends_say _ _) fun _ => Prog.spends_pure _ _

omit [Digits] [Script] in
/-- What is printed in the `try`, and what is printed if that fails. -/
theorem spends_postBody (environ : Dict Str Str) (imageRef : Str) (path : String) (body : Body) :
    (postBody environ imageRef path body).Spends (price a b c) (b + c + c) := by
  refine spends_rescue (Prog.spends_bind ?_ fun status => spends_say _ _) fun e => spends_say _ _
  apply Prog.spends_ofExcept_bind
  intro post
  exact Prog.spends_bind_free (Prog.spends_ask (I := world) (.post post)) fun status => Prog.spends_ofExcept _ _

omit [Digits] [Script] in
theorem spends_postMetrics (environ : Dict Str Str) (imageRef : Str) (subject : Subject) (measured : Measured) :
    (postMetrics environ imageRef subject measured).Spends (price a b c) (b + c + c) := by
  unfold postMetrics
  dsimp only
  split
  · apply spends_postBody
  · exact (spends_say _ _).mono (Nat.le_add_left c (b + c))

theorem spends_main (environ : Dict Str Str) :
    (main environ).Spends (price a b c) (2 * a + 2 * b + 6 * c) := by
  unfold main
  split
  · refine (spends_say _ _).mono ?_
    rw [price]
    omega
  · have hposts (imageRef : Str) (subject : Subject) (measured : Measured) :
        (postMetrics environ imageRef subject measured >>= fun _ => postLogs environ imageRef subject measured).Spends
          (price a b c) (2 * b + 4 * c) :=
      (Prog.spends_bind (spends_postMetrics a b c _ _ _ _) fun u => spends_postBody a b c _ _ _ _).mono (by omega)
    refine Prog.spends_ofExcept_bind fun imageRef => Prog.spends_ofExcept_bind fun repo =>
      Prog.spends_ofExcept_bind fun gitSha => ?_
    refine Prog.Spends.mono (m := 0 + (2 * a + c + (c + (2 * b + 4 * c)))) ?_ (by omega)
    exact Prog.spends_bind (Prog.spends_ask (I := world) .time) fun completed =>
      Prog.spends_bind (spends_inspectImage a b c _ _) fun image =>
      Prog.spends_bind (spends_durationOf a b c _ _) fun duration =>
      Prog.spends_ofExcept_bind fun measured => hposts _ _ measured

end Calls

theorem permitted_script (environ : Dict Str Str) : (script environ).AllCalls (Permitted environ) :=
  Prog.allCalls_bind (allCalls_rescue (permitted_main environ) fun _ => allCalls_say trivial) fun _ =>
    Prog.allCalls_pure _

theorem status_of_exec_script {environ : Dict Str Str} {t : List (Exchange world)} {r : Except Exn Nat}
    (h : (script environ).Exec t r) : r = .ok 0 ∨ ∃ e, r = .error e ∧ Interrupted t e := by
  obtain ⟨t₁, t₂, x, rfl, h₁, h₂⟩ := Prog.exec_bind_outcome h
  cases x with
  | ok u => exact .inl h₂.2
  | error e =>
    obtain ⟨rfl, rfl⟩ := h₂
    rw [List.append_nil]
    refine .inr ⟨e, rfl, ?_⟩
    rcases exec_rescue_error h₁ with ⟨hmain, he⟩ | ⟨s₁, s₂, e', rfl, -, hwarn⟩
    · refine ⟨(blames_main environ t₁ e hmain).resolve_left ?_, .inl he⟩
      rw [he]
      exact Bool.false_ne_true
    · obtain rfl := exec_say hwarn
      have hends : EndsWith e [⟨.print .warning (lastResort e'), .error e⟩] := ⟨_, rfl, rfl⟩
      exact ⟨hends.append s₁, .inr ⟨s₁, e', rfl⟩⟩

/-- The script, whatever its environment and whatever is answered. -/
theorem script_harmless {environ : Dict Str Str} {t : List (Exchange world)} {r : Except Exn Nat}
    (h : (script environ).Exec t r) : DoesNoHarm environ t r := by
  refine ⟨status_of_exec_script h, (permitted_script environ).of_exec h, ?_, ?_⟩
  · intro a b c
    have hscript : (script environ).Spends (price a b c) (2 * a + 2 * b + 6 * c + c) :=
      Prog.spends_bind_free (spends_rescue (spends_main a b c environ) fun _ => spends_say _ _) fun _ =>
        Prog.spends_pure _ _
    exact (hscript t r h).trans (by omega)
  · intro hunset
    have hprints : (script environ).AllCalls fun c => isPrint c = true := by
      have hmain : main environ = notice [text "OTEL_EXPORTER_OTLP_ENDPOINT not set, skipping"] := if_pos hunset
      unfold script
      rw [hmain]
      exact Prog.allCalls_bind (allCalls_rescue (allCalls_say rfl) fun _ => allCalls_say rfl) fun _ =>
        Prog.allCalls_pure _
    exact hprints.of_exec h

end Harmless

/-- The build is interrupted while the metrics are posted. -/
theorem script_harmless_interrupted :
    (posts (reportOn (.error (.baseException (lit "KeyboardInterrupt"))) (buildEnviron "sha-1" "1")).2.1).length = 1 ∧
    (reportOn (.error (.baseException (lit "KeyboardInterrupt"))) (buildEnviron "sha-1" "1")).1 =
        .error (.baseException (lit "KeyboardInterrupt")) ∧
      @DoesNoHarm Python.ascii FloatRepr.hundredths (buildEnviron "sha-1" "1")
        (reportOn (.error (.baseException (lit "KeyboardInterrupt"))) (buildEnviron "sha-1" "1")).2.1
        (reportOn (.error (.baseException (lit "KeyboardInterrupt"))) (buildEnviron "sha-1" "1")).1 :=
  ⟨by decide +kernel, by decide +kernel,
    @script_harmless Python.ascii Digits.ascii Script.single FloatRepr.hundredths _ _ _ (exec_reportOn _ _)⟩

/-! ## Posts that fail -/

section Undisturbed

variable [Python] [Digits] [Script] [FloatRepr]

/-- A call, whatever is printed. -/
def unprinted : Call → Option Call
  | .print _ _ => none
  | c => some c

/-- Posts may fail, or not. Printing works, and anything else is answered the same. -/
def Despite : Exchange world → Exchange world → Prop
  | ⟨.post _, x⟩, ⟨.post _, y⟩ => Ordinary x ∧ Ordinary y
  | ⟨.print _ _, x⟩, ⟨.print _ _, y⟩ => x = .ok () ∧ y = .ok ()
  | ⟨_, x⟩, ⟨_, y⟩ => HEq x y

abbrev despitePosts : Coupling world world where
  call c d := unprinted c = unprinted d
  reply := Despite

def isPost : Call → Bool
  | .post _ => true
  | _ => false

omit [Python] [Digits] [Script] [FloatRepr] in
/-- A program that posts nothing. -/
theorem lockstep_self {α : Type} {p : Prog world Exn α} (h : p.AllCalls fun c => isPost c = false) :
    Prog.Lockstep despitePosts Eq p p := by
  induction p with
  | ret a => exact .ret rfl
  | raise e => exact .raise e
  | call c k ih =>
    refine .call rfl ?_
    intro x y hxy
    obtain rfl : x = y := by
      cases c with
      | time => exact eq_of_heq hxy
      | run command => exact eq_of_heq hxy
      | post post => cases h.1
      | print level message => exact hxy.1.trans hxy.2.symm
    exact ih x (h.2 x)

omit [Python] [Digits] [Script] [FloatRepr] in
theorem lockstep_print (level level' : Level) (message message' : List Piece) :
    Prog.Lockstep despitePosts Eq (say level message) (say level' message') :=
  lockstep_say rfl fun _ _ h => h.1.trans h.2.symm

omit [Python] [Digits] [Script] [FloatRepr] in
/-- What follows a post: something is printed. -/
theorem lockstep_rescue_posted {x y : Except Exn Int} (hx : Ordinary x) (hy : Ordinary y)
    {level : Int → Level} {message : Int → List Piece} {failure : Exn → List Piece} :
    Prog.Lockstep despitePosts Eq
      (rescue (Prog.ofExcept x >>= fun status => say (level status) (message status)) fun e => warn (failure e))
      (rescue (Prog.ofExcept y >>= fun status => say (level status) (message status)) fun e => warn (failure e)) := by
  have hposted {z : Except Exn Int} (hz : Ordinary z) : ∃ (l : Level) (m : List Piece) (k : Except Exn Unit → Prog world Exn Unit),
      (rescue (Prog.ofExcept z >>= fun status => say (level status) (message status)) fun e => warn (failure e)) =
        .call (.print l m) k ∧ k (.ok ()) = pure () := by
    cases z with
    | ok status => exact ⟨_, _, _, rfl, rfl⟩
    | error e => exact ⟨_, _, _, if_pos (hz e rfl), rfl⟩
  obtain ⟨l, m, k, hxk, hk⟩ := hposted hx
  obtain ⟨l', m', k', hyk, hk'⟩ := hposted hy
  rw [hxk, hyk]
  refine .call rfl ?_
  rintro _ _ ⟨rfl, rfl⟩
  rw [hk, hk']
  exact .ret rfl

omit [Digits] [Script] in
theorem lockstep_postBody (environ : Dict Str Str) (imageRef : Str) (path : String) (body : Body) :
    Prog.Lockstep despitePosts Eq (postBody environ imageRef path body) (postBody environ imageRef path body) := by
  unfold postBody postJson
  dsimp only
  cases hpost : postOf (getenvOr environ "OTEL_EXPORTER_OTLP_ENDPOINT") (lit path)
      (otlpHeaders (getenvOr environ "OTEL_EXPORTER_OTLP_HEADERS")) body with
  | error e => exact lockstep_rescue (.raise e) fun _ => lockstep_print _ _ _ _
  | ok post => exact .call rfl fun x y hxy => lockstep_rescue_posted hxy.1 hxy.2

omit [Digits] [Script] in
theorem lockstep_postMetrics (environ : Dict Str Str) (imageRef : Str) (subject : Subject) (measured : Measured) :
    Prog.Lockstep despitePosts Eq (postMetrics environ imageRef subject measured)
      (postMetrics environ imageRef subject measured) := by
  unfold postMetrics
  dsimp only
  split
  · apply lockstep_postBody
  · apply lockstep_print

theorem lockstep_main (environ : Dict Str Str) : Prog.Lockstep despitePosts Eq (main environ) (main environ) := by
  unfold main
  split
  · apply lockstep_print
  · have hread {α : Type} (x : Except Exn α) :
        Prog.Lockstep despitePosts Eq (Prog.ofExcept x : Prog world Exn α) (Prog.ofExcept x) :=
      lockstep_self (Prog.allCalls_ofExcept x)
    have hprint : ∀ level message, isPost (.print level message) = false := fun _ _ => rfl
    have himage (imageRef digest : Str) :
        Prog.Lockstep despitePosts Eq (inspectImage imageRef digest) (inspectImage imageRef digest) :=
      lockstep_self (looks_inspectImage (fun _ _ => rfl) hprint digest)
    refine Prog.lockstep_bind (hread _) ?_
    rintro imageRef _ rfl
    refine Prog.lockstep_bind (hread _) ?_
    rintro repo _ rfl
    refine Prog.lockstep_bind (hread _) ?_
    rintro gitSha _ rfl
    refine Prog.lockstep_bind (lockstep_self ⟨rfl, fun _ => trivial⟩) ?_
    rintro completed _ rfl
    refine Prog.lockstep_bind (himage _ _) ?_
    rintro image _ rfl
    refine Prog.lockstep_bind (lockstep_self (allCalls_durationOf hprint _ _)) ?_
    rintro duration _ rfl
    refine Prog.lockstep_bind (hread _) ?_
    rintro measured _ rfl
    refine Prog.lockstep_bind (lockstep_postMetrics _ _ _ _) ?_
    rintro u _ rfl
    apply lockstep_postBody

/-- Whether the posts fail or not, the script makes the same calls, and ends the same. Only what it
prints may differ. -/
theorem script_undisturbed {environ : Dict Str Str} {t u : List (Exchange world)} {r s : Except Exn Nat}
    (ht : (script environ).Exec t r) (hu : (script environ).Exec u s) (hanswered : Answered despitePosts t u) :
    t.map (fun x => unprinted x.1) = u.map (fun x => unprinted x.1) ∧ r = s := by
  have hscript : Prog.Lockstep despitePosts Eq (script environ) (script environ) := by
    refine Prog.lockstep_bind (lockstep_rescue (lockstep_main environ) fun _ => lockstep_print _ _ _ _) ?_
    rintro u _ rfl
    exact .ret rfl
  obtain ⟨hcalls, hout⟩ := hscript.exec ht hu hanswered
  exact ⟨@map_eq_of_forall₂ world _ unprinted t u hcalls, outcomes_eq.mp hout⟩

end Undisturbed

theorem despite_buildWorld {status status' : Except Exn Int} (h : Ordinary status) (h' : Ordinary status')
    {c d : Call} (hcall : unprinted c = unprinted d) :
    Despite ⟨c, (buildWorld status () c).1⟩ ⟨d, (buildWorld status' () d).1⟩ := by
  cases c <;> cases d <;> first | exact ⟨h, h'⟩ | exact ⟨rfl, rfl⟩ | exact HEq.rfl | cases hcall

theorem answered_despite {status status' : Except Exn Int} (h : Ordinary status) (h' : Ordinary status')
    (environ : Dict Str Str) :
    Answered despitePosts (reportOn status environ).2.1 (reportOn status' environ).2.1 := by
  have hworld (status : Except Exn Int) :
      ∀ x ∈ (reportOn status environ).2.1, x = ⟨x.1, (buildWorld status () x.1).1⟩ :=
    Prog.serve_forall (I := world) (buildWorld status) (fun _ _ => rfl) _ ()
  intro z hz hcall
  obtain ⟨hx, hy⟩ := List.of_mem_zip hz
  have hreply := despite_buildWorld h h' hcall
  rwa [← hworld status _ hx, ← hworld status' _ hy] at hreply

/-- The collector is down, or up. Two posts are made. -/
theorem script_undisturbed_down :
    (posts (reportOn (raised "ConnectionRefusedError") (buildEnviron "sha-1" "1")).2.1).length = 2 ∧
    (reportOn (raised "ConnectionRefusedError") (buildEnviron "sha-1" "1")).2.1.map (fun x => unprinted x.1) =
        (reportOn (.ok 200) (buildEnviron "sha-1" "1")).2.1.map (fun x => unprinted x.1) ∧
      (reportOn (raised "ConnectionRefusedError") (buildEnviron "sha-1" "1")).1 =
        (reportOn (.ok 200) (buildEnviron "sha-1" "1")).1 :=
  ⟨by decide +kernel, @script_undisturbed Python.ascii Digits.ascii Script.single FloatRepr.hundredths _ _ _ _ _
    (exec_reportOn _ _) (exec_reportOn _ _) (answered_despite (ordinary_raised _) (ordinary_ok _) _)⟩

end MiraDriver.Harmless
