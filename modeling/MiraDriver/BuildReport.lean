import MiraDriver.Admin
import MiraDriver.Cost
import MiraDriver.Lockstep
import MiraDriver.Url

/-!
# The report of a build

`scripts/report_build_telemetry.py`: after the build of an image, its size and duration are
posted as metrics, with few attributes, and as a log record, with the identifiers of the run.
Clock readings are exact, and so is what is computed with them.
-/
namespace MiraDriver.BuildReport

open MiraDriver.Text MiraDriver.Mapping MiraDriver.Base MiraDriver.Program MiraDriver.Document
  MiraDriver.Numerals MiraDriver.Dumps MiraDriver.Drivers MiraDriver.Admin MiraDriver.Url
  MiraDriver.Config

/-- What is taken from the Python build besides. -/
class Script where
  /-- `json.loads` of a string. It is refused with a `ValueError`. -/
  loads : Str → Parsed Json
  /-- `format(value)`, of a value that is not a string. -/
  format : Json → Str

/-- A `POST`, as it is handed to `http.client`, and the connection that it is made on. What is
refused there is the failure of the call, and what is added to the headers is not part of it. -/
structure Post where
  secure : Bool
  netloc : Str
  path : Str
  content : List UInt8
  headers : List (Str × Str)
  deriving DecidableEq, Repr

inductive Level where
  | notice
  | warning
  deriving DecidableEq, Repr

/-- A part of a formatted string. -/
inductive Piece where
  | text (s : Str)
  /-- With `!r`. -/
  | repr (s : Str)
  | status (n : Int)
  | exn (e : Exn)
  deriving DecidableEq, Repr

/-- What the script calls: `time.time`, `subprocess.run`, a connection and `print`. -/
inductive Call where
  | time
  | run (command : List Str)
  | post (post : Post)
  /-- A message is formatted and printed. -/
  | print (level : Level) (message : List Piece)
  deriving DecidableEq, Repr

/-- The output of a command, and the status of a response. Standard output may be closed, or its
encoding may not know a character. -/
abbrev Reply : Call → Type
  | .time => Rat
  | .run _ => Except Exn Str
  | .post _ => Except Exn Int
  | .print _ _ => Except Exn Unit

abbrev world : Interface := ⟨Call, Reply⟩

def ask {ε : Type} (c : Call) : Prog world ε (Reply c) := Prog.ask (I := world) c

def say (level : Level) (message : List Piece) : Prog world Exn Unit := do
  let printed ← ask (.print level message)
  Prog.ofExcept printed

/-- `notice`. -/
def notice (message : List Piece) : Prog world Exn Unit := say .notice message

/-- `warn`. -/
def warn (message : List Piece) : Prog world Exn Unit := say .warning message

/-- A `try`, with its `except Exception`. -/
def rescue {α : Type} (p : Prog world Exn α) (handler : Exn → Prog world Exn α) : Prog world Exn α := do
  let out ← p.attempt
  match out with
  | .ok a => pure a
  | .error e => if e.isException then handler e else throw e

def text (s : String) : Piece := .text (lit s)

section Rules

variable {α : Type} {p q : Prog world Exn α} {handler handler' : Exn → Prog world Exn α}

theorem exec_say {level : Level} {message : List Piece} {t : List (Exchange world)} {r : Except Exn Unit}
    (h : (say level message).Exec t r) : t = [⟨.print level message, r⟩] := by
  obtain ⟨printed, t, rfl, hrest⟩ := h
  obtain ⟨rfl, rfl⟩ := (Prog.exec_ofExcept printed t r).mp hrest
  rfl

/-- An exception comes out of a `try` if it is no `Exception`, or if it is raised by the handler. -/
theorem exec_rescue_error {t : List (Exchange world)} {e : Exn} (h : (rescue p handler).Exec t (.error e)) :
    (p.Exec t (.error e) ∧ e.isException = false) ∨
      ∃ t₁ t₂ e', t = t₁ ++ t₂ ∧ p.Exec t₁ (.error e') ∧ (handler e').Exec t₂ (.error e) := by
  obtain ⟨t₁, t₂, x, rfl, h₁, h₂⟩ := Prog.exec_attempt_bind.mp h
  cases x with
  | ok a =>
    obtain ⟨-, he⟩ := h₂
    cases he
  | error e' =>
    dsimp only at h₂
    split at h₂
    · exact .inr ⟨t₁, t₂, e', rfl, h₁, h₂⟩
    · rename_i he'
      obtain ⟨rfl, he⟩ := h₂
      obtain rfl := Except.error.inj he
      rw [List.append_nil]
      exact .inl ⟨h₁, Bool.eq_false_of_not_eq_true he'⟩

theorem allCalls_say {P : Call → Prop} {level : Level} {message : List Piece} (h : P (.print level message)) :
    (say level message).AllCalls P := ⟨h, fun printed => Prog.allCalls_ofExcept printed⟩

theorem allCalls_rescue {P : Call → Prop} (hp : p.AllCalls P) (hhandler : ∀ e, (handler e).AllCalls P) :
    (rescue p handler).AllCalls P := by
  refine Prog.allCalls_bind (Prog.allCalls_attempt hp) ?_
  intro out
  cases out with
  | ok a => apply Prog.allCalls_pure
  | error e =>
    dsimp only
    split
    · exact hhandler e
    · apply Prog.allCalls_throw

theorem spends_say {price : Call → Nat} (level : Level) (message : List Piece) :
    (say level message).Spends price (price (.print level message)) :=
  Prog.spends_bind_free (Prog.spends_ask (I := world) (.print level message)) fun _ => Prog.spends_ofExcept _ _

theorem spends_rescue {price : Call → Nat} {m n : Nat} (hp : p.Spends price m)
    (hhandler : ∀ e, (handler e).Spends price n) : (rescue p handler).Spends price (m + n) := by
  refine Prog.spends_bind (Prog.spends_attempt hp) ?_
  intro out
  cases out with
  | ok a => apply Prog.spends_pure
  | error e =>
    dsimp only
    split
    · exact hhandler e
    · apply Prog.spends_throw

/-- Two prints that both work, or fail alike. -/
theorem lockstep_say {K : Coupling world world} {level level' : Level} {message message' : List Piece}
    (hcall : K.call (.print level message) (.print level' message'))
    (hreply : ∀ x y, K.reply ⟨.print level message, x⟩ ⟨.print level' message', y⟩ → x = y) :
    Prog.Lockstep K Eq (say level message) (say level' message') := by
  refine .call hcall ?_
  intro x y hxy
  obtain rfl := hreply x y hxy
  exact Prog.lockstep_ofExcept (outcomes_eq.mpr rfl)

theorem lockstep_rescue {K : Coupling world world} (hpq : Prog.Lockstep K Eq p q)
    (hhandler : ∀ e, Prog.Lockstep K Eq (handler e) (handler' e)) :
    Prog.Lockstep K Eq (rescue p handler) (rescue q handler') := by
  refine Prog.lockstep_bind (Prog.lockstep_attempt hpq) ?_
  rintro _ _ (⟨rfl⟩ | e)
  · exact .ret rfl
  · dsimp only
    split
    · exact hhandler e
    · exact .raise e

end Rules

def raised {α : Type} (name : String) : Except Exn α := .error (.exception (lit name))

/-! ## Values -/

/-- `int(x)` of a finite float. -/
def truncate (x : Rat) : Int := x.num.tdiv x.den

/-- `str` of an integer. -/
def strInt (n : Int) : Except Exn Str :=
  if (Nat.repr n.natAbs).length > maxStrDigits then raised "ValueError" else .ok (intRepr n)

/-- `round(x, 1)`. -/
def roundTenth : Double → Double
  | .finite x =>
    let n : Int := roundHalfEven (x.num.natAbs * 10) x.den
    .finite ((if x < 0 then -n else n : Int) / 10)
  | x => x

/-- A reading less a float. -/
def minus (x : Rat) : Double → Double
  | .finite y => .finite (x - y)
  | .infinity negative => .infinity !negative
  | .nan => .nan

/-- `d[key]`. -/
def item (d : Object) (key : String) : Except Exn Json :=
  match d.get? (lit key) with
  | some value => .ok value
  | none => raised "KeyError"

/-- A method of dictionaries, on some value. -/
def asDict (value : Json) : Except Exn Object :=
  match value.dict? with
  | some d => .ok d
  | none => raised "AttributeError"

/-- What is iterated over. -/
def iterate : Json → Except Exn (List Json)
  | .arr items => .ok items
  | .obj members => .ok ((Dict.ofList members).keys.map .str)
  | .str s => .ok (s.map fun c => .str [c])
  | _ => raised "TypeError"

/-- `value[0]`. -/
def firstOf : Json → Except Exn Json
  | .arr (value :: _) => .ok value
  | .arr [] => raised "IndexError"
  | .str (c :: _) => .ok (.str [c])
  | .str [] => raised "IndexError"
  | .obj _ => raised "KeyError"
  | _ => raised "TypeError"

section Inspect

variable [Python] [Digits] [Script]

/-- `int(value)`. -/
def intOf : Json → Except Exn Int
  | .int n => .ok n
  | .bool b => .ok (if b then 1 else 0)
  | .float (some x) => .ok (truncate x)
  | .float none => raised "ValueError"
  | .str s =>
    match parseInt (strip s) with
    | some n => .ok n
    | none => raised "ValueError"
  | _ => raised "TypeError"

def formatted : Json → Str
  | .str s => s
  | value => Script.format value

/-- `json.loads` of the output of a command. -/
def decoded (out : Except Exn Str) : Except Exn Json := do
  let text ← out
  match Script.loads text with
  | .value value => .ok value
  | .refused => raised "ValueError"
  | .raised name => .error (.exception name)

def inspected (command : List Str) : Prog world Exn Json := do
  let out ← ask (.run command)
  Prog.ofExcept (decoded out)

def rawManifest (imageRef digest : Str) : List Str :=
  [lit "docker", lit "buildx", lit "imagetools", lit "inspect", imageRef ++ '@' :: digest, lit "--raw"]

def localImage (imageRef : Str) : List Str :=
  [lit "docker", lit "image", lit "inspect", imageRef, lit "--format=\x7b\x7bjson .\x7d\x7d"]

/-- `manifest["manifests"][0]["digest"]`, as it is formatted. -/
def subDigest (manifests : Json) : Except Exn Str := do
  let first ← firstOf manifests
  let value ← (match first.dict? with
    | some d => item d "digest"
    | none => raised "TypeError")
  pure (formatted value)

/-- The size and the number of the layers of a manifest. -/
def layersOf (manifest : Json) : Except Exn (Json × Option Nat) := do
  let d ← asDict manifest
  let layers ← iterate ((d.get? (lit "layers")).getD (.arr []))
  let sizes ← layers.mapM fun layer => do
    let l ← asDict layer
    intOf ((l.get? (lit "size")).getD (.int 0))
  pure (.int sizes.sum, some layers.length)

/-- `len(value)`. -/
def lengthOf : Json → Except Exn Nat
  | .arr items => .ok items.length
  | .obj members => .ok (Dict.ofList members).keys.length
  | .str s => .ok s.length
  | _ => raised "TypeError"

/-- `value or {}`, of which a method is called. -/
def dictOrEmpty (value : Json) : Except Exn Object := if value.truthy then asDict value else .ok Dict.empty

/-- `len(value or [])`. -/
def lengthOrZero (value : Json) : Except Exn Nat := if value.truthy then lengthOf value else .ok 0

/-- The size of a local image, which may be any value, and the number of its layers. -/
def imageOf (info : Json) : Except Exn (Json × Option Nat) := do
  let d ← asDict info
  let rootFs ← dictOrEmpty (get d "RootFS")
  let count ← lengthOrZero (get rootFs "Layers")
  pure (get d "Size", some count)

/-- What a manifest comes to. Of an index it is the first manifest in it. Only a dictionary gets
past the test for a key. -/
def resolved (imageRef : Str) (manifest : Json) : Prog world Exn (Json × Option Nat) := do
  let d ← Prog.ofExcept (asDict manifest)
  match d.get? (lit "manifests") with
  | none => Prog.ofExcept (layersOf manifest)
  | some manifests => do
    let sub ← Prog.ofExcept (subDigest manifests)
    let manifest ← inspected (rawManifest imageRef sub)
    Prog.ofExcept (layersOf manifest)

/-- `inspect_image` in its `try`. -/
def inspection (imageRef digest : Str) : Prog world Exn (Json × Option Nat) :=
  if digest ≠ [] then do
    let manifest ← inspected (rawManifest imageRef digest)
    resolved imageRef manifest
  else do
    let info ← inspected (localImage imageRef)
    Prog.ofExcept (imageOf info)

/-- `inspect_image`. -/
def inspectImage (imageRef digest : Str) : Prog world Exn (Json × Option Nat) :=
  rescue (inspection imageRef digest) fun e => do
    warn [text "could not inspect ", .repr imageRef, text ", reporting without size/layers (", .exn e, text ")"]
    pure (.null, none)

end Inspect

/-! ## Bodies -/

/-- A body before it is encoded. -/
inductive Body where
  | str (s : Str)
  | double (x : Double)
  | arr (items : List Body)
  | obj (members : List (Str × Body))

mutual

/-- `json.dumps`. -/
def dumps [FloatRepr] : Body → Str
  | .str s => dumpsStr s
  | .double x => dumpsFloat x
  | .arr items => '[' :: (joined (dumpsItems items) ++ [']'])
  | .obj members => '{' :: (joined (dumpsMembers members) ++ ['}'])

def dumpsItems [FloatRepr] : List Body → List Str
  | [] => []
  | item :: rest => dumps item :: dumpsItems rest

def dumpsMembers [FloatRepr] : List (Str × Body) → List Str
  | [] => []
  | (key, value) :: rest => (dumpsStr key ++ ':' :: ' ' :: dumps value) :: dumpsMembers rest

end

def field (key : String) (value : Body) : Str × Body := (lit key, value)

def attr (key : String) (kind : String) (value : Body) : Body :=
  .obj [field "key" (.str (lit key)), field "value" (.obj [field kind value])]

def stringAttribute (key : String) (value : Str) : Body := attr key "stringValue" (.str value)

/-- An attribute that is left out where its value is unset or empty. -/
def optionalAttribute (key : String) (value : Option Str) : List Body :=
  match value with
  | some v => if v = [] then [] else [stringAttribute key v]
  | none => []

/-- `_resource`. -/
def resource (repo : Str) : Body :=
  .obj [field "attributes" (.arr [stringAttribute "service.name" (rpartition '/' repo).2,
    stringAttribute "service.namespace" (lit "muutto365-fleet"),
    stringAttribute "vcs.repository.name" repo])]

/-- `_metric`, of a value that is converted. -/
def metric (name unit : String) (imageName : Str) (job : Option Str) (time : Int) (value : Str × Body) : Body :=
  let attributes := stringAttribute "container.image.name" imageName ::
    optionalAttribute "cicd.pipeline.name" job
  .obj [field "name" (.str (lit name)), field "unit" (.str (lit unit)),
    field "gauge" (.obj [field "dataPoints" (.arr [.obj [field "timeUnixNano" (.str (intRepr time)),
      field "attributes" (.arr attributes), value]])])]

/-- The measurements of a build: none for those that are not known. -/
structure Measured where
  duration : Option Double
  size : Option Str
  layers : Option Str
  time : Int

/-- What a report is about. -/
structure Subject where
  imageName : Str
  imageTag : Option Str
  repo : Str
  gitSha : Str
  refName : Option Str
  runId : Option Str
  runUrl : Option Str
  job : Option Str

def metricsOf (imageName : Str) (job : Option Str) (m : Measured) : List Body :=
  (m.duration.map fun x =>
      metric "ci.build.duration_seconds" "s" imageName job m.time (field "asDouble" (.double x))).toList ++
    (m.size.map fun n =>
      metric "ci.build.image.size_bytes" "By" imageName job m.time (field "asInt" (.str n))).toList ++
    (m.layers.map fun n =>
      metric "ci.build.image.layer_count" "1" imageName job m.time (field "asInt" (.str n))).toList

/-- `_log_record`. -/
def logRecord (subject : Subject) (m : Measured) : Body :=
  let tag := match subject.imageTag with
    | some tag => if tag = [] then lit "(untagged)" else tag
    | none => lit "(untagged)"
  let attributes := [stringAttribute "vcs.ref.head.revision" subject.gitSha,
      stringAttribute "container.image.name" subject.imageName] ++
    optionalAttribute "container.image.tag" subject.imageTag ++
    optionalAttribute "vcs.ref.head.name" subject.refName ++
    optionalAttribute "cicd.pipeline.run.id" subject.runId ++
    optionalAttribute "url.full" subject.runUrl ++
    optionalAttribute "cicd.pipeline.name" subject.job ++
    (m.duration.map fun x => attr "ci.build.duration_seconds" "doubleValue" (.double x)).toList ++
    (m.size.map fun n => attr "ci.build.image.size_bytes" "intValue" (.str n)).toList ++
    (m.layers.map fun n => attr "ci.build.image.layer_count" "intValue" (.str n)).toList
  .obj [field "timeUnixNano" (.str (intRepr m.time)), field "severityText" (.str (lit "INFO")),
    field "body" (.obj [field "stringValue" (.str (lit "docker image build reported: " ++
      subject.imageName ++ ':' :: tag))]),
    field "attributes" (.arr attributes)]

def scope : Str × Body :=
  field "scope" (.obj [field "name" (.str (lit "report_build_telemetry")), field "version" (.str (lit "1"))])

def metricsBody (repo : Str) (metrics : List Body) : Body :=
  .obj [field "resourceMetrics" (.arr [.obj [field "resource" (resource repo),
    field "scopeMetrics" (.arr [.obj [scope, field "metrics" (.arr metrics)]])]])]

def logsBody (repo : Str) (record : Body) : Body :=
  .obj [field "resourceLogs" (.arr [.obj [field "resource" (resource repo),
    field "scopeLogs" (.arr [.obj [scope, field "logRecords" (.arr [record])]])]])]

/-! ## Posts -/

def isHexDigit (c : Char) : Bool :=
  isDigit c || ('a' ≤ c && c ≤ 'f') || ('A' ≤ c && c ≤ 'F')

def hexValue (c : Char) : Nat := unhex c.toLower

/-- The bytes of a percent-encoded text. -/
def unquoteBytes : Str → List UInt8
  | [] => []
  | '%' :: a :: b :: rest =>
    if isHexDigit a && isHexDigit b then UInt8.ofNat (hexValue a * 16 + hexValue b) :: unquoteBytes rest
    else UInt8.ofNat '%'.toNat :: unquoteBytes (a :: b :: rest)
  | c :: rest => UInt8.ofNat c.toNat :: unquoteBytes rest

/-- `urllib.parse.unquote`: the runs of ASCII characters are decoded each. -/
def unquote (s : Str) : Str :=
  if '%' ∈ s then (s.splitBy fun a b => isAscii a = isAscii b).flatMap fun run =>
    if run.all isAscii then Utf8.decode (unquoteBytes run) else run
  else s

/-- `_parse_otlp_headers`. -/
def otlpHeaders (raw : Str) : Dict Str Str :=
  (raw.splitOn ',').foldl (fun headers pair =>
    match partition '=' (strip pair) with
    | (key, some value) => headers.set (strip key) (unquote (strip value))
    | (_, none) => headers) Dict.empty

/-- `dict.update`. -/
def update (d : Dict Str Str) (entries : List (Str × Str)) : Dict Str Str :=
  entries.foldl (fun d e => d.set e.1 e.2) d

section Post

variable [Python] [FloatRepr]

/-- `_post_json` up to the request. It is not unfolded by accident. -/
@[irreducible] def postOf (baseUrl path : Str) (headers : Dict Str Str) (body : Body) : Except Exn Post :=
  match urlsplit (rstrip '/' baseUrl ++ path) with
  | none => raised "ValueError"
  | some parsed =>
    if parsed.scheme ≠ lit "http" ∧ parsed.scheme ≠ lit "https" then raised "ValueError"
    else
      let requestPath := (if parsed.path = [] then ['/'] else parsed.path) ++
        (if parsed.query = [] then [] else '?' :: parsed.query)
      let payload := Utf8.encode (dumps body)
      let requestHeaders := update (Dict.ofList [(lit "Content-Type", lit "application/json"),
        (lit "Content-Length", (Nat.repr payload.length).toList)]) headers.entries
      .ok ⟨parsed.scheme = lit "https", parsed.netloc, requestPath, payload, requestHeaders.entries⟩

/-- `_post_json`. -/
def postJson (baseUrl path : Str) (headers : Dict Str Str) (body : Body) : Prog world Exn Int := do
  let post ← Prog.ofExcept (postOf baseUrl path headers body)
  let reply ← ask (.post post)
  Prog.ofExcept reply

end Post

/-! ## The script -/

section Main

variable [Python] [Digits] [Script] [FloatRepr]

/-- `_split_image_tag`. -/
def splitImageTag (imageRef : Str) : Str × Option Str :=
  match rpartition ':' imageRef with
  | (some name, tag) => (name, some tag)
  | (none, _) => (imageRef, none)

/-- `str(int(value))`, of a value that is not None. -/
def sizeText (value : Json) : Except Exn (Option Str) :=
  match value with
  | .null => .ok none
  | value => do
    let n ← intOf value
    let text ← strInt n
    pure (some text)

/-- `environ.get(name)`. -/
def getenv (environ : Dict Str Str) (name : String) : Option Str := environ.get? (lit name)

/-- `environ.get(name)`, or the empty string. -/
def getenvOr (environ : Dict Str Str) (name : String) : Str := (getenv environ name).getD []

/-- `environ[name]`. -/
def required (environ : Dict Str Str) (name : String) : Except Exn Str :=
  match getenv environ name with
  | some value => .ok value
  | none => raised "KeyError"

/-- The duration of the build, if its beginning is known. -/
def durationOf (completed : Rat) (started : Str) : Prog world Exn (Option Double) :=
  if started = [] then pure none
  else
    match parseFloat (strip started) with
    | some x => pure (some (roundTenth (minus completed x)))
    | none => do
      warn [text "BUILD_STARTED_AT=", .repr started, text " is not a number, omitting build_duration_seconds"]
      pure none

/-- What is measured. A size that is no number raises. -/
def measure (completed : Rat) (duration : Option Double) (image : Json × Option Nat) : Except Exn Measured := do
  let size ← sizeText image.1
  pure ⟨duration, size, image.2.map fun n => (Nat.repr n).toList, truncate (completed * 1000000000)⟩

def subjectOf (environ : Dict Str Str) (imageRef repo gitSha : Str) : Subject where
  imageName := (splitImageTag imageRef).1
  imageTag := (splitImageTag imageRef).2
  repo := repo
  gitSha := gitSha
  refName := getenv environ "REF_NAME"
  runId := getenv environ "RUN_ID"
  runUrl := getenv environ "RUN_URL"
  job := getenv environ "JOB_NAME"

/-- The post of one body, in its `try`. What is printed after it is in the `try` too. -/
def postBody (environ : Dict Str Str) (imageRef : Str) (path : String) (body : Body) : Prog world Exn Unit :=
  let endpoint := getenvOr environ "OTEL_EXPORTER_OTLP_ENDPOINT"
  rescue
    (do
      let status ← postJson endpoint (lit path) (otlpHeaders (getenvOr environ "OTEL_EXPORTER_OTLP_HEADERS")) body
      say (if status < 300 then .notice else .warning)
        [text "POST ", text path, text " for ", .text imageRef, text ": ", .status status])
    fun e => warn [text "POST ", .text endpoint, text path, text " failed, continuing (", .exn e, text ")"]

/-- The metrics are not posted if there are none. -/
def postMetrics (environ : Dict Str Str) (imageRef : Str) (subject : Subject) (measured : Measured) :
    Prog world Exn Unit :=
  let metrics := metricsOf subject.imageName subject.job measured
  if metrics ≠ [] then postBody environ imageRef "/v1/metrics" (metricsBody subject.repo metrics)
  else notice [text "no non-null measurements to report as metrics"]

def postLogs (environ : Dict Str Str) (imageRef : Str) (subject : Subject) (measured : Measured) :
    Prog world Exn Unit :=
  postBody environ imageRef "/v1/logs" (logsBody subject.repo (logRecord subject measured))

/-- `main`. -/
def main (environ : Dict Str Str) : Prog world Exn Unit :=
  if getenvOr environ "OTEL_EXPORTER_OTLP_ENDPOINT" = [] then
    notice [text "OTEL_EXPORTER_OTLP_ENDPOINT not set, skipping"]
  else do
    let imageRef ← Prog.ofExcept (required environ "IMAGE_REF")
    let repo ← Prog.ofExcept (required environ "REPO")
    let gitSha ← Prog.ofExcept (required environ "GIT_SHA")
    let completed ← ask .time
    let image ← inspectImage imageRef (getenvOr environ "IMAGE_DIGEST")
    let duration ← durationOf completed (getenvOr environ "BUILD_STARTED_AT")
    let measured ← Prog.ofExcept (measure completed duration image)
    postMetrics environ imageRef (subjectOf environ imageRef repo gitSha) measured
    postLogs environ imageRef (subjectOf environ imageRef repo gitSha) measured

/-- What is printed where nothing else has caught an exception. -/
def lastResort (e : Exn) : List Piece := [text "unexpected error, continuing (", .exn e, text ")"]

/-- The script up to `sys.exit`, with the status that is handed to it. -/
def script (environ : Dict Str Str) : Prog world Exn Nat := do
  rescue (main environ) fun e => warn (lastResort e)
  pure 0

end Main

/-! ## A build -/

def buildEnviron (tag gitSha : String) : Dict Str Str := Dict.ofList [
  (lit "OTEL_EXPORTER_OTLP_ENDPOINT", lit "https://admin.example/api"),
  (lit "IMAGE_REF", lit "ghcr.io/x/y:" ++ lit tag),
  (lit "REPO", lit "x/y"), (lit "GIT_SHA", lit gitSha), (lit "JOB_NAME", lit "image"),
  (lit "BUILD_STARTED_AT", lit "940")]

abbrev Script.single : Script where
  loads text :=
    if text = lit "\x7b\x7d" then
      .value (.obj [(lit "Size", .int 5), (lit "RootFS", .obj [(lit "Layers", .arr [.null])])])
    else .refused
  format _ := []

/-- It is the time 1000, a command finds an image, the posts have some outcome, and printing works. -/
def buildWorld (status : Except Exn Int) (_ : Unit) : (c : Call) → Reply c × Unit
  | .time => (1000, ())
  | .run _ => (.ok (lit "\x7b\x7d"), ())
  | .post _ => (status, ())
  | .print _ _ => (.ok (), ())

def reportOn (status : Except Exn Int) (environ : Dict Str Str) :
    Except Exn Nat × List (Exchange world) × Unit :=
  (@script Python.ascii Digits.ascii Script.single FloatRepr.hundredths environ).serve (I := world)
    (buildWorld status) ()

def posts (t : List (Exchange world)) : List Post :=
  t.filterMap fun
    | ⟨.post post, _⟩ => some post
    | _ => none

theorem exec_reportOn (status : Except Exn Int) (environ : Dict Str Str) :
    (@script Python.ascii Digits.ascii Script.single FloatRepr.hundredths environ).Exec
      (reportOn status environ).2.1 (reportOn status environ).1 :=
  Prog.exec_serve (I := world) (buildWorld status) _ ()

end MiraDriver.BuildReport
