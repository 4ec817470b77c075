import MiraDriver.LogTail

/-!
# What an unbroken log result says

Parts of a log can be lost to the limit of bytes, to a cut inside a frame and to the
limit of entries. A result that is not marked as truncated has lost nothing to any.
-/
namespace MiraDriver.LogLoss

open MiraDriver.Text MiraDriver.Base MiraDriver.Document MiraDriver.Http MiraDriver.Utf8
  MiraDriver.LogFrames MiraDriver.Docker MiraDriver.Program MiraDriver.LogTail

/-- A reader that truncates, and does not say that it did, has read a whole body. -/
theorem flatten_of_readChunks {maximumBytes size : Nat} {complete : Bool} {read out : List UInt8}
    {chunks : List (List UInt8)}
    (h : readChunks maximumBytes true complete size read chunks = .ok (out, false)) :
    complete = true ∧ out = read ++ chunks.flatten := by
  induction chunks generalizing size read with
  | nil =>
    unfold readChunks at h
    split at h
    · rename_i hcomplete
      obtain ⟨rfl, -⟩ := Prod.mk.inj (Except.ok.inj h)
      exact ⟨hcomplete, by simp⟩
    · cases h
  | cons chunk rest ih =>
    unfold readChunks at h
    dsimp only at h
    by_cases hlong : chunk.length > maximumBytes - size
    · simp [hlong] at h
    · rw [if_neg hlong] at h
      obtain ⟨hcomplete, hout⟩ := ih h
      exact ⟨hcomplete, by rw [hout, List.flatten_cons, List.append_assoc]⟩

theorem response_of_readReply {maximumBytes : Nat} {reply : Reply} {out : List UInt8}
    (h : readReply maximumBytes true reply = .ok (out, false)) :
    ∃ status chunks, reply = .response status chunks true ∧ out = chunks.flatten := by
  unfold readReply at h
  split at h
  · cases h
  · rename_i status chunks complete
    split at h
    · cases h
    · split at h
      · cases h
      · split at h
        · cases h
        · obtain ⟨rfl, hout⟩ := flatten_of_readChunks h
          exact ⟨status, chunks, rfl, by simpa using hout⟩

section Python

variable [Python]

/-- The entries are all there are in a body: every line of every frame, or every line of a
terminal, once and in order. -/
def Lossless (tty : Bool) (body : List UInt8) (entries : List DriverLogEntry) : Prop :=
  match tty with
  | true => entries = (splitLines (decode body)).map (entryOf .stdout)
  | false => ∃ frames : List Frame, body = encodeFrames frames ∧
      entries = frames.flatMap fun f => (splitLines (decode f.payload)).map (entryOf f.stream)

theorem lossless_of_decodeLogs {tty : Bool} {body : List UInt8} {entries : List DriverLogEntry}
    (h : decodeLogs body (!tty) = .ok (entries, false)) : Lossless tty body entries := by
  cases tty with
  | true =>
    obtain ⟨rfl, -⟩ := Prod.mk.inj (Except.ok.inj h)
    simp [Lossless, frameEntries]
  | false =>
    rw [decodeLogs, if_pos (by rfl)] at h
    cases hread : readFrames body with
    | error e =>
      rw [hread] at h
      cases h
    | ok frames =>
      rw [hread] at h
      obtain ⟨rfl, hflag⟩ := Prod.mk.inj (Except.ok.inj h)
      obtain ⟨frames, hbody, hframes⟩ := eq_encodeFrames_of_readFrames (hread.trans (by rw [← hflag]))
      refine ⟨frames, hbody, ?_⟩
      rw [hframes, List.flatMap_map]
      rfl

/-- The entries are no more than asked for. Those of a result that is not marked are all
of the bytes that were read, and these are all there were. -/
theorem logResult_ok {tail : Nat} {tty : Bool} {response : List UInt8 × Bool} {result : DriverLogResult}
    (h : logResult tail (!tty) response = .ok result) :
    result.entries.length ≤ tail ∧
      (result.truncated = false → response.2 = false ∧ Lossless tty response.1 result.entries) := by
  unfold logResult at h
  cases hdecoded : decodeLogs response.1 (!tty) with
  | error e =>
    rw [hdecoded] at h
    cases h
  | ok decoded =>
    rw [hdecoded] at h
    obtain rfl := Except.ok.inj h
    refine ⟨length_lastN_le _ _, ?_⟩
    intro hflag
    simp only [Bool.or_eq_false_iff, decide_eq_false_iff_not, Nat.not_lt] at hflag
    obtain ⟨⟨hbytes, hframes⟩, hcount⟩ := hflag
    refine ⟨hbytes, ?_⟩
    rw [lastN_of_length_le hcount]
    exact lossless_of_decodeLogs (hdecoded.trans (by rw [← hframes]))

variable [Loads]

/-- A container is inspected, and a whole body comes in reply to the request for its log. -/
def Served (reference uri : Str) (tail : Int) (t : List (Exchange http)) (tty : Bool)
    (body : List UInt8) : Prop :=
  ∃ (inspected : List (Exchange http)) (container : Str) (inspect : Object) (status : Nat)
      (chunks : List (List UInt8)),
    (inspectAddressed reference uri "Docker logs require a container address" (checkTail tail)).Exec
      inspected (.ok (container, inspect)) ∧
    ttyOf inspect = tty ∧ chunks.flatten = body ∧
    t = inspected ++ [⟨⟨containerPath container "/logs", logParams tail⟩, .response status chunks true⟩]

/-- Whatever `logs` returns has no more entries than asked for, and all of the body's where
it is not marked as truncated. -/
theorem logs_lossless {reference uri : Str} {tail : Int} {t : List (Exchange http)}
    {result : DriverLogResult} (h : (logs reference uri tail).Exec t (.ok result)) :
    result.entries.length ≤ tail ∧
      (result.truncated = false →
        ∃ tty body, Served reference uri tail t tty body ∧ Lossless tty body result.entries) := by
  obtain ⟨inspected, _, ⟨container, inspect⟩, rfl, hinspect, h⟩ := Prog.exec_bind_ok.mp h
  obtain ⟨_, _, response, rfl, hresponse, hresult⟩ := Prog.exec_bind_ok.mp h
  obtain ⟨rfl, hdecoded⟩ := (Prog.exec_ofExcept _ _ _).mp hresult
  obtain ⟨reply, rfl, hread⟩ := exec_readResponse.mp hresponse
  obtain ⟨_, _, _, _, _, _, htail, _⟩ := exec_inspectAddressed_ok.mp hinspect
  have hpositive := (checkTail_ok_iff.mp htail).1
  obtain ⟨hcount, hwhole⟩ := logResult_ok hdecoded.symm
  refine ⟨by omega, ?_⟩
  intro hflag
  obtain ⟨hbytes, hlossless⟩ := hwhole hflag
  obtain ⟨status, chunks, rfl, hbody⟩ := response_of_readReply (hread.symm.trans (by rw [← hbytes]))
  refine ⟨ttyOf inspect, response.1, ?_, hlossless⟩
  exact ⟨inspected, container, inspect, status, chunks, hinspect, rfl, hbody.symm, by simp⟩

end Python

section Short

open MiraDriver.Daemon

/-- A frame of two lines. -/
def shortFrame : Frame := ⟨.stderr, encode (lit "one\ntwo\n"), by decide +kernel⟩

/-- The inspect reply, and a log reply whose two chunks meet inside the header. -/
def shortTrace : List (Exchange http) :=
  [⟨inspectRequest (lit "web"), .response 200 [webBody] true⟩] ++
    [⟨⟨containerPath (lit "web") "/logs", logParams 2⟩,
      .response 200 [shortFrame.encode.take 5, shortFrame.encode.drop 5] true⟩]

def shortResult : DriverLogResult :=
  ⟨[⟨.stderr, lit "one", none⟩, ⟨.stderr, lit "two", none⟩], false⟩

theorem exec_logs_short :
    (@logs Python.ascii recreatedLoads (lit "local") recreatedAddress.uri 2).Exec shortTrace
      (.ok shortResult) := by
  have hread : readReply maxLogBytes true
      (.response 200 [shortFrame.encode.take 5, shortFrame.encode.drop 5] true) =
        .ok (shortFrame.encode, false) := by decide +kernel
  have hresult : @logResult Python.ascii 2 (!ttyOf webDocument) (shortFrame.encode, false) =
      .ok shortResult := by decide +kernel
  rw [← hresult]
  exact @exec_logs_of_inspected Python.ascii recreatedLoads _ _ _ _ _ _ _ _ (inspected_web 2 rfl) hread

theorem logs_lossless_short :
    shortResult.entries.length ≤ (2 : Int) ∧
      (shortResult.truncated = false → ∃ tty body,
        @Served Python.ascii recreatedLoads (lit "local") recreatedAddress.uri 2 shortTrace tty body ∧
          @Lossless Python.ascii tty body shortResult.entries) :=
  @logs_lossless Python.ascii recreatedLoads (lit "local") recreatedAddress.uri 2 shortTrace shortResult
    exec_logs_short

end Short

end MiraDriver.LogLoss
