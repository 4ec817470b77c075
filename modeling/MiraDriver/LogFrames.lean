import MiraDriver.Utf8
import MiraDriver.Http

/-!
# Docker's log stream

`_decode_logs`: the multiplexed framing of a container without a TTY, then the lines
of each frame, each split into its timestamp and its text. A frame is a stream byte,
three zero bytes, a length of four bytes, and that many bytes of payload.
-/
namespace MiraDriver.LogFrames

open MiraDriver.Text MiraDriver.Base MiraDriver.Http MiraDriver.Utf8

/-- `{1: "stdout", 2: "stderr"}.get`. -/
def streamOf (id : UInt8) : Option Stream :=
  if id = 1 then some .stdout else if id = 2 then some .stderr else none

/-- `int.from_bytes(..., "big")`. -/
def fromBytes (bytes : List UInt8) : Nat := bytes.foldl (fun n b => 256 * n + b.toNat) 0

/-- The loop over the frames. The flag says that the payload ends inside a frame. -/
def readFrames : List UInt8 → Except Exn (List (Stream × List UInt8) × Bool)
  | [] => .ok ([], false)
  | streamId :: b₁ :: b₂ :: b₃ :: b₄ :: b₅ :: b₆ :: b₇ :: body =>
    if [b₁, b₂, b₃] ≠ [0, 0, 0] then
      .error (.driverProtocolError (lit "Docker log stream header is malformed"))
    else
      let size := fromBytes [b₄, b₅, b₆, b₇]
      if size > maxLogBytes then
        .error (.driverProtocolError (lit "Docker log frame exceeds limit"))
      else if body.length < size then .ok ([], true)
      else
        match streamOf streamId with
        | none => .error (.driverProtocolError (lit "Docker log stream type is invalid"))
        | some stream =>
          (readFrames (body.drop size)).map fun rest => ((stream, body.take size) :: rest.1, rest.2)
  | _ => .ok ([], true)
termination_by payload => payload.length
decreasing_by
  simp only [List.length_drop, List.length_cons]
  omega

/-- The characters of a timestamp up to its seconds: None stands for a digit. -/
def stampShape : List (Option Char) :=
  [none, none, none, none, some '-', none, none, some '-', none, none, some 'T',
    none, none, some ':', none, none, some ':', none, none]

section Timestamp

variable (digit : Char → Bool)

def matchesShape : List (Option Char) → Str → Bool
  | [], _ => true
  | _ :: _, [] => false
  | none :: shape, c :: rest => digit c && matchesShape shape rest
  | some d :: shape, c :: rest => c = d && matchesShape shape rest

/-- The dot and the digits of a fraction of a second, if there are any. -/
def fraction : Str → Str
  | '.' :: rest => if rest.takeWhile digit = [] then [] else '.' :: rest.takeWhile digit
  | _ => []

/-- A timestamp, and what follows the space behind it. -/
def matchStamp (line : Str) : Option (Str × Str) :=
  if matchesShape digit stampShape line then
    let behind := line.drop stampShape.length
    match behind.drop (fraction digit behind).length with
    | 'Z' :: ' ' :: text =>
      some (line.take stampShape.length ++ fraction digit behind ++ ['Z'], text)
    | _ => none
  else none

end Timestamp

section Python

variable [Python]

/-- `_TIMESTAMP.fullmatch`. -/
def matchTimestamp (line : Str) : Option (Str × Str) := matchStamp isDecimal line

def entryOf (stream : Stream) (rawLine : Str) : DriverLogEntry :=
  match matchTimestamp rawLine with
  | some (timestamp, text) => ⟨stream, text, some timestamp⟩
  | none => ⟨stream, rawLine, none⟩

/-- The entries of one frame. -/
def frameEntries (frame : Stream × List UInt8) : List DriverLogEntry :=
  (splitLines (decode frame.2)).map (entryOf frame.1)

/-- `_decode_logs`. -/
def decodeLogs (payload : List UInt8) (multiplexed : Bool) :
    Except Exn (List DriverLogEntry × Bool) :=
  (if multiplexed then readFrames payload else .ok ([(.stdout, payload)], false)).map fun frames =>
    (frames.1.flatMap frameEntries, frames.2)

end Python

/-! ## Frames as Docker writes them -/

/-- A frame within the limit of one. -/
structure Frame where
  stream : Stream
  payload : List UInt8
  bounded : payload.length ≤ maxLogBytes

def streamByte : Stream → UInt8
  | .stdout => 1
  | .stderr => 2

def toBytes (n : Nat) : List UInt8 :=
  [.ofNat (n / 16777216), .ofNat (n / 65536), .ofNat (n / 256), .ofNat n]

def encodeFrame (stream : Stream) (payload : List UInt8) : List UInt8 :=
  streamByte stream :: 0 :: 0 :: 0 :: (toBytes payload.length ++ payload)

theorem length_encodeFrame (stream : Stream) (payload : List UInt8) :
    (encodeFrame stream payload).length = payload.length + 8 := by
  simp [encodeFrame, toBytes]

namespace Frame

def encode (f : Frame) : List UInt8 := encodeFrame f.stream f.payload

def read (f : Frame) : Stream × List UInt8 := (f.stream, f.payload)

theorem length_encode (f : Frame) : f.encode.length = f.payload.length + 8 :=
  length_encodeFrame f.stream f.payload

end Frame

def encodeFrames (frames : List Frame) : List UInt8 := frames.flatMap Frame.encode

@[simp] theorem encodeFrames_nil : encodeFrames [] = [] := rfl
@[simp] theorem encodeFrames_cons (f : Frame) (frames : List Frame) :
    encodeFrames (f :: frames) = f.encode ++ encodeFrames frames := rfl

theorem streamOf_streamByte (s : Stream) : streamOf (streamByte s) = some s := by
  cases s <;> rfl

theorem fromBytes_toBytes {n : Nat} (h : n < 4294967296) : fromBytes (toBytes n) = n := by
  simp only [fromBytes, toBytes, List.foldl_cons, List.foldl_nil, UInt8.toNat_ofNat']
  omega

/-- The header of a frame says how long it is. -/
theorem Frame.fromBytes_length (f : Frame) :
    fromBytes (toBytes f.payload.length) = f.payload.length := by
  apply fromBytes_toBytes
  have := f.bounded
  simp only [maxLogBytes] at this
  omega

/-- A whole frame is read, and the reading goes on behind it. -/
theorem readFrames_encode_append (f : Frame) (rest : List UInt8) :
    readFrames (f.encode ++ rest) =
      (readFrames rest).map fun out => (f.read :: out.1, out.2) := by
  have hsize := f.fromBytes_length
  have hlimit : ¬ f.payload.length > maxLogBytes := not_lt_of_ge f.bounded
  have hcomplete : ¬ (f.payload ++ rest).length < f.payload.length := by
    rw [List.length_append]
    omega
  simp only [toBytes] at hsize
  simp only [Frame.encode, encodeFrame, toBytes, List.cons_append, List.nil_append]
  rw [readFrames]
  simp only [ne_eq, not_true_eq_false, ↓reduceIte, hsize, hlimit, hcomplete, streamOf_streamByte,
    List.drop_left, List.take_left, Frame.read]

theorem readFrames_nil : readFrames [] = .ok ([], false) := by rw [readFrames]

/-- Less than a header is no frame. -/
theorem readFrames_short {payload : List UInt8} (hne : payload ≠ []) (h : payload.length < 8) :
    readFrames payload = .ok ([], true) := by
  unfold readFrames
  split
  · contradiction
  · simp only [List.length_cons] at h
    omega
  · rfl

/-- A frame that is cut off is not read, and the cut is reported unless nothing of the
frame is left. -/
theorem readFrames_cut (f : Frame) {k : Nat} (h : k < f.encode.length) :
    readFrames (f.encode.take k) = .ok ([], decide (k ≠ 0)) := by
  rw [f.length_encode] at h
  have hsize := f.fromBytes_length
  have hlimit : ¬ f.payload.length > maxLogBytes := not_lt_of_ge f.bounded
  simp only [toBytes] at hsize
  by_cases hk : k < 8
  · cases k with
    | zero => exact readFrames_nil
    | succ k =>
      apply readFrames_short
      · simp [Frame.encode, encodeFrame]
      · rw [List.length_take]
        omega
  · obtain ⟨k, rfl⟩ := Nat.exists_eq_add_of_le (Nat.le_of_not_lt hk)
    have hcut : (f.payload.take k).length < f.payload.length := by
      rw [List.length_take]
      omega
    have htake : f.encode.take (8 + k) =
        streamByte f.stream :: 0 :: 0 :: 0 :: (toBytes f.payload.length ++ f.payload.take k) := by
      rw [Nat.add_comm]
      simp [Frame.encode, encodeFrame, toBytes]
    rw [htake]
    simp only [toBytes, List.cons_append, List.nil_append]
    rw [readFrames]
    simp only [ne_eq, not_true_eq_false, ↓reduceIte, hsize, hlimit, hcut]
    simp

theorem length_encodeFrames_take_succ (f : Frame) (frames : List Frame) (i : Nat) :
    (encodeFrames ((f :: frames).take (i + 1))).length =
      f.encode.length + (encodeFrames (frames.take i)).length := by
  rw [List.take_succ_cons, encodeFrames_cons, List.length_append]

/-- The frames that lie within the first `k` bytes, and whether the cut falls inside the
next one. -/
theorem readFrames_take (frames : List Frame) {k : Nat} (h : k ≤ (encodeFrames frames).length) :
    ∃ j truncated, j ≤ frames.length ∧
      (∀ i < frames.length, (encodeFrames (frames.take (i + 1))).length ≤ k ↔ i < j) ∧
      (truncated = true ↔ ∀ i ≤ frames.length, (encodeFrames (frames.take i)).length ≠ k) ∧
      readFrames ((encodeFrames frames).take k) = .ok ((frames.take j).map Frame.read, truncated) := by
  induction frames generalizing k with
  | nil =>
    obtain rfl : k = 0 := by simpa using h
    refine ⟨0, false, le_refl 0, by simp, by simp, ?_⟩
    exact readFrames_nil
  | cons f frames ih =>
    rw [encodeFrames_cons, List.length_append] at h
    by_cases hk : k < f.encode.length
    · refine ⟨0, decide (k ≠ 0), Nat.zero_le _, ?_, ?_, ?_⟩
      · intro i _
        rw [length_encodeFrames_take_succ]
        omega
      · rw [decide_eq_true_eq]
        constructor
        · intro hne i _ hi
          cases i with
          | zero => exact hne (by simpa using hi.symm)
          | succ i =>
            rw [length_encodeFrames_take_succ] at hi
            omega
        · intro hall hzero
          exact hall 0 (Nat.zero_le _) (by simp [hzero])
      · rw [encodeFrames_cons, List.take_append_of_le_length (Nat.le_of_lt hk)]
        exact readFrames_cut f hk
    · obtain ⟨m, rfl⟩ := Nat.exists_eq_add_of_le (Nat.le_of_not_lt hk)
      obtain ⟨j, truncated, hj, hwithin, htruncated, hread⟩ := ih (by omega : m ≤ _)
      refine ⟨j + 1, truncated, Nat.succ_le_succ hj, ?_, ?_, ?_⟩
      · intro i hi
        rw [length_encodeFrames_take_succ]
        cases i with
        | zero => simp
        | succ i =>
          rw [Nat.succ_lt_succ_iff, ← hwithin i (Nat.lt_of_succ_lt_succ hi)]
          omega
      · rw [htruncated]
        constructor
        · intro hall i hi
          cases i with
          | zero =>
            have := f.length_encode
            simp only [List.take_zero, encodeFrames_nil, List.length_nil]
            omega
          | succ i =>
            have := hall i (Nat.le_of_succ_le_succ hi)
            rw [length_encodeFrames_take_succ]
            omega
        · intro hall i hi
          have := hall (i + 1) (Nat.succ_le_succ hi)
          rw [length_encodeFrames_take_succ] at this
          omega
      · rw [encodeFrames_cons, List.take_length_add_append, readFrames_encode_append, hread]
        rfl

theorem toBytes_fromBytes (b₀ b₁ b₂ b₃ : UInt8) :
    toBytes (fromBytes [b₀, b₁, b₂, b₃]) = [b₀, b₁, b₂, b₃] := by
  have h₀ := b₀.toNat_lt
  have h₁ := b₁.toNat_lt
  have h₂ := b₂.toNat_lt
  have h₃ := b₃.toNat_lt
  simp only [toBytes, fromBytes, List.foldl_cons, List.foldl_nil, List.cons.injEq, and_true]
  refine ⟨?_, ?_, ?_, ?_⟩ <;>
  · apply UInt8.toNat_inj.mp
    rw [UInt8.toNat_ofNat']
    omega

theorem streamByte_of_streamOf {id : UInt8} {stream : Stream} (h : streamOf id = some stream) :
    streamByte stream = id := by
  unfold streamOf at h
  split at h
  · rename_i hid
    rw [hid, ← Option.some.inj h]
    rfl
  · split at h
    · rename_i hid
      rw [hid, ← Option.some.inj h]
      rfl
    · cases h

/-- A payload that is read to its end consists of the frames read. -/
theorem eq_encodeFrames_of_readFrames {payload : List UInt8} {read : List (Stream × List UInt8)}
    (h : readFrames payload = .ok (read, false)) :
    ∃ frames : List Frame, payload = encodeFrames frames ∧ read = frames.map Frame.read := by
  fun_induction readFrames payload generalizing read with
  | case1 =>
    obtain ⟨rfl, -⟩ := Prod.mk.inj (Except.ok.inj h)
    exact ⟨[], rfl, rfl⟩
  | case2 => cases h
  | case3 => cases h
  | case4 => simp at h
  | case5 => cases h
  | case6 streamId b₁ b₂ b₃ b₄ b₅ b₆ b₇ body hzero size hlimit hcomplete stream hstream =>
    rename_i ih
    cases hrest : readFrames (body.drop size) with
    | error e =>
      rw [hrest] at h
      cases h
    | ok rest =>
      rw [hrest] at h
      obtain ⟨rfl, hflag⟩ := Prod.mk.inj (Except.ok.inj h)
      obtain ⟨frames, hbody, hread⟩ := ih (by rw [hrest, ← hflag])
      have hlength : (body.take size).length = size := by
        rw [List.length_take]
        omega
      let f : Frame := ⟨stream, body.take size, by omega⟩
      refine ⟨f :: frames, ?_, ?_⟩
      · obtain ⟨rfl, rfl, rfl⟩ : b₁ = 0 ∧ b₂ = 0 ∧ b₃ = 0 := by simpa using hzero
        have hheader : toBytes f.payload.length = [b₄, b₅, b₆, b₇] := by
          rw [hlength]
          exact toBytes_fromBytes b₄ b₅ b₆ b₇
        rw [encodeFrames_cons, ← hbody, Frame.encode, encodeFrame, hheader,
          streamByte_of_streamOf hstream]
        simp [f]
      · rw [List.map_cons, ← hread]
        rfl
  | case7 => simp at h

variable [Python]

def Frame.entries (f : Frame) : List DriverLogEntry := frameEntries f.read

/-- Every entry of a frame carries its stream. -/
theorem Frame.stream_of_mem_entries {f : Frame} {e : DriverLogEntry} (h : e ∈ f.entries) : e.stream = f.stream := by
  obtain ⟨line, -, rfl⟩ := List.mem_map.mp h
  unfold entryOf
  split <;> rfl

/-- Cut anywhere, the stream gives the entries of the frames that lie wholly in front of
the cut, and says so unless the cut falls between two frames. -/
theorem decodeLogs_take (frames : List Frame) (k : Fin ((encodeFrames frames).length + 1)) :
    ∃ j truncated, j ≤ frames.length ∧
      (∀ i < frames.length, (encodeFrames (frames.take (i + 1))).length ≤ k ↔ i < j) ∧
      (truncated = true ↔ ∀ i ≤ frames.length, (encodeFrames (frames.take i)).length ≠ k) ∧
      decodeLogs ((encodeFrames frames).take k) true =
        .ok ((frames.take j).flatMap Frame.entries, truncated) := by
  obtain ⟨j, truncated, hj, hwithin, htruncated, hread⟩ :=
    readFrames_take frames (Nat.le_of_lt_succ k.isLt)
  refine ⟨j, truncated, hj, hwithin, htruncated, ?_⟩
  rw [decodeLogs, if_pos rfl, hread, Except.map, List.flatMap_map]
  rfl

/-! ## Messages -/

omit [Python] in
/-- Docker's form of a timestamp: `YYYY-MM-DDTHH:MM:SS[.digits]Z`. -/
def IsTimestamp (t : Str) : Prop :=
  ∃ seconds digits, seconds.length = stampShape.length ∧
    matchesShape isDigit stampShape seconds = true ∧ (∀ c ∈ digits, isDigit c = true) ∧
    (t = seconds ++ ['Z'] ∨ (digits ≠ [] ∧ t = seconds ++ '.' :: digits ++ ['Z']))

omit [Python] in
theorem isTimestamp_newYear : IsTimestamp (lit "2026-01-01T00:00:00Z") :=
  ⟨lit "2026-01-01T00:00:00", [], by decide +kernel, by decide +kernel, by simp,
    .inl (by decide +kernel)⟩

omit [Python] in
/-- One line that a container wrote. -/
structure Message where
  stream : Stream
  timestamp : Str
  text : Str
  stamped : IsTimestamp timestamp
  oneLine : ∀ c ∈ text, isLineBreak c = false

namespace Message

def line (m : Message) : Str := m.timestamp ++ ' ' :: m.text

def payload (m : Message) : List UInt8 := encode (m.line ++ ['\n'])

def entry (m : Message) : DriverLogEntry := ⟨m.stream, m.text, some m.timestamp⟩

/-- The frame the daemon sends for the message. -/
def frame (m : Message) : List UInt8 := encodeFrame m.stream m.payload

end Message

omit [Python] in
theorem isLineBreak_of_isDigit {c : Char} (h : isDigit c = true) : isLineBreak c = false := by
  simp only [isDigit, Bool.and_eq_true, decide_eq_true_eq] at h
  simp only [isLineBreak, Bool.or_eq_false_iff, Bool.and_eq_false_iff, decide_eq_false_iff_not]
  simp at h
  omega

omit [Python] in
/-- What matches the shape holds digits and the characters of the shape. -/
theorem mem_of_matchesShape {digit : Char → Bool} {shape : List (Option Char)} {s : Str}
    (hlen : s.length = shape.length) (h : matchesShape digit shape s = true) :
    ∀ c ∈ s, digit c = true ∨ some c ∈ shape := by
  induction shape generalizing s with
  | nil => simp [List.length_eq_zero_iff.mp hlen]
  | cons o shape ih =>
    cases s with
    | nil => simp
    | cons d rest =>
      have hrest : rest.length = shape.length := by simpa using hlen
      intro c hc
      cases o with
      | none =>
        simp only [matchesShape, Bool.and_eq_true] at h
        rcases List.mem_cons.mp hc with rfl | hc
        · exact .inl h.1
        · exact (ih hrest h.2 c hc).imp_right (List.mem_cons_of_mem _)
      | some e =>
        simp only [matchesShape, Bool.and_eq_true, decide_eq_true_eq] at h
        rcases List.mem_cons.mp hc with rfl | hc
        · exact .inr (by rw [h.1]; exact List.mem_cons_self)
        · exact (ih hrest h.2 c hc).imp_right (List.mem_cons_of_mem _)

omit [Python] in
/-- A wider notion of digit matches what a narrower one does, and text behind. -/
theorem matchesShape_append {digit digit' : Char → Bool} (hd : ∀ c, digit c = true → digit' c = true)
    {shape : List (Option Char)} {s : Str} (hlen : s.length = shape.length)
    (h : matchesShape digit shape s = true) (rest : Str) :
    matchesShape digit' shape (s ++ rest) = true := by
  induction shape generalizing s with
  | nil => rfl
  | cons o shape ih =>
    cases s with
    | nil => simp at hlen
    | cons c s =>
      have hs : s.length = shape.length := by simpa using hlen
      cases o with
      | none =>
        simp only [matchesShape, Bool.and_eq_true, List.cons_append] at h ⊢
        exact ⟨hd c h.1, ih hs h.2⟩
      | some e =>
        simp only [matchesShape, Bool.and_eq_true, List.cons_append] at h ⊢
        exact ⟨h.1, ih hs h.2⟩

theorem isDecimal_of_isDigit {c : Char} (h : isDigit c = true) : isDecimal c = true := by
  have ha : isAscii c = true := by
    simp only [isDigit, Bool.and_eq_true, decide_eq_true_eq] at h
    simp only [isAscii, decide_eq_true_eq]
    simp at h
    omega
  rw [isDecimal, if_pos ha, h]

theorem takeWhile_isDecimal {digits : Str} (h : ∀ c ∈ digits, isDigit c = true) (rest : Str) :
    (digits ++ 'Z' :: rest).takeWhile isDecimal = digits := by
  have hz : isDecimal 'Z' = false := by
    rw [isDecimal, if_pos (by decide)]
    decide
  rw [List.takeWhile_append_of_pos fun c hc => isDecimal_of_isDigit (h c hc),
    List.takeWhile_cons_of_neg (by simp [hz]), List.append_nil]

/-- A stamped line is split into its timestamp and its text. -/
theorem matchTimestamp_append {t : Str} (h : IsTimestamp t) (text : Str) :
    matchTimestamp (t ++ ' ' :: text) = some (t, text) := by
  obtain ⟨seconds, digits, hlen, hshape, hdigits, ht⟩ := h
  have hmatch := matchesShape_append (fun c => isDecimal_of_isDigit) hlen hshape
  rcases ht with rfl | ⟨hne, rfl⟩
  · have hs := hmatch ('Z' :: ' ' :: text)
    simp only [List.append_assoc, List.singleton_append]
    simp [matchTimestamp, matchStamp, hs, ← hlen, fraction]
  · have hs := hmatch ('.' :: (digits ++ 'Z' :: ' ' :: text))
    simp only [List.append_assoc, List.cons_append, List.nil_append]
    simp [matchTimestamp, matchStamp, hs, ← hlen, fraction, takeWhile_isDecimal hdigits, hne]

omit [Python] in
theorem timestamp_oneLine {t : Str} (h : IsTimestamp t) : ∀ c ∈ t, isLineBreak c = false := by
  obtain ⟨seconds, digits, hlen, hshape, hdigits, ht⟩ := h
  have hseconds : ∀ c ∈ seconds, isLineBreak c = false := by
    intro c hc
    rcases mem_of_matchesShape hlen hshape c hc with hc | hc
    · exact isLineBreak_of_isDigit hc
    · revert hc
      simp only [stampShape, List.mem_cons, reduceCtorEq, Option.some.injEq, List.not_mem_nil,
        false_or, or_false]
      rintro (rfl | rfl | rfl | rfl | rfl) <;> decide
  intro c hc
  rcases ht with rfl | ⟨-, rfl⟩
  · rcases List.mem_append.mp hc with hc | hc
    · exact hseconds c hc
    · rw [List.mem_singleton.mp hc]
      decide
  · simp only [List.mem_append, List.mem_cons, List.not_mem_nil, or_false] at hc
    rcases hc with (hc | rfl | hc) | rfl
    · exact hseconds c hc
    · decide
    · exact isLineBreak_of_isDigit (hdigits c hc)
    · decide

/-- The frame of a message holds one entry, the message. -/
theorem frameEntries_message (m : Message) : frameEntries (m.stream, m.payload) = [m.entry] := by
  have hline : ∀ c ∈ m.line, isLineBreak c = false := by
    intro c hc
    rcases List.mem_append.mp hc with hc | hc
    · exact timestamp_oneLine m.stamped c hc
    · rcases List.mem_cons.mp hc with rfl | hc
      · decide
      · exact m.oneLine c hc
  rw [frameEntries, Message.payload, decode_encode, splitLines_line _ hline, List.map_singleton,
    entryOf, Message.line, matchTimestamp_append m.stamped]
  rfl

end MiraDriver.LogFrames
