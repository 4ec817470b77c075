import MiraDriver.LogFrames

/-!
# Log lines

Docker ends each message of a log with a line feed and sends it as a frame of its own.
`_decode_logs` splits a frame at every boundary `str.splitlines` knows, so a message comes
back as it was written exactly if its text holds none of the others.
-/
namespace MiraDriver.LogLines

open MiraDriver.Text MiraDriver.Base MiraDriver.Http MiraDriver.Utf8 MiraDriver.LogFrames

/-- A message whose text is free of line feeds. Its frame is within the limit. -/
structure LogMessage where
  stream : Stream
  timestamp : Str
  text : Str
  stamped : IsTimestamp timestamp
  noFeed : '\n' ∉ text
  bounded : (encode (timestamp ++ ' ' :: text ++ ['\n'])).length ≤ maxLogBytes

namespace LogMessage

def line (m : LogMessage) : Str := m.timestamp ++ ' ' :: m.text

def frame (m : LogMessage) : Frame := ⟨m.stream, encode (m.line ++ ['\n']), m.bounded⟩

def entry (m : LogMessage) : DriverLogEntry := ⟨m.stream, m.text, some m.timestamp⟩

end LogMessage

/-- No line holds a boundary. -/
theorem splitLines_noBreak (s : Str) : ∀ l ∈ splitLines s, ∀ c ∈ l, isLineBreak c = false := by
  induction s using splitLines.induct with
  | case1 => simp [splitLines]
  | case2 rest ih => simpa [splitLines] using ih
  | case3 c rest hcrlf hbreak ih => simpa [splitLines, hbreak] using ih
  | case4 c rest hcrlf hbreak hnil ih => simp [splitLines, hbreak, hnil]
  | case5 c rest hcrlf hbreak line lines hcons ih =>
    rw [hcons] at ih
    simpa [splitLines, hbreak, hcons] using ih

theorem splitLines_ne_nil {s : Str} (h : s ≠ []) : splitLines s ≠ [] := by
  unfold splitLines
  split
  · contradiction
  · simp
  · split
    · simp
    · split <;> simp

theorem length_le_length_flatMap {α β : Type} {f : α → List β} {l : List α}
    (h : ∀ a ∈ l, f a ≠ []) : l.length ≤ (l.flatMap f).length := by
  induction l with
  | nil => simp
  | cons a l ih =>
    have hpos := List.length_pos_iff.mpr (h a List.mem_cons_self)
    have hrest := ih fun b hb => h b (List.mem_cons_of_mem a hb)
    rw [List.flatMap_cons, List.length_append, List.length_cons]
    omega

/-- Parts that are not empty make up one element each only if each is that element. -/
theorem flatMap_eq_map_iff {α β : Type} {f : α → List β} {g : α → β} {l : List α}
    (h : ∀ a ∈ l, f a ≠ []) : l.flatMap f = l.map g ↔ ∀ a ∈ l, f a = [g a] := by
  induction l with
  | nil => simp
  | cons a l ih =>
    have hl : ∀ b ∈ l, f b ≠ [] := fun b hb => h b (List.mem_cons_of_mem a hb)
    rw [List.flatMap_cons, List.map_cons]
    constructor
    · intro heq
      obtain ⟨x, xs, hx⟩ := List.exists_cons_of_ne_nil (h a List.mem_cons_self)
      rw [hx, List.cons_append] at heq
      obtain ⟨rfl, htail⟩ := List.cons.inj heq
      have hlength := congrArg List.length htail
      have hmany := length_le_length_flatMap hl
      rw [List.length_append, List.length_map] at hlength
      obtain rfl : xs = [] := List.length_eq_zero_iff.mp (by omega)
      intro b hb
      rcases List.mem_cons.mp hb with rfl | hb
      · exact hx
      · exact (ih hl).mp htail b hb
    · intro hall
      rw [hall a List.mem_cons_self, (ih hl).mpr fun b hb => hall b (List.mem_cons_of_mem a hb)]
      rfl

theorem fraction_isPrefix (digit : Char → Bool) (s : Str) : fraction digit s <+: s := by
  unfold fraction
  split
  · split
    · exact List.nil_prefix
    · exact (List.prefix_cons_inj '.').mpr (List.takeWhile_prefix digit)
  · exact List.nil_prefix

/-- A line that is split into a timestamp and a text consists of them. -/
theorem eq_of_matchStamp {digit : Char → Bool} {line timestamp text : Str}
    (h : matchStamp digit line = some (timestamp, text)) : line = timestamp ++ ' ' :: text := by
  unfold matchStamp at h
  split at h
  · dsimp only at h
    split at h
    · rename_i hbehind
      obtain ⟨rfl, rfl⟩ := Prod.mk.inj (Option.some.inj h)
      have hfraction := List.prefix_iff_eq_append.mp
        (fraction_isPrefix digit (line.drop stampShape.length))
      rw [hbehind] at hfraction
      conv_lhs => rw [← List.take_append_drop stampShape.length line, ← hfraction]
      simp
    · cases h
  · cases h

theorem readFrames_encodeFrames (frames : List Frame) :
    readFrames (encodeFrames frames) = .ok (frames.map Frame.read, false) := by
  induction frames with
  | nil => exact readFrames_nil
  | cons f frames ih =>
    rw [encodeFrames_cons, readFrames_encode_append, ih]
    rfl

section Python

variable [Python]

theorem decodeLogs_encodeFrames (frames : List Frame) :
    decodeLogs (encodeFrames frames) true = .ok (frames.flatMap Frame.entries, false) := by
  rw [decodeLogs, if_pos rfl, readFrames_encodeFrames, Except.map, List.flatMap_map]
  rfl

/-- The entries of a message are the lines of what was written. -/
theorem LogMessage.entries_frame (m : LogMessage) :
    m.frame.entries = (splitLines (m.line ++ ['\n'])).map (entryOf m.stream) := by
  rw [Frame.entries, frameEntries, Frame.read, LogMessage.frame, decode_encode]

theorem LogMessage.entries_ne_nil (m : LogMessage) : m.frame.entries ≠ [] := by
  rw [m.entries_frame]
  simp [splitLines_ne_nil]

/-- An entry that is the message has been made of the whole line. -/
theorem LogMessage.eq_of_entryOf {m : LogMessage} {l : Str} (h : entryOf m.stream l = m.entry) :
    l = m.line := by
  unfold entryOf at h
  split at h
  · rename_i timestamp text hmatch
    simp only [LogMessage.entry, DriverLogEntry.mk.injEq, Option.some.injEq, true_and] at h
    obtain ⟨rfl, rfl⟩ := h
    exact eq_of_matchStamp hmatch
  · simp [LogMessage.entry] at h

/-- One frame holds its message, and nothing else, if its text breaks no line. -/
theorem LogMessage.entries_eq_iff (m : LogMessage) :
    m.frame.entries = [m.entry] ↔ ∀ c ∈ m.text, isLineBreak c = false := by
  rw [m.entries_frame]
  constructor
  · intro h
    obtain ⟨l, hl, hentry⟩ := List.map_eq_singleton_iff.mp h
    have hnone := splitLines_noBreak (m.line ++ ['\n']) l (by simp [hl])
    rw [LogMessage.eq_of_entryOf hentry] at hnone
    intro c hc
    exact hnone c (by simp [LogMessage.line, hc])
  · intro h
    have hwhole := frameEntries_message ⟨m.stream, m.timestamp, m.text, m.stamped, h⟩
    rwa [frameEntries, Message.payload, decode_encode] at hwhole

/-- The log comes back as it was written. -/
def Survives (messages : List LogMessage) : Prop :=
  ∃ truncated, decodeLogs (encodeFrames (messages.map LogMessage.frame)) true =
    .ok (messages.map LogMessage.entry, truncated)

/-- A log survives decoding exactly if no text in it holds a line boundary. -/
theorem survives_iff (messages : List LogMessage) :
    Survives messages ↔ ∀ m ∈ messages, ∀ c ∈ m.text, isLineBreak c = false := by
  have hflat : (messages.map LogMessage.frame).flatMap Frame.entries = messages.map LogMessage.entry ↔
      ∀ m ∈ messages, m.frame.entries = [m.entry] := by
    rw [List.flatMap_map]
    exact flatMap_eq_map_iff fun m _ => m.entries_ne_nil
  simp only [LogMessage.entries_eq_iff] at hflat
  rw [← hflat, Survives, decodeLogs_encodeFrames]
  simp

end Python

/-- A progress bar that has gone from 50% to 100%. -/
def progress : LogMessage where
  stream := .stdout
  timestamp := lit "2026-01-01T00:00:00Z"
  text := ['5', '0', '%', '\r', '1', '0', '0', '%']
  stamped := isTimestamp_newYear
  noFeed := by decide
  bounded := by decide +kernel

/-- The carriage return splits the message in two. -/
theorem not_survives_progress :
    @Frame.entries Python.ascii progress.frame =
      [⟨.stdout, lit "50%", some progress.timestamp⟩, ⟨.stdout, lit "100%", none⟩] ∧
    ¬ @Survives Python.ascii [progress] := by
  have hentries : @Frame.entries Python.ascii progress.frame =
      [⟨.stdout, lit "50%", some progress.timestamp⟩, ⟨.stdout, lit "100%", none⟩] := by
    decide +kernel
  refine ⟨hentries, ?_⟩
  rintro ⟨truncated, h⟩
  rw [@decodeLogs_encodeFrames Python.ascii] at h
  simp [hentries] at h

end MiraDriver.LogLines
