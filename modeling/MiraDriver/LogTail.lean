import MiraDriver.Daemon
import MiraDriver.Runner

/-!
# The tail of a log

`logs` asks the daemon for the last messages and reads no more than a fixed number of
bytes of the reply, which are its first. What is lost beyond them is therefore the newest
part of the tail.
-/
namespace MiraDriver.LogTail

open MiraDriver.Text MiraDriver.Base MiraDriver.Uri MiraDriver.Document MiraDriver.Inspect
  MiraDriver.Http MiraDriver.LogFrames MiraDriver.Docker MiraDriver.Program MiraDriver.Runner

/-- The leading messages whose frames lie within a number of bytes. -/
def fitting : Nat → List Message → List Message
  | _, [] => []
  | k, m :: rest =>
    if m.frame.length ≤ k then m :: fitting (k - m.frame.length) rest else []

/-- Within that number of bytes begins a frame that is longer than frames may be. -/
def Oversized : Nat → List Message → Prop
  | _, [] => False
  | k, m :: rest =>
    if m.payload.length > maxLogBytes then 8 ≤ k
    else m.frame.length ≤ k ∧ Oversized (k - m.frame.length) rest

/-- The bytes in which the daemon sends messages. -/
def sent (messages : List Message) : List UInt8 := messages.flatMap Message.frame

theorem length_frame (m : Message) : m.frame.length = m.payload.length + 8 :=
  length_encodeFrame m.stream m.payload

theorem fitting_isPrefix (k : Nat) (messages : List Message) : fitting k messages <+: messages := by
  induction messages generalizing k with
  | nil => exact List.prefix_rfl
  | cons m rest ih =>
    unfold fitting
    split
    · exact (List.prefix_cons_inj m).mpr (ih _)
    · exact List.nil_prefix

theorem length_sent_fitting_le (k : Nat) (messages : List Message) :
    (sent (fitting k messages)).length ≤ k := by
  induction messages generalizing k with
  | nil => exact Nat.zero_le k
  | cons m rest ih =>
    unfold fitting
    split
    · rename_i hk
      have := ih (k - m.frame.length)
      simp only [sent, List.flatMap_cons, List.length_append] at this ⊢
      omega
    · exact Nat.zero_le k

/-- What fits as a whole is all there is. -/
theorem fitting_of_length_le {k : Nat} {messages : List Message} (h : (sent messages).length ≤ k) :
    fitting k messages = messages := by
  induction messages generalizing k with
  | nil => rfl
  | cons m rest ih =>
    simp only [sent, List.flatMap_cons, List.length_append] at h
    rw [fitting, if_pos (by omega), ih (by simp only [sent]; omega)]

theorem not_oversized_of_length_le {k : Nat} {messages : List Message} (hk : k ≤ maxLogBytes)
    (h : (sent messages).length ≤ k) : ¬ Oversized k messages := by
  induction messages generalizing k with
  | nil => exact id
  | cons m rest ih =>
    have hm := length_frame m
    simp only [sent, List.flatMap_cons, List.length_append] at h
    rw [Oversized, if_neg (by omega)]
    intro hover
    exact ih (by omega) (by simp only [sent]; omega) hover.2

def exceedsLimit : Exn := .driverProtocolError (lit "Docker log frame exceeds limit")

/-- A header that announces more than a frame may hold. -/
theorem readFrames_oversized {m : Message} {k : Nat} (hk : 8 ≤ k)
    (hlong : m.payload.length > maxLogBytes) (hlen : m.payload.length < 4294967296)
    (rest : List UInt8) : readFrames ((m.frame ++ rest).take k) = .error exceedsLimit := by
  obtain ⟨k, rfl⟩ := Nat.exists_eq_add_of_le hk
  have htake : (m.frame ++ rest).take (8 + k) =
      streamByte m.stream :: 0 :: 0 :: 0 :: (toBytes m.payload.length ++ (m.payload ++ rest).take k) := by
    rw [Nat.add_comm]
    simp [Message.frame, encodeFrame, toBytes]
  have hsize := fromBytes_toBytes hlen
  simp only [toBytes] at hsize
  rw [htake]
  simp only [toBytes, List.cons_append, List.nil_append]
  rw [readFrames]
  simp only [ne_eq, not_true_eq_false, ↓reduceIte, hsize, hlong]
  rfl

theorem readFrames_nothing {payload : List UInt8} (h : payload.length < 8) :
    ∃ truncated, readFrames payload = .ok ([], truncated) := by
  by_cases hne : payload = []
  · exact ⟨false, by rw [hne]; exact readFrames_nil⟩
  · exact ⟨true, readFrames_short hne h⟩

/-- The first bytes of a stream of messages: the messages that fit are read, unless a frame
is refused. -/
theorem readFrames_sent {messages : List Message} (k : Nat)
    (hlen : ∀ m ∈ messages, m.payload.length < 4294967296) :
    (Oversized k messages → readFrames ((sent messages).take k) = .error exceedsLimit) ∧
      (¬ Oversized k messages → ∃ truncated, readFrames ((sent messages).take k) =
        .ok ((fitting k messages).map fun m => (m.stream, m.payload), truncated)) := by
  induction messages generalizing k with
  | nil =>
    refine ⟨False.elim, fun _ => ⟨false, ?_⟩⟩
    rw [sent, List.flatMap_nil, List.take_nil]
    exact readFrames_nil
  | cons m rest ih =>
    have hframe := length_frame m
    have hsent : sent (m :: rest) = m.frame ++ sent rest := rfl
    by_cases hlong : m.payload.length > maxLogBytes
    · rw [Oversized, if_pos hlong, hsent]
      constructor
      · intro hk
        exact readFrames_oversized hk hlong (hlen m List.mem_cons_self) _
      · intro hk
        rw [fitting, if_neg (by omega)]
        exact readFrames_nothing (by rw [List.length_take]; omega)
    · rw [Oversized, if_neg hlong, hsent]
      let f : Frame := ⟨m.stream, m.payload, Nat.le_of_not_lt hlong⟩
      have hf : m.frame = f.encode := rfl
      by_cases hk : m.frame.length ≤ k
      · obtain ⟨d, rfl⟩ := Nat.exists_eq_add_of_le hk
        obtain ⟨herror, hok⟩ := ih d fun n hn => hlen n (List.mem_cons_of_mem _ hn)
        rw [fitting, if_pos hk, Nat.add_sub_cancel_left, List.take_length_add_append, hf,
          readFrames_encode_append]
        constructor
        · intro hover
          rw [herror hover.2]
          rfl
        · intro hover
          obtain ⟨truncated, h⟩ := hok fun h => hover ⟨hk, h⟩
          exact ⟨truncated, by rw [h]; rfl⟩
      · rw [fitting, if_neg hk, List.take_append_of_le_length (by omega), hf,
          readFrames_cut f (by rw [← hf]; omega)]
        exact ⟨fun h => absurd h.1 hk, fun _ => ⟨_, rfl⟩⟩

theorem length_lastN_le {α : Type} (n : Nat) (l : List α) : (lastN n l).length ≤ n := by
  rw [lastN, List.length_drop]
  omega

theorem lastN_of_length_le {α : Type} {n : Nat} {l : List α} (h : l.length ≤ n) : lastN n l = l := by
  rw [lastN, Nat.sub_eq_zero_of_le h, List.drop_zero]

theorem lastN_suffix {α : Type} (n : Nat) (l : List α) : lastN n l <:+ l :=
  List.drop_suffix _ _

theorem lastN_nil {α : Type} (n : Nat) : lastN n ([] : List α) = [] := by
  rw [lastN, List.drop_nil]

theorem map_lastN {α β : Type} (f : α → β) (n : Nat) (l : List α) :
    (lastN n l).map f = lastN n (l.map f) := by
  rw [lastN, lastN, List.map_drop, List.length_map]

theorem lastN_lastN {α : Type} {k n : Nat} (h : k ≤ n) (l : List α) :
    lastN k (lastN n l) = lastN k l := by
  simp only [lastN, List.drop_drop, List.length_drop]
  congr 1
  omega

/-- A suffix is determined by its length. -/
theorem suffix_iff_eq_lastN {α : Type} {l₁ l : List α} : l₁ <:+ l ↔ l₁ = lastN l₁.length l := by
  constructor
  · intro h
    exact List.suffix_iff_eq_drop.mp h
  · intro h
    rw [h]
    exact lastN_suffix _ _

section Logs

variable [Python]

/-- What `logs` makes of the frames of messages, in whatever chunks they come. -/
theorem logResult_sent {messages : List Message} {n : Nat} (hn : messages.length ≤ n)
    (hlen : ∀ m ∈ messages, m.payload.length < 4294967296) {chunks : List (List UInt8)}
    (hchunks : chunks.flatten = sent messages) {response : List UInt8 × Bool}
    (hread : readReply maxLogBytes true (.response 200 chunks true) = .ok response) :
    (Oversized maxLogBytes messages → logResult n true response = .error exceedsLimit) ∧
      (¬ Oversized maxLogBytes messages → ∃ truncated, logResult n true response =
        .ok ⟨(fitting maxLogBytes messages).map Message.entry, truncated⟩) := by
  have hresponse : response.1 = (sent messages).take maxLogBytes := by
    simp only [readReply, readChunks_truncate] at hread
    rw [← hchunks, ← Except.ok.inj hread]
    rfl
  have hframes := readFrames_sent maxLogBytes hlen
  rw [← hresponse] at hframes
  constructor
  · intro hover
    rw [logResult, decodeLogs, if_pos rfl, hframes.1 hover]
    rfl
  · intro hover
    obtain ⟨truncated, h⟩ := hframes.2 hover
    have hentries : ((fitting maxLogBytes messages).map fun m => (m.stream, m.payload)).flatMap
        frameEntries = (fitting maxLogBytes messages).map Message.entry := by
      rw [List.flatMap_map]
      simp only [frameEntries_message]
      exact List.map_eq_flatMap.symm
    have hshort : ((fitting maxLogBytes messages).map Message.entry).length ≤ n := by
      rw [List.length_map]
      exact (fitting_isPrefix _ _).length_le.trans hn
    refine ⟨response.2 || truncated || decide (((fitting maxLogBytes messages).map
      Message.entry).length > n), ?_⟩
    rw [logResult, decodeLogs, if_pos rfl, h]
    simp only [Except.map, hentries, bind, Except.bind, lastN_of_length_le hshort]
    rfl

variable [Loads]

/-- The two replies behind `logs`: the container is inspected and is not a terminal, and
the frames of its last messages come in whatever chunks. Each frame is one whose length
its header can say. -/
def TailServed (reference uri : Str) (log : List Message) (n : Nat) (t : List (Exchange http)) : Prop :=
  ∃ (inspected : List (Exchange http)) (container : Str) (inspect : Object) (chunks : List (List UInt8)),
    (inspectAddressed reference uri "Docker logs require a container address" (checkTail n)).Exec
      inspected (.ok (container, inspect)) ∧
    ttyOf inspect = false ∧ chunks.flatten = sent (lastN n log) ∧
    (∀ m ∈ lastN n log, m.payload.length < 4294967296) ∧
    t = inspected ++ [⟨⟨containerPath container "/logs", logParams n⟩, .response 200 chunks true⟩]

/-- The entries are a suffix of the log, and the lines made of the reply after a death end
with the newest message. -/
def TailIsTail (log : List Message) (out : Except Exn DriverLogResult) : Prop :=
  (∃ result, out = .ok result ∧ result.entries <:+ log.map Message.entry) ∧
    ∀ m, log.getLast? = some m →
      ∃ lines, postmortemLines out = .ok lines ∧ lines.getLast? = some (logLine m.entry)

/-- Nothing was written, or the leading messages that fit are as many as the newest and the
same, there are some, and no frame is refused. -/
def TailFits (log messages : List Message) : Prop :=
  log = [] ∨ ¬ Oversized maxLogBytes messages ∧ fitting maxLogBytes messages ≠ [] ∧
    (fitting maxLogBytes messages).map Message.entry =
      (lastN (fitting maxLogBytes messages).length log).map Message.entry

/-- `logs` comes to an end on a served tail, with the messages that fit. -/
theorem exists_exec_logs {reference uri : Str} {log : List Message} {n : Nat}
    {t : List (Exchange http)} (hs : TailServed reference uri log n t) :
    ∃ out, (logs reference uri n).Exec t out ∧
      (Oversized maxLogBytes (lastN n log) → out = .error exceedsLimit) ∧
      (¬ Oversized maxLogBytes (lastN n log) → ∃ truncated, out =
        .ok ⟨(fitting maxLogBytes (lastN n log)).map Message.entry, truncated⟩) := by
  obtain ⟨inspected, container, inspect, chunks, hinspect, htty, hchunks, hlen, rfl⟩ := hs
  cases hread : readReply maxLogBytes true (.response 200 chunks true) with
  | error e => simp [readReply, readChunks_truncate] at hread
  | ok response =>
    refine ⟨logResult n true response, ?_, logResult_sent (length_lastN_le n log) hlen hchunks hread⟩
    have hexec := exec_logs_of_inspected hinspect hread
    rwa [htty] at hexec

omit [Python] [Loads] in
/-- A suffix that is not empty ends as the whole does. -/
theorem getLast?_of_suffix {α : Type} {l₁ l : List α} (h : l₁ <:+ l) (hne : l₁ ≠ []) :
    l₁.getLast? = l.getLast? := by
  obtain ⟨front, rfl⟩ := h
  rw [List.getLast?_append_of_ne_nil _ hne]

omit [Python] [Loads] in
theorem not_tailIsTail_error (log : List Message) (e : Exn) : ¬ TailIsTail log (.error e) := by
  intro htail
  obtain ⟨⟨result, hresult, -⟩, -⟩ := htail
  cases hresult

omit [Python] [Loads] in
/-- Messages returned are a tail if they are the newest, and some of them where anything
was written. -/
theorem tailIsTail_ok_iff {log messages : List Message} {truncated : Bool}
    (hempty : log = [] → messages = []) :
    TailIsTail log (.ok ⟨messages.map Message.entry, truncated⟩) ↔
      log = [] ∨ messages ≠ [] ∧
        messages.map Message.entry = (lastN messages.length log).map Message.entry := by
  have hlines : postmortemLines (.ok ⟨messages.map Message.entry, truncated⟩) =
      .ok ((messages.map Message.entry).map logLine) := rfl
  constructor
  · intro htail
    obtain ⟨⟨result, hresult, hsuffix⟩, hlast⟩ := htail
    obtain rfl := Except.ok.inj hresult
    cases hm : log.getLast? with
    | none => exact .inl (List.getLast?_eq_none_iff.mp hm)
    | some m =>
      obtain ⟨lines, hok, hend⟩ := hlast m hm
      obtain rfl := Except.ok.inj (hlines.symm.trans hok)
      refine .inr ⟨?_, ?_⟩
      · rintro rfl
        cases hend
      · rw [map_lastN]
        have heq := suffix_iff_eq_lastN.mp hsuffix
        rwa [List.length_map] at heq
  · intro h
    cases h with
    | inl hlog =>
      rw [hempty hlog, hlog]
      exact ⟨⟨_, rfl, List.suffix_rfl⟩, fun m hm => nomatch hm⟩
    | inr h =>
      obtain ⟨hne, heq⟩ := h
      have hsuffix : messages.map Message.entry <:+ log.map Message.entry := by
        rw [heq, map_lastN]
        exact lastN_suffix _ _
      refine ⟨⟨_, rfl, hsuffix⟩, ?_⟩
      intro m hm
      refine ⟨_, hlines, ?_⟩
      have hlast := getLast?_of_suffix (hsuffix.map logLine) (by simpa using hne)
      rw [hlast, List.getLast?_map, List.getLast?_map, hm]
      rfl

/-- The tail is a tail exactly if it fits. -/
theorem logs_tail_iff (reference uri : Str) (log : List Message) (n : Nat)
    (t : List (Exchange http)) (out : Except Exn DriverLogResult)
    (hs : TailServed reference uri log n t) (h : (logs reference uri n).Exec t out) :
    TailIsTail log out ↔ TailFits log (lastN n log) := by
  obtain ⟨_, hexec, hrefused, hread⟩ := exists_exec_logs hs
  obtain rfl := Prog.exec_unique hexec h
  by_cases hover : Oversized maxLogBytes (lastN n log)
  · have hne : log ≠ [] := by
      rintro rfl
      rw [lastN_nil] at hover
      exact hover
    rw [hrefused hover]
    refine iff_of_false (not_tailIsTail_error log _) ?_
    intro hfits
    exact hfits.elim hne fun hf => hf.1 hover
  · obtain ⟨truncated, rfl⟩ := hread hover
    have hempty : log = [] → fitting maxLogBytes (lastN n log) = [] := by
      rintro rfl
      rw [lastN_nil]
      rfl
    rw [tailIsTail_ok_iff hempty, TailFits]
    simp only [hover, not_false_eq_true, true_and]

omit [Python] [Loads] in
/-- A prefix that holds, in order, as much of the newest of a list is the whole list, if no
two elements agree. -/
theorem eq_of_prefix_of_lastN {α β : Type} {f : α → β} {l₁ l : List α} (hp : l₁ <+: l)
    (hne : l₁ ≠ []) (hd : (l.map f).Nodup) (h : l₁.map f = (lastN l₁.length l).map f) : l₁ = l := by
  obtain ⟨rest, rfl⟩ := hp
  suffices hrest : rest = [] by rw [hrest, List.append_nil]
  by_contra hrest
  have hpos : 0 < l₁.length := List.length_pos_iff.mpr hne
  have hpos' : 0 < rest.length := List.length_pos_iff.mpr hrest
  have hlen : (l₁ ++ rest).length - l₁.length = rest.length := by
    rw [List.length_append]
    omega
  have hfirst := congrArg (fun l => l[0]?) h
  simp only [lastN, hlen, List.getElem?_map, List.getElem?_drop, Nat.add_zero] at hfirst
  have hsame : ((l₁ ++ rest).map f)[0]? = ((l₁ ++ rest).map f)[rest.length]? := by
    rw [List.getElem?_map, List.getElem?_map, List.getElem?_append_left hpos, hfirst]
  have hlt : 0 < ((l₁ ++ rest).map f).length := by
    rw [List.length_map, List.length_append]
    omega
  have hzero := (List.getElem?_inj hlt hd).mp hsame
  omega

omit [Python] [Loads] in
/-- Where no message is repeated, the tail fits only if all of it fits. -/
theorem tailFits_iff_of_nodup {log : List Message} {n : Nat} (hn : 1 ≤ n)
    (hd : (log.map Message.entry).Nodup) :
    TailFits log (lastN n log) ↔ (sent (lastN n log)).length ≤ maxLogBytes := by
  constructor
  · intro hfits
    cases hfits with
    | inl hempty =>
      rw [hempty, lastN_nil]
      exact Nat.zero_le _
    | inr hfits =>
      obtain ⟨-, hne, heq⟩ := hfits
      have hp := fitting_isPrefix maxLogBytes (lastN n log)
      have hd' : ((lastN n log).map Message.entry).Nodup :=
        ((lastN_suffix n log).map Message.entry).sublist.nodup hd
      rw [← lastN_lastN (hp.length_le.trans (length_lastN_le n log))] at heq
      have hall := eq_of_prefix_of_lastN hp hne hd' heq
      have hle := length_sent_fitting_le maxLogBytes (lastN n log)
      rwa [hall] at hle
  · intro hle
    by_cases hempty : log = []
    · exact .inl hempty
    · have hlen : 0 < log.length := List.length_pos_iff.mpr hempty
      have hne : lastN n log ≠ [] := by
        apply List.ne_nil_of_length_pos
        rw [lastN, List.length_drop]
        omega
      refine .inr ⟨not_oversized_of_length_le le_rfl hle, ?_, ?_⟩
      · rwa [fitting_of_length_le hle]
      · rw [fitting_of_length_le hle, ← suffix_iff_eq_lastN.mp (lastN_suffix n log)]

end Logs

section Long

/-- A message of one character over and over. -/
def longMessage (c : Char) (n : Nat) (h : isLineBreak c = false) : Message where
  stream := .stdout
  timestamp := lit "2026-01-01T00:00:00Z"
  text := List.replicate n c
  stamped := isTimestamp_newYear
  oneLine := by
    intro d hd
    rwa [List.eq_of_mem_replicate hd]

theorem length_payload_longMessage {c : Char} (n : Nat) (h : isLineBreak c = false)
    (hc : c.utf8Size = 1) : (longMessage c n h).payload.length = n + 22 := by
  have hstamp : (Utf8.encode (lit "2026-01-01T00:00:00Z")).length = 20 := by decide +kernel
  have htext : (Utf8.encode (List.replicate n c)).length = n := by
    induction n with
    | zero => rfl
    | succ n ih =>
      rw [List.replicate_succ, Utf8.encode_cons, List.length_append, ih, String.length_utf8EncodeChar,
        hc, Nat.add_comm]
  have hspace : ' '.utf8Size = 1 := by decide
  have hbreak : '\n'.utf8Size = 1 := by decide
  simp only [Message.payload, Message.line, longMessage, Utf8.encode_append, Utf8.encode_cons,
    Utf8.encode_nil, List.length_append, List.length_nil, String.length_utf8EncodeChar,
    hstamp, htext, hspace, hbreak]
  omega

theorem oneLine_a : isLineBreak 'a' = false := by decide

theorem oneLine_b : isLineBreak 'b' = false := by decide

/-- Two messages that are together more than is read. -/
def longLog : List Message :=
  [longMessage 'a' 200000 oneLine_a, longMessage 'b' 100000 oneLine_b]

theorem fitting_longLog : ¬ Oversized maxLogBytes longLog ∧
    fitting maxLogBytes longLog = [longMessage 'a' 200000 oneLine_a] := by
  have ha := length_payload_longMessage 200000 oneLine_a (by decide)
  have hb := length_payload_longMessage 100000 oneLine_b (by decide)
  have hfa := length_frame (longMessage 'a' 200000 oneLine_a)
  have hfb := length_frame (longMessage 'b' 100000 oneLine_b)
  constructor
  · simp [longLog, Oversized, hfa, hfb, ha, hb, maxLogBytes]
  · simp [longLog, fitting, hfa, hfb, ha, hb, maxLogBytes]

open MiraDriver.Daemon

/-- The container called web of the project shop, as it is inspected. -/
def webBody : List UInt8 := inspectBytes (lit "0123456789ab") (lit "shop")

def webDocument : Object := Mapping.Dict.ofList (inspectMembers (lit "0123456789ab") (lit "shop"))

def webContainer : Identity.Container :=
  ⟨lit "0123456789ab", lit "web", lit "web", lit "shop", some (lit "web"), none, none⟩

theorem readJson_web : @readJson recreatedLoads (.response 200 [webBody] true) =
    .ok (.obj (inspectMembers (lit "0123456789ab") (lit "shop"))) := by
  have hread : readReply maxInventoryBytes false (.response 200 [webBody] true) =
      .ok (webBody, false) := by decide +kernel
  have hloads : recreatedLoads.loads webBody =
      .value (.obj (inspectMembers (lit "0123456789ab") (lit "shop"))) := if_pos rfl
  simp only [readJson, hread, Except.bind, decodeJson, hloads]

theorem checkedInspect_web : @checkedInspect Python.ascii recreatedAddress
    (.obj (inspectMembers (lit "0123456789ab") (lit "shop"))) = .ok (webDocument, webContainer) := by
  apply (@checkedInspect_ok_iff Python.ascii _ _ _ _).mpr
  exact ⟨rfl, by decide +kernel, by decide +kernel⟩

/-- The inspect reply, and the log reply for the last ten messages. -/
def longTrace : List (Exchange http) :=
  [⟨inspectRequest (lit "web"), .response 200 [webBody] true⟩] ++
    [⟨⟨containerPath (lit "web") "/logs", logParams (10 : Nat)⟩, .response 200 [sent longLog] true⟩]

theorem inspected_web (tail : Int) (htail : checkTail tail = .ok ()) :
    (@inspectAddressed Python.ascii recreatedLoads (lit "local") recreatedAddress.uri
      "Docker logs require a container address" (checkTail tail)).Exec
        [⟨inspectRequest (lit "web"), .response 200 [webBody] true⟩] (.ok (lit "web", webDocument)) := by
  apply (@exec_inspectAddressed_ok Python.ascii recreatedLoads _ _ _ _ _ _ _).mpr
  exact ⟨recreatedAddress, _, webContainer, _, by decide +kernel, rfl, htail, rfl, readJson_web,
    checkedInspect_web⟩

theorem tailServed_long :
    @TailServed Python.ascii recreatedLoads (lit "local") recreatedAddress.uri longLog 10 longTrace := by
  have ha := length_payload_longMessage 200000 oneLine_a (by decide)
  have hb := length_payload_longMessage 100000 oneLine_b (by decide)
  refine ⟨_, lit "web", webDocument, [sent longLog], ?_, by decide +kernel, by simp [lastN, longLog],
    ?_, rfl⟩
  · exact inspected_web _ rfl
  · simp [lastN, longLog, ha, hb]

theorem lastN_longLog : lastN 10 longLog = longLog := lastN_of_length_le (by simp [longLog])

/-- Only the older of the two messages is returned. -/
theorem exec_logs_long : ∃ truncated,
    (@logs Python.ascii recreatedLoads (lit "local") recreatedAddress.uri (10 : Nat)).Exec longTrace
      (.ok ⟨[(longMessage 'a' 200000 oneLine_a).entry], truncated⟩) := by
  obtain ⟨out, hexec, -, hread⟩ := @exists_exec_logs Python.ascii recreatedLoads _ _ _ _ _ tailServed_long
  rw [lastN_longLog] at hread
  obtain ⟨truncated, rfl⟩ := hread fitting_longLog.1
  rw [fitting_longLog.2] at hexec
  exact ⟨truncated, hexec⟩

theorem logs_tail_iff_long : ∃ out,
    (@logs Python.ascii recreatedLoads (lit "local") recreatedAddress.uri (10 : Nat)).Exec longTrace out ∧
      (TailIsTail longLog out ↔ TailFits longLog (lastN 10 longLog)) := by
  obtain ⟨truncated, hexec⟩ := exec_logs_long
  exact ⟨_, hexec, @logs_tail_iff Python.ascii recreatedLoads (lit "local") recreatedAddress.uri longLog
    10 longTrace _ tailServed_long hexec⟩

/-- The newest message is lost. -/
theorem not_tailIsTail_long : ∃ out,
    @TailServed Python.ascii recreatedLoads (lit "local") recreatedAddress.uri longLog 10 longTrace ∧
    (@logs Python.ascii recreatedLoads (lit "local") recreatedAddress.uri (10 : Nat)).Exec longTrace out ∧
      ¬ TailIsTail longLog out := by
  obtain ⟨truncated, hexec⟩ := exec_logs_long
  refine ⟨_, tailServed_long, hexec, ?_⟩
  intro htail
  obtain ⟨⟨result, hresult, hsuffix⟩, -⟩ := htail
  obtain rfl := Except.ok.inj hresult
  have hsame := suffix_iff_eq_lastN.mp hsuffix
  simp only [longLog, lastN, List.map_cons, List.map_nil, List.length_cons, List.length_nil,
    List.drop_succ_cons, List.drop_zero, List.cons.injEq, and_true] at hsame
  have htext := congrArg (fun entry => entry.text.length) hsame
  simp only [Message.entry, longMessage, List.length_replicate] at htext
  omega

end Long

end MiraDriver.LogTail
