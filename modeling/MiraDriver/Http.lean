import MiraDriver.Program
import MiraDriver.Document

/-!
# Requests to the daemon

Every request is a `GET`. Its reply is an arbitrary status with an arbitrary
chunked body, or a transport failure, which may also break a body off.
-/
namespace MiraDriver.Http

open MiraDriver.Text MiraDriver.Base MiraDriver.Document MiraDriver.Program

structure Request where
  path : Str
  params : List (Str × Str)
  deriving DecidableEq, Repr

inductive Reply where
  /-- `httpx.RequestError` before there is a response. -/
  | requestError
  /-- An incomplete body ends in an `httpx.RequestError` after its last chunk. -/
  | response (status : Nat) (chunks : List (List UInt8)) (complete : Bool)
  deriving DecidableEq, Repr

abbrev http : Interface := ⟨Request, fun _ => Reply⟩

def maxInventoryBytes : Nat := 8 * 1024 * 1024

def maxLogBytes : Nat := 256 * 1024

def maxRevisionArchiveBytes : Nat := 16 * 1024

def unavailable : Exn := .driverUnavailable (lit "target is unavailable")

/-- The loop over `response.iter_bytes()`, with the size and the bytes read so far. -/
def readChunks (maximumBytes : Nat) (truncate complete : Bool) (size : Nat) (read : List UInt8) :
    List (List UInt8) → Except Exn (List UInt8 × Bool)
  | [] => if complete then .ok (read, false) else .error unavailable
  | chunk :: rest =>
    let remaining := maximumBytes - size
    if chunk.length > remaining then
      if truncate then .ok (read ++ chunk.take remaining, true)
      else .error (.driverProtocolError (lit "target response exceeds the configured limit"))
    else readChunks maximumBytes truncate complete (size + chunk.length) (read ++ chunk) rest

/-- A response by its status, and its body within the limit. -/
def readReply (maximumBytes : Nat) (truncate : Bool) : Reply → Except Exn (List UInt8 × Bool)
  | .requestError => .error unavailable
  | .response status chunks complete =>
    if status = 401 ∨ status = 403 then
      .error (.driverUnavailable (lit "target rejected the request as unauthorized"))
    else if status = 404 then
      .error (.driverResourceNotFound (lit "target resource was not found"))
    else if status ≥ 400 then
      .error (.driverUnavailable
        (lit "target request failed with HTTP " ++ (Nat.repr status).toList))
    else readChunks maximumBytes truncate complete 0 [] chunks

/-- `client.stream("GET", path, params)`. -/
def request (path : Str) (params : List (Str × Str)) : Prog http Exn Reply :=
  Prog.ask (I := http) ⟨path, params⟩

/-- `_read_response`. -/
def readResponse (path : Str) (params : List (Str × Str)) (maximumBytes : Nat) (truncate : Bool) :
    Prog http Exn (List UInt8 × Bool) := do
  let reply ← request path params
  Prog.ofExcept (readReply maximumBytes truncate reply)

/-- `httpx.Response(200, content=payload).json()`. -/
def decodeJson [Loads] (payload : List UInt8) : Except Exn Json :=
  match Loads.loads payload with
  | .value document => .ok document
  | .refused => .error (.driverProtocolError (lit "Docker returned malformed JSON"))
  | .raised name => .error (.exception name)

/-- `_get_json`. -/
def getJson [Loads] (path : Str) (params : List (Str × Str)) : Prog http Exn Json := do
  let response ← readResponse path params maxInventoryBytes false
  Prog.ofExcept (decodeJson response.1)

/-- What a reply to a JSON request is read as. -/
def readJson [Loads] (reply : Reply) : Except Exn Json :=
  (readReply maxInventoryBytes false reply).bind fun response => decodeJson response.1

theorem exec_request {path : Str} {params : List (Str × Str)} {t : List (Exchange http)}
    {r : Except Exn Reply} :
    (request path params).Exec t r ↔ ∃ reply : Reply, t = [⟨⟨path, params⟩, reply⟩] ∧ r = .ok reply :=
  Prog.exec_ask (I := http) ⟨path, params⟩ t r

/-- One request and what its reply is read as. -/
theorem exec_readResponse {path : Str} {params : List (Str × Str)} {maximumBytes : Nat}
    {truncate : Bool} {t : List (Exchange http)} {r : Except Exn (List UInt8 × Bool)} :
    (readResponse path params maximumBytes truncate).Exec t r ↔
      ∃ reply : Reply, t = [⟨⟨path, params⟩, reply⟩] ∧ r = readReply maximumBytes truncate reply := by
  simp only [readResponse, Prog.exec_bind, exec_request, Prog.exec_ofExcept]
  constructor
  · rintro (⟨e, ⟨reply, -, he⟩, -⟩ | ⟨t₁, t₂, reply, rfl, ⟨reply', rfl, hr⟩, rfl, rfl⟩)
    · cases he
    · obtain rfl := Except.ok.inj hr
      exact ⟨reply, by simp, rfl⟩
  · rintro ⟨reply, rfl, rfl⟩
    exact .inr ⟨[⟨⟨path, params⟩, reply⟩], [], reply, by simp, ⟨reply, rfl, rfl⟩, rfl, rfl⟩

theorem exec_getJson [Loads] {path : Str} {params : List (Str × Str)} {t : List (Exchange http)}
    {r : Except Exn Json} :
    (getJson path params).Exec t r ↔
      ∃ reply : Reply, t = [⟨⟨path, params⟩, reply⟩] ∧ r = readJson reply := by
  simp only [getJson, Prog.exec_bind, exec_readResponse, Prog.exec_ofExcept]
  constructor
  · rintro (⟨e, ⟨reply, rfl, he⟩, rfl⟩ | ⟨t₁, t₂, response, rfl, ⟨reply, rfl, hr⟩, rfl, rfl⟩)
    · exact ⟨reply, rfl, by simp [readJson, ← he, Except.bind]⟩
    · exact ⟨reply, by simp, by simp [readJson, ← hr, Except.bind]⟩
  · rintro ⟨reply, rfl, rfl⟩
    cases hr : readReply maxInventoryBytes false reply with
    | error e => exact .inl ⟨e, ⟨reply, rfl, hr.symm⟩, by simp [readJson, hr, Except.bind]⟩
    | ok response =>
      exact .inr ⟨_, [], response, by simp, ⟨reply, rfl, hr.symm⟩, rfl,
        by simp [readJson, hr, Except.bind]⟩

/-- However a body is chunked, a truncating reader keeps its first bytes and says whether
there are more. -/
theorem readChunks_truncate {maximumBytes size : Nat} {read : List UInt8}
    {chunks : List (List UInt8)} :
    readChunks maximumBytes true true size read chunks =
      .ok (read ++ chunks.flatten.take (maximumBytes - size),
        decide (maximumBytes - size < chunks.flatten.length)) := by
  induction chunks generalizing size read with
  | nil => simp [readChunks]
  | cons chunk rest ih =>
    unfold readChunks
    dsimp only
    rw [List.flatten_cons, List.length_append]
    by_cases hlong : chunk.length > maximumBytes - size
    · rw [if_pos hlong, if_pos rfl, List.take_append_of_le_length (Nat.le_of_lt hlong),
        decide_eq_true (by omega)]
    · have htake : (chunk ++ rest.flatten).take (maximumBytes - size) =
          chunk ++ rest.flatten.take (maximumBytes - (size + chunk.length)) := by
        rw [List.take_append, List.take_of_length_le (Nat.le_of_not_lt hlong), Nat.sub_sub]
      rw [if_neg hlong, ih, htake, List.append_assoc]
      have hmore : maximumBytes - (size + chunk.length) < rest.flatten.length ↔
          maximumBytes - size < chunk.length + rest.flatten.length := by omega
      simp only [hmore]

/-- However a body is chunked, a reader that does not truncate returns all of it, or raises if
it is over the limit. -/
theorem readChunks_whole {maximumBytes size : Nat} {read : List UInt8} {chunks : List (List UInt8)} :
    readChunks maximumBytes false true size read chunks =
      if chunks.flatten.length ≤ maximumBytes - size then .ok (read ++ chunks.flatten, false)
      else .error (.driverProtocolError (lit "target response exceeds the configured limit")) := by
  induction chunks generalizing size read with
  | nil => simp [readChunks]
  | cons chunk rest ih =>
    unfold readChunks
    dsimp only
    rw [List.flatten_cons, List.length_append]
    by_cases hlong : chunk.length > maximumBytes - size
    · rw [if_pos hlong, if_neg Bool.false_ne_true, if_neg (by omega)]
    · have hfits : rest.flatten.length ≤ maximumBytes - (size + chunk.length) ↔
          chunk.length + rest.flatten.length ≤ maximumBytes - size := by omega
      rw [if_neg hlong, ih, List.append_assoc]
      simp only [hfits]

/-! ## The states of the loop -/

/-- The loop over these chunks comes to a size, to bytes that it keeps, and to chunks that are
still to be read. -/
inductive Loop (maximumBytes : Nat) (chunks : List (List UInt8)) :
    Nat → List UInt8 → List (List UInt8) → Prop
  | start : Loop maximumBytes chunks 0 [] chunks
  | next {size : Nat} {read chunk : List UInt8} {rest : List (List UInt8)} :
    Loop maximumBytes chunks size read (chunk :: rest) → chunk.length ≤ maximumBytes - size →
      Loop maximumBytes chunks (size + chunk.length) (read ++ chunk) rest

section Loop

variable {maximumBytes size : Nat} {read : List UInt8} {chunks rest : List (List UInt8)}

/-- Nothing is lost, and nothing is kept beyond the limit. -/
theorem loop_sound (h : Loop maximumBytes chunks size read rest) :
    read.length = size ∧ size ≤ maximumBytes ∧ read ++ rest.flatten = chunks.flatten := by
  induction h with
  | start => simp
  | @next size read chunk rest _ hfits ih =>
    obtain ⟨hlength, hlimit, hbody⟩ := ih
    refine ⟨?_, ?_, ?_⟩
    · rw [List.length_append, hlength]
    · omega
    · rw [← hbody, List.flatten_cons, List.append_assoc]

/-- What the reader makes of the chunks is what it makes of the rest from such a state. -/
theorem readChunks_of_loop (h : Loop maximumBytes chunks size read rest) (truncate complete : Bool) :
    readChunks maximumBytes truncate complete 0 [] chunks =
      readChunks maximumBytes truncate complete size read rest := by
  induction h with
  | start => rfl
  | next _ hfits ih =>
    rw [ih, readChunks]
    exact if_neg (Nat.not_lt.mpr hfits)

/-- What comes of a body: it depends on the concatenated chunks only. -/
structure Bounded (maximumBytes : Nat) (truncate : Bool) (chunks : List (List UInt8))
    (x : Except Exn (List UInt8 × Bool)) : Prop where
  truncating : truncate = true →
    x = .ok (chunks.flatten.take maximumBytes, decide (maximumBytes < chunks.flatten.length))
  whole : truncate = false → chunks.flatten.length ≤ maximumBytes → x = .ok (chunks.flatten, false)
  refused : truncate = false →
    ((∃ message, x = .error (.driverProtocolError message)) ↔ maximumBytes < chunks.flatten.length)
  returned : ∀ body truncated, x = .ok (body, truncated) → body.length ≤ maximumBytes
  /-- In every state that the loop comes to. -/
  retained : ∀ size read rest, Loop maximumBytes chunks size read rest →
    read.length ≤ maximumBytes ∧
      readChunks maximumBytes truncate true size read rest = x

/-- The reader returns the first bytes of a body up to its limit, or all of it or nothing. -/
theorem readResponse_bounded {path : Str} {params : List (Str × Str)} {truncate : Bool} {status : Nat}
    (hstatus : status < 400) {x : Except Exn (List UInt8 × Bool)}
    (h : (readResponse path params maximumBytes truncate).Exec
      [⟨⟨path, params⟩, (.response status chunks true : Reply)⟩] x) :
    Bounded maximumBytes truncate chunks x := by
  obtain ⟨reply, ht, hx⟩ := exec_readResponse.mp h
  obtain rfl : .response status chunks true = reply := by simpa using ht
  have hread : x = readChunks maximumBytes truncate true 0 [] chunks := by
    rw [hx, readReply, if_neg (by omega), if_neg (by omega), if_neg (by omega)]
  have hretained : ∀ size read rest, Loop maximumBytes chunks size read rest →
      read.length ≤ maximumBytes ∧ readChunks maximumBytes truncate true size read rest = x := by
    intro size read rest hloop
    obtain ⟨hlength, hlimit, -⟩ := loop_sound hloop
    exact ⟨by omega, by rw [hread, readChunks_of_loop hloop]⟩
  cases truncate with
  | true =>
    rw [readChunks_truncate, List.nil_append, Nat.sub_zero] at hread
    refine ⟨fun _ => hread, nofun, nofun, ?_, hretained⟩
    intro body truncated hbody
    obtain ⟨rfl, -⟩ := Prod.mk.inj (Except.ok.inj (hread.symm.trans hbody))
    exact List.length_take_le _ _
  | false =>
    rw [readChunks_whole, List.nil_append, Nat.sub_zero] at hread
    by_cases hlong : chunks.flatten.length ≤ maximumBytes
    · rw [if_pos hlong] at hread
      refine ⟨nofun, fun _ _ => hread, fun _ => ?_, ?_, hretained⟩
      · rw [hread]
        simpa using hlong
      · intro body truncated hbody
        obtain ⟨rfl, -⟩ := Prod.mk.inj (Except.ok.inj (hread.symm.trans hbody))
        exact hlong
    · rw [if_neg hlong] at hread
      refine ⟨nofun, fun _ hshort => absurd hshort hlong, fun _ => ?_, ?_, hretained⟩
      · rw [hread]
        simpa using hlong
      · intro body truncated hbody
        cases hread.symm.trans hbody

/-- Six bytes against a limit of four, with an empty chunk at the limit. -/
theorem readResponse_bounded_six :
    Bounded 4 true [[1, 2], [3, 4], [], [5, 6]] (.ok ([1, 2, 3, 4], true)) :=
  @readResponse_bounded 4 [[1, 2], [3, 4], [], [5, 6]] [] [] true 200 (by decide) _
    (exec_readResponse.mpr ⟨_, rfl, rfl⟩)

end Loop

/-- A body of one chunk is read as it is or not at all. -/
theorem readReply_singleton {maximumBytes : Nat} {body : List UInt8} {out : List UInt8 × Bool}
    (h : readReply maximumBytes false (.response 200 [body] true) = .ok out) : out = (body, false) := by
  by_cases hlen : maximumBytes < body.length
  · simp [readReply, readChunks, hlen] at h
  · simpa [readReply, readChunks, hlen, eq_comm] using h

theorem readJson_singleton [Loads] {body : List UInt8} {document : Json}
    (h : readJson (.response 200 [body] true) = .ok document) : Loads.loads body = .value document := by
  unfold readJson at h
  cases hr : readReply maxInventoryBytes false (.response 200 [body] true) with
  | error e =>
    rw [hr] at h
    cases h
  | ok out =>
    rw [hr, readReply_singleton hr] at h
    simp only [Except.bind, decodeJson] at h
    split at h
    · rename_i d hd
      rw [hd, Except.ok.inj h]
    · cases h
    · cases h

end MiraDriver.Http
