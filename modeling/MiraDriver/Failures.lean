import MiraDriver.Docker

/-!
# What the driver raises

No operation of the driver raises anything but a `DriverError`, whatever the daemon
answers, unless a parser of the standard library does. The readers are followed one by one,
from the decoders up.
-/
namespace MiraDriver.Failures

open MiraDriver.Text MiraDriver.Mapping MiraDriver.Base MiraDriver.Uri MiraDriver.Document
  MiraDriver.Identity MiraDriver.Inventory MiraDriver.Inspect MiraDriver.Http MiraDriver.LogFrames
  MiraDriver.Docker MiraDriver.Program

variable {α β : Type}

/-- Whatever is raised is a `DriverError`. -/
def Expected (x : Except Exn α) : Prop := ∀ e, x = .error e → e.isDriverError = true

theorem expected_ok (a : α) : Expected (.ok a : Except Exn α) := by
  intro e h
  cases h

theorem expected_error {e : Exn} (h : e.isDriverError = true) :
    Expected (.error e : Except Exn α) := by
  intro e' he
  rwa [← Except.error.inj he]

theorem expected_bind {x : Except Exn α} {f : α → Except Exn β} (hx : Expected x)
    (hf : ∀ a, Expected (f a)) : Expected (x >>= f) := by
  intro e h
  cases bind_error_iff.mp h with
  | inl h => exact hx e h
  | inr h =>
    obtain ⟨a, -, ha⟩ := h
    exact hf a e ha

theorem expected_map {x : Except Exn α} (hx : Expected x) (f : α → β) : Expected (x.map f) := by
  cases x with
  | ok a => exact expected_ok _
  | error e => exact expected_error (hx e rfl)

theorem expected_mapM {f : α → Except Exn β} (hf : ∀ a, Expected (f a)) (l : List α) :
    Expected (l.mapM f) := by
  induction l with
  | nil => exact expected_ok []
  | cons a l ih =>
    rw [List.mapM_cons]
    apply expected_bind (hf a)
    intro b
    apply expected_bind ih
    intro bs
    apply expected_ok

theorem expected_require (value : Option α) (message : String) : Expected (require value message) := by
  cases value with
  | none => exact expected_error rfl
  | some a => exact expected_ok a

theorem expected_boundedOptional (value : Json) (maximum : Nat) (field : String) :
    Expected (boundedOptional value maximum field) := by
  intro e h
  obtain ⟨m, rfl⟩ := boundedOptional_error h
  rfl

section Readers

variable [Python]

theorem expected_validateComposeAddress (project service : Str) :
    Expected (validateComposeAddress project service) := by
  intro e h
  unfold validateComposeAddress at h
  split at h
  · cases h
  · rw [← Except.error.inj h]
    rfl
  · rename_i hne herr
    obtain ⟨m, rfl⟩ := parseDockerUri_error herr
    exact (hne m rfl).elim

theorem expected_composeIdentity (labels : Object) : Expected (composeIdentity labels) := by
  unfold composeIdentity
  dsimp only
  split
  · exact expected_ok _
  · split
    · apply expected_bind (expected_validateComposeAddress _ _)
      intro u
      apply expected_ok
    · exact expected_error rfl

theorem expected_container (id rawName : Str) (labels : Object) (state image : Option Str) :
    Expected (container id rawName labels state image) := by
  apply expected_bind (expected_composeIdentity labels)
  intro identity
  apply expected_ok

omit [Python] in
theorem expected_inspectState (value : Json) : Expected (inspectState value) := by
  unfold inspectState
  split
  · apply expected_boundedOptional
  · apply expected_ok

theorem expected_containerFromList (document : Object) : Expected (containerFromList document) := by
  apply expected_bind (expected_require _ _)
  intro id
  apply expected_bind (expected_require _ _)
  intro names
  apply expected_bind (expected_require _ _)
  intro labels
  apply expected_bind (expected_boundedOptional _ _ _)
  intro state
  apply expected_bind (expected_boundedOptional _ _ _)
  intro image
  apply expected_container

theorem expected_containerFromInspect (document : Object) :
    Expected (containerFromInspect document) := by
  apply expected_bind (expected_require _ _)
  intro id
  apply expected_bind (expected_require _ _)
  intro rawName
  apply expected_bind (expected_require _ _)
  intro config
  apply expected_bind (expected_require _ _)
  intro labels
  apply expected_bind (expected_inspectState _)
  intro state
  apply expected_bind (expected_boundedOptional _ _ _)
  intro image
  apply expected_container

omit [Python] in
theorem expected_assertMatches (address : DockerAddress) (c : Container) :
    Expected (assertMatches address c) := by
  unfold assertMatches
  split
  · exact expected_error rfl
  · exact expected_ok ()

theorem expected_ownAddress (reference uri : Str) : Expected (ownAddress reference uri) := by
  intro e h
  unfold ownAddress at h
  split at h
  · split at h
    · rw [← Except.error.inj h]
      rfl
    · cases h
  · rw [← Except.error.inj h]
    rfl
  · rename_i hne herr
    obtain ⟨m, rfl⟩ := parseDockerUri_error herr
    exact (hne m rfl).elim

theorem expected_checkedInspect (address : DockerAddress) (document : Json) :
    Expected (checkedInspect address document) := by
  apply expected_bind (expected_require _ _)
  intro inspect
  apply expected_bind (expected_containerFromInspect inspect)
  intro c
  apply expected_bind (expected_assertMatches address c)
  intro u
  apply expected_ok

omit [Python] in
theorem expected_view (reference : Str) (containers : List Container) (t : ResourceType) :
    Expected (view reference containers t) := by
  cases t with
  | other name => exact expected_error rfl
  | project => exact expected_ok _
  | service => exact expected_ok _
  | container => exact expected_ok _

theorem expected_queryDocument (reference : Str) (q : DriverResourceQuery) (document : Json) :
    Expected (queryDocument reference q document) := by
  have hentry (item : Json) : Expected (entryContainer item) :=
    expected_bind (expected_require _ _) expected_containerFromList
  have hinventory : Expected (inventory document) := by
    apply expected_bind (expected_require _ _)
    intro items
    apply expected_bind (expected_require _ _)
    intro u
    exact expected_mapM hentry items
  apply expected_bind hinventory
  intro containers
  apply expected_bind (expected_view _ _ _)
  intro resources
  apply expected_ok

omit [Python] in
theorem expected_healthOf (value : Json) : Expected (healthOf value) := by
  unfold healthOf
  split
  · apply expected_boundedOptional
  · apply expected_ok

omit [Python] in
theorem expected_lifecycleTimestamp (value : Json) : Expected (lifecycleTimestamp value) := by
  apply expected_bind (expected_boundedOptional _ _ _)
  intro timestamp
  apply expected_ok

theorem expected_describeDocument (reference : Str) (address : DockerAddress) (document : Json) :
    Expected (describeDocument reference address document) := by
  apply expected_bind (expected_checkedInspect address document)
  intro checked
  apply expected_bind (expected_healthOf _)
  intro health
  apply expected_bind (expected_boundedOptional _ _ _)
  intro createdAt
  apply expected_bind (expected_lifecycleTimestamp _)
  intro startedAt
  apply expected_bind (expected_lifecycleTimestamp _)
  intro finishedAt
  apply expected_ok

theorem expected_statsDocument (uri : Str) (document : Json) :
    Expected (statsDocument uri document) := by
  apply expected_bind (expected_require _ _)
  intro object
  apply expected_bind (expected_boundedOptional _ _ _)
  intro readAt
  apply expected_ok

omit [Python] in
theorem expected_readFrames (payload : List UInt8) : Expected (readFrames payload) := by
  fun_induction readFrames payload with
  | case1 => exact expected_ok _
  | case2 => exact expected_error rfl
  | case3 => exact expected_error rfl
  | case4 => exact expected_ok _
  | case5 => exact expected_error rfl
  | case6 _ _ _ _ _ _ _ _ _ _ _ _ _ _ _ ih => exact expected_map ih _
  | case7 => exact expected_ok _

theorem expected_logResult (tail : Nat) (multiplexed : Bool) (response : List UInt8 × Bool) :
    Expected (logResult tail multiplexed response) := by
  have hframes : Expected (decodeLogs response.1 multiplexed) := by
    apply expected_map
    split
    · apply expected_readFrames
    · apply expected_ok
  apply expected_bind hframes
  intro decoded
  apply expected_ok

end Readers

section Replies

theorem expected_readChunks (maximumBytes : Nat) (truncate complete : Bool) (size : Nat)
    (read : List UInt8) (chunks : List (List UInt8)) :
    Expected (readChunks maximumBytes truncate complete size read chunks) := by
  induction chunks generalizing size read with
  | nil =>
    unfold readChunks
    split
    · exact expected_ok _
    · exact expected_error rfl
  | cons chunk rest ih =>
    unfold readChunks
    dsimp only
    split
    · split
      · exact expected_ok _
      · exact expected_error rfl
    · exact ih _ _

theorem expected_readReply (maximumBytes : Nat) (truncate : Bool) (reply : Reply) :
    Expected (readReply maximumBytes truncate reply) := by
  cases reply with
  | requestError => exact expected_error rfl
  | response status chunks complete =>
    simp only [readReply]
    split
    · exact expected_error rfl
    · split
      · exact expected_error rfl
      · split
        · exact expected_error rfl
        · apply expected_readChunks

end Replies

/-! ## The bodies of replies -/

/-- What the body of a reply is read as. -/
inductive Reading where
  | json
  | log
  | archive

/-- A request for a log has a tail, and one for an archive has a path. -/
def readingOf (q : Request) : Reading :=
  if q.params.any fun p => p.1 = lit "tail" then .log
  else if q.params.any fun p => p.1 = lit "path" then .archive
  else .json

/-- Of the bytes that are read of a reply, a parser raises nothing but the exception that is caught. -/
def Digests (maximumBytes : Nat) (parser : List UInt8 → Parsed β) (reply : Reply) : Prop :=
  ∀ response name, readReply maximumBytes false reply = .ok response → parser response.1 ≠ .raised name

theorem digests_of_error {maximumBytes : Nat} {parser : List UInt8 → Parsed β} {reply : Reply} {e : Exn}
    (h : readReply maximumBytes false reply = .error e) : Digests maximumBytes parser reply := by
  intro response name hread
  cases h.symm.trans hread

theorem digests_iff {maximumBytes : Nat} {parser : List UInt8 → Parsed β} {reply : Reply}
    {response : List UInt8 × Bool} (h : readReply maximumBytes false reply = .ok response) :
    Digests maximumBytes parser reply ↔ ∀ name, parser response.1 ≠ .raised name := by
  constructor
  · intro hdigests name
    exact hdigests response name h
  · intro hparser response' name hread
    obtain rfl := Except.ok.inj (h.symm.trans hread)
    exact hparser name

/-- The bodies of JSON replies and of archives are given to a parser. -/
def Parses [Python] [Loads] (x : Exchange http) : Prop :=
  match readingOf x.1 with
  | .log => True
  | .archive => Digests maxRevisionArchiveBytes Python.firstFile x.2
  | .json => Digests maxInventoryBytes Loads.loads x.2

theorem not_expected_exception (name : Str) : ¬ Expected (.error (.exception name) : Except Exn α) := by
  intro h
  cases h _ rfl

theorem expected_decodeJson_iff [Loads] (payload : List UInt8) :
    Expected (decodeJson payload) ↔ ∀ name, Loads.loads payload ≠ .raised name := by
  unfold decodeJson
  cases Loads.loads payload with
  | value document => exact iff_of_true (expected_ok document) nofun
  | refused => exact iff_of_true (expected_error rfl) nofun
  | raised name => exact iff_of_false (not_expected_exception name) fun h => h name rfl

theorem expected_revisionFromArchive_iff [Python] (payload : List UInt8) :
    Expected (revisionFromArchive payload) ↔ ∀ name, Python.firstFile payload ≠ .raised name := by
  unfold revisionFromArchive
  cases Python.firstFile payload with
  | value file => cases file <;> exact iff_of_true (expected_ok _) nofun
  | refused => exact iff_of_true (expected_error rfl) nofun
  | raised name => exact iff_of_false (not_expected_exception name) fun h => h name rfl

/-- There is nothing that the parsers raise besides. -/
structure Tame [Python] [Loads] : Prop where
  loads : ∀ body name, Loads.loads body ≠ .raised name
  firstFile : ∀ body name, Python.firstFile body ≠ .raised name

theorem tame_known (texts : List (List UInt8 × Json)) : @Tame Python.ascii (Loads.known texts) := by
  refine @Tame.mk Python.ascii (Loads.known texts) (Loads.known_ne_raised texts) ?_
  intro body name h
  cases h

theorem parses_of_tame [Python] [Loads] (h : Tame) (x : Exchange http) : Parses x := by
  unfold Parses
  split
  · trivial
  · exact fun response name _ => h.firstFile response.1 name
  · exact fun response name _ => h.loads response.1 name

/-! ## The operations -/

section Operations

variable [Python] [Loads]

/-- A program raises nothing but `DriverError`s, exactly where every body parses. -/
def Safe (p : Prog http Exn α) : Prop := ∀ t x, p.Exec t x → (Expected x ↔ ∀ y ∈ t, Parses y)

theorem safe_pure (a : α) : Safe (pure a) := by
  rintro t x ⟨rfl, rfl⟩
  exact iff_of_true (expected_ok a) (by simp)

theorem safe_ofExcept {x : Except Exn α} (h : Expected x) : Safe (Prog.ofExcept x) := by
  intro t y hexec
  obtain ⟨rfl, rfl⟩ := (Prog.exec_ofExcept _ _ _).mp hexec
  exact iff_of_true h (by simp)

theorem safe_throw {e : Exn} (h : e.isDriverError = true) : Safe (throw e : Prog http Exn α) :=
  safe_ofExcept (expected_error h)

/-- What a sequence raises is raised by its first part, or by the rest. -/
theorem safe_bind {p : Prog http Exn α} {f : α → Prog http Exn β} (hp : Safe p) (hf : ∀ a, Safe (f a)) :
    Safe (p >>= f) := by
  intro t y h
  obtain ⟨t₁, t₂, x, rfl, hfirst, hrest⟩ := Prog.exec_bind_outcome h
  rw [List.forall_mem_append, ← hp t₁ x hfirst]
  cases x with
  | ok a =>
    rw [← hf a t₂ y hrest]
    exact (and_iff_right (expected_ok a)).symm
  | error e =>
    obtain ⟨rfl, rfl⟩ := hrest
    constructor
    · intro he
      exact ⟨expected_error (he e rfl), by simp⟩
    · intro he
      exact expected_error (he.1 e rfl)

theorem safe_getJson {path : Str} {params : List (Str × Str)} (hjson : readingOf ⟨path, params⟩ = .json) :
    Safe (getJson path params) := by
  intro t x h
  obtain ⟨reply, rfl, rfl⟩ := exec_getJson.mp h
  rw [List.forall_mem_singleton, Parses, hjson]
  cases hread : readReply maxInventoryBytes false reply with
  | error e =>
    have hjson : readJson reply = .error e := by rw [readJson, hread]; rfl
    rw [hjson]
    exact iff_of_true (expected_error (expected_readReply _ _ _ e hread)) (digests_of_error hread)
  | ok response =>
    have hjson : readJson reply = decodeJson response.1 := by rw [readJson, hread]; rfl
    rw [hjson]
    exact (expected_decodeJson_iff _).trans (digests_iff hread).symm

variable (reference : Str)

theorem safe_query (q : DriverResourceQuery) : Safe (query reference q) := by
  apply safe_bind (safe_getJson (by simp [readingOf]))
  intro document
  exact safe_ofExcept (expected_queryDocument _ _ _)

theorem safe_describe (uri : Str) : Safe (describe reference uri) := by
  apply safe_bind (safe_ofExcept (expected_ownAddress _ _))
  intro address
  split
  · apply safe_bind (safe_query reference _)
    intro resources
    split
    · apply safe_pure
    · exact safe_throw rfl
  · apply safe_bind (safe_getJson (by simp [readingOf]))
    intro document
    exact safe_ofExcept (expected_describeDocument _ _ _)

theorem safe_inspectAddressed (uri : Str) (message : String) {check : Except Exn Unit}
    (hcheck : Expected check) : Safe (inspectAddressed reference uri message check) := by
  apply safe_bind (safe_ofExcept (expected_ownAddress _ _))
  intro address
  apply safe_bind
  · apply safe_ofExcept
    unfold requireContainer
    split
    · exact expected_ok _
    · exact expected_error rfl
  intro container
  apply safe_bind (safe_ofExcept hcheck)
  intro u
  apply safe_bind (safe_getJson (by simp [readingOf]))
  intro document
  apply safe_bind (safe_ofExcept (expected_checkedInspect _ _))
  intro checked
  apply safe_pure

theorem safe_logs (uri : Str) (tail : Int) : Safe (logs reference uri tail) := by
  apply safe_bind
  · apply safe_inspectAddressed
    unfold checkTail
    split
    · exact expected_error rfl
    · exact expected_ok ()
  rintro ⟨container, inspect⟩
  apply safe_bind
  · intro t x h
    obtain ⟨reply, rfl, rfl⟩ := exec_readResponse.mp h
    refine iff_of_true (expected_readReply _ _ _) ?_
    simp [Parses, readingOf, logParams]
  · intro response
    exact safe_ofExcept (expected_logResult _ _ _)

theorem safe_stats (uri : Str) : Safe (stats reference uri) := by
  apply safe_bind (safe_inspectAddressed _ _ _ (expected_ok ()))
  rintro ⟨container, inspect⟩
  apply safe_bind (safe_getJson (by simp [readingOf]))
  intro document
  exact safe_ofExcept (expected_statsDocument _ _)

theorem safe_revision (uri : Str) : Safe (revision reference uri) := by
  apply safe_bind (safe_inspectAddressed _ _ _ (expected_ok ()))
  rintro ⟨container, inspect⟩ t x h
  obtain ⟨t₁, t₂, archive, rfl, hread, hend⟩ := Prog.exec_attempt_bind.mp h
  obtain ⟨reply, rfl, rfl⟩ := exec_readResponse.mp hread
  have harchive : readingOf ⟨containerPath container "/archive", [(lit "path", lit "/GIT_REVISION")]⟩ =
      .archive := by simp [readingOf]
  cases hread : readReply maxRevisionArchiveBytes false reply with
  | error e =>
    have hout : t₂ = [] ∧ Expected x := by
      rw [hread] at hend
      dsimp only at hend
      split at hend
      · obtain ⟨rfl, rfl⟩ := hend
        exact ⟨rfl, expected_ok none⟩
      · obtain ⟨rfl, rfl⟩ := hend
        exact ⟨rfl, expected_error (expected_readReply _ _ _ e hread)⟩
    rw [hout.1, List.append_nil, List.forall_mem_singleton, Parses, harchive]
    exact iff_of_true hout.2 (digests_of_error hread)
  | ok response =>
    rw [hread] at hend
    obtain ⟨rfl, rfl⟩ := (Prog.exec_ofExcept _ _ _).mp hend
    rw [List.append_nil, List.forall_mem_singleton, Parses, harchive]
    exact (expected_revisionFromArchive_iff _).trans (digests_iff hread).symm

end Operations

end MiraDriver.Failures
