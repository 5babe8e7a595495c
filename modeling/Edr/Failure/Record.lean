import Edr.Failure.Payload

/-!
# Recording a failure

The key of the object depends on the place of the message and on the worker, and its content on the
failure code as well. What an attempt leaves of a failure, wherever it was stopped, is described by
`Traces`: an object and rows that are about one payload.
-/

namespace Edr.FailureSink

open List Option Function Text

open Process

variable {F : Type} {py : Interpreter F} {m : ConsumedMessage Bytes} {failure : FailureRecord}
  {v : Json F} {payload : Bytes} {w : World} {failureId : UUID}

/-- The id of a failure. -/
abbrev idOf (py : Interpreter F) (m : ConsumedMessage Bytes) (failure : FailureRecord) : UUID :=
  failureIdFor py m failure.consumerName failure.failureStage

/-! ## Calls -/

section

variable {α : Type} {Q : Post World SinkError α} {key : String} {o : StoredObject}

theorem meets_service {f : World → Except SinkError α × World} (hstopped : Q.stopped w)
    (hok : Q.admits (f w)) (hfailed : ∀ error, Q.raised error w)
    (hdone : ∀ error, Q.raised error (f w).2) : (service f).Meets Q w := by
  refine .call hstopped fun reply => ?_
  rcases reply with _ | ⟨error, _ | _⟩
  · exact hok
  · exact hfailed _
  · exact hdone _

theorem meets_query {f : World → Except SinkError α} (hstopped : Q.stopped w)
    (hraised : ∀ error, Q.raised error w) (hreturned : ∀ a, f w = .ok a → Q.returned a w) :
    (query f).Meets Q w := by
  refine meets_service hstopped ?_ hraised hraised
  rcases hf : f w with error | a
  · exact hraised error
  · exact hreturned a hf

theorem meets_ofExcept {r : Except PyError α} (hraised : ∀ error, Q.raised error w)
    (hreturned : ∀ a, r = .ok a → Q.returned a w) : (ofExcept r).Meets Q w := by
  rcases r with error | a
  · exact .raise (hraised _)
  · exact .pure (hreturned a rfl)

theorem yields_query {f : World → Except SinkError α} {a : α} (h : f w = .ok a) :
    (query f).Yields .ok 1 w (.returned a) w :=
  .call_ok (by simp [h])

theorem yields_insert {row : FailureRow} :
    (insert row).Yields .ok 1 w (.returned ()) (w.insert row) :=
  .call_ok rfl

theorem yields_headObject (h : w.objects key = some o) :
    (headObject key).Yields .ok 1 w (.returned ⟨o.sha256, o.body.length⟩) w :=
  yields_query (by rw [h])

theorem yields_getObject (h : w.objects key = some o) :
    (getObject key).Yields .ok 1 w (.returned o.body) w :=
  yields_query (by rw [h])

end

/-! ## Rows -/

theorem exists_foldl_newer (rows : List FailureRow) (current : FailureRow) :
    ∃ row ∈ current :: rows, rows.foldl World.newer (some current) = some row := by
  induction rows generalizing current with
  | nil => exact ⟨current, mem_cons_self, rfl⟩
  | cons row rows ih =>
    obtain ⟨latest, hmem, hlatest⟩ :=
      ih (if row.updatedAt < current.updatedAt then current else row)
    refine ⟨latest, ?_, hlatest⟩
    split_ifs at hmem
    · exact cons_subset_cons _ (subset_cons_self _ _) hmem
    · exact mem_cons_of_mem _ hmem

theorem exists_latest (h : w.rowsOf failureId ≠ []) :
    ∃ row ∈ w.rowsOf failureId, w.latest failureId = some row := by
  rw [World.latest]
  rcases hrows : w.rowsOf failureId with _ | ⟨row, rows⟩
  · exact absurd hrows h
  · exact exists_foldl_newer rows row

theorem mem_of_latest {row : FailureRow} (h : w.latest failureId = some row) :
    row ∈ w.rowsOf failureId := by
  have hne : w.rowsOf failureId ≠ [] := by
    intro hnil
    rw [World.latest, hnil] at h
    cases h
  obtain ⟨row', hmem, hrow'⟩ := exists_latest hne
  rwa [Option.some.inj (h.symm.trans hrow')]

/-! ## What an attempt leaves -/

/-- What there is of the failure is about the payload, and there is no row without the object. -/
structure Traces (py : Interpreter F) (failureId : UUID) (payload : Bytes) (w : World) : Prop where
  object : ∀ o, w.objects (objectKey failureId) = some o → o = ⟨payload, some (py.sha256 payload)⟩
  row : ∀ row ∈ w.rowsOf failureId, row.status = .failed ∧
    row.payloadObjectKey = objectKey failureId ∧ row.payloadSha256 = py.sha256 payload ∧
    row.payloadSizeBytes = payload.length
  object_of_row : w.rowsOf failureId ≠ [] → w.objects (objectKey failureId) ≠ none

/-- There is nothing of the failure. -/
structure Untouched (failureId : UUID) (w : World) : Prop where
  object : w.objects (objectKey failureId) = none
  row : w.rowsOf failureId = []

theorem Untouched.traces (h : Untouched failureId w) (payload : Bytes) :
    Traces py failureId payload w where
  object := by
    rw [h.object]
    exact fun _ ho => by cases ho
  row := by
    rw [h.row]
    exact fun _ hr => absurd hr not_mem_nil
  object_of_row hrow := absurd h.row hrow

/-- The object of the failure is there, with this payload. -/
def HasObject (py : Interpreter F) (failureId : UUID) (payload : Bytes) (w : World) : Prop :=
  w.objects (objectKey failureId) = some ⟨payload, some (py.sha256 payload)⟩

def withObject (py : Interpreter F) (failureId : UUID) (payload : Bytes) (w : World) : World :=
  w.putObject (objectKey failureId) ⟨payload, some (py.sha256 payload)⟩

theorem hasObject_withObject :
    HasObject py failureId payload (withObject py failureId payload w) := by
  rw [HasObject, withObject, World.putObject_objects, update_self]

namespace Traces

theorem withObject (h : Traces py failureId payload w) :
    Traces py failureId payload (withObject py failureId payload w) where
  object o ho := by
    rw [hasObject_withObject] at ho
    exact (Option.some.inj ho).symm
  row := h.row
  object_of_row _ := by
    rw [hasObject_withObject]
    exact some_ne_none _

theorem insert {n : Option UInt64} (h : Traces py (idOf py m failure) payload w)
    (hobject : HasObject py (idOf py m failure) payload w) :
    Traces py (idOf py m failure) payload (w.insert (failureRow py m failure v n payload)) where
  object := h.object
  row row hrow := by
    have hrows := w.rowsOf_insert (failureRow py m failure v n payload)
    rw [failureRow] at hrows
    rw [failureRow, hrows, mem_append, mem_singleton] at hrow
    rcases hrow with hrow | rfl
    · exact h.row row hrow
    · exact ⟨rfl, rfl, rfl, rfl⟩
  object_of_row _ := by
    rw [World.insert_objects, hobject]
    exact some_ne_none _

end Traces

/-! ## Attempts that may be stopped -/

/-- What `putIdempotent` comes to, wherever it ends. -/
def putPost (py : Interpreter F) (failureId : UUID) (payload : Bytes) : Post World SinkError Unit :=
  ⟨fun _ w => Traces py failureId payload w ∧ HasObject py failureId payload w,
    fun _ => Traces py failureId payload, Traces py failureId payload⟩

theorem meets_putNew (h : Traces py failureId payload w) :
    (putNew (objectKey failureId) payload (py.sha256 payload)).Meets
      (putPost py failureId payload) w := by
  refine .bind (meets_service h ?_ (fun _ => h) fun _ => h.withObject)
  refine .bind (meets_query h.withObject (fun _ => h.withObject) fun head _ => ?_)
  -- the object is there, whatever its head says
  exact .ite (fun _ => .pure ⟨h.withObject, hasObject_withObject⟩)
    fun _ => .raise h.withObject

theorem meets_compareExisting (h : Traces py failureId payload w)
    (hobject : HasObject py failureId payload w) (current : ObjectHead) :
    (compareExisting py (objectKey failureId) payload (py.sha256 payload) current).Meets
      (putPost py failureId payload) w := by
  refine .ite (fun _ => .pure ⟨h, hobject⟩) fun _ => ?_
  refine .bind (meets_query h (fun _ => h) fun existing _ => ?_)
  exact .ite (fun _ => .pure ⟨h, hobject⟩) fun _ => .raise h

theorem meets_putIdempotent (h : Traces py failureId payload w) :
    (putIdempotent py (objectKey failureId) payload (py.sha256 payload)).Meets
      (putPost py failureId payload) w := by
  refine .bind (.handle (.map (meets_query h (fun error => ?_) fun head hhead => ?_)))
  · -- an error that does not say that the object is missing is raised again
    exact .ite (fun _ => .pure (meets_putNew h)) fun _ => .raise h
  · rcases ho : w.objects (objectKey failureId) with _ | o
    · rw [ho] at hhead
      cases hhead
    · exact meets_compareExisting h (ho.trans (congrArg some (h.object o ho))) head

theorem meets_record (h : Traces py (idOf py m failure) payload w)
    (hv : failureMessage py m.value = .ok v)
    (hpayload : deterministicFailurePayload py (envelope m failure v) = .ok payload) :
    let Q := Traces py (idOf py m failure) payload
    (record py m failure).Meets ⟨fun _ => Q, fun _ => Q, Q⟩ w := by
  refine .bind (meets_ofExcept (fun _ => h) fun v' hv' => ?_)
  obtain rfl := Except.ok.inj (hv.symm.trans hv')
  refine .bind (meets_ofExcept (fun _ => h) fun payload' hpayload' => ?_)
  obtain rfl := Except.ok.inj (hpayload.symm.trans hpayload')
  refine (meets_putIdempotent h).seq ?_
  rintro - w' ⟨htraces, hobject⟩
  refine .bind (meets_ofExcept (fun _ => htraces) fun n _ => ?_)
  have hinserted := htraces.insert (v := v) (n := n) hobject
  refine .bind (meets_service htraces ?_ (fun _ => htraces) fun _ => hinserted)
  refine .bind (meets_query hinserted (fun _ => hinserted) fun status _ => ?_)
  exact .ite (fun _ => .pure hinserted) fun _ => .raise hinserted

theorem meets_record_recordable (hm : InRange m) :
    (record py m failure).Meets ⟨fun _ _ => Recordable py m.value, fun _ _ => True, fun _ => True⟩
      w := by
  refine .bind (meets_ofExcept (fun _ => trivial) fun v hv => ?_)
  refine .bind (meets_ofExcept (fun _ => trivial) fun payload hpayload => ?_)
  refine .bind (.of_forall (fun _ w' => ?_) (fun _ _ => trivial) fun _ => trivial)
  refine .bind (meets_ofExcept (fun _ => trivial) fun n hn => ?_)
  have hrecordable := (recordable_iff failure hm).2 ⟨v, payload, n, hv, hpayload, hn⟩
  exact .of_forall (fun _ _ => hrecordable) (fun _ _ => trivial) fun _ => trivial

theorem recordable_of_record (hm : InRange m) {script rest : List Reply} {stored : StoredFailure}
    {w' : World} (h : record py m failure script w = (.returned stored, rest, w')) :
    Recordable py m.value := by
  have hmeets : Post.holds _ (record py m failure script w) := meets_record_recordable hm script
  rw [h] at hmeets
  exact hmeets

/-! ## Attempts that are answered

The services work: each call is answered, and carried out once. -/

theorem yields_ofExcept {α : Type} {r : Except PyError α} {a : α} (h : r = .ok a) :
    (ofExcept r).Yields .ok 0 w (.returned a) w := by
  rw [h]
  exact .pure

theorem yields_putNew :
    (putNew (objectKey failureId) payload (py.sha256 payload)).Yields .ok 2 w (.returned ())
      (withObject py failureId payload w) := by
  refine .bind (n := 1) (k := 1) (a := ()) (.call_ok rfl) ?_
  refine .bind (n := 1) (k := 0) (yields_headObject hasObject_withObject) ?_
  rw [if_pos rfl]
  exact .pure

theorem yields_putIdempotent (h : Traces py failureId payload w) :
    (putIdempotent py (objectKey failureId) payload (py.sha256 payload)).Yields .ok 3 w
      (.returned ()) (withObject py failureId payload w) := by
  rcases ho : w.objects (objectKey failureId) with _ | o
  · have hhead : (headObject (objectKey failureId)).Yields .ok 1 w
        (.raised (.client ⟨some 404, some "404"⟩)) w := .call_error (by simp [ho])
    refine Yields.bind (n := 1) (k := 2) (a := none) (t := w)
      (Yields.handle_raised (k := 0) (Yields.map_raised some hhead) ?_) ?_
    · rw [if_pos (by decide)]
      exact Yields.pure
    · exact yields_putNew
  · have hobject : HasObject py failureId payload w := ho.trans (congrArg some (h.object o ho))
    rw [withObject, World.putObject, ← hobject, update_eq_self]
    have hhead := Yields.map some (yields_headObject hobject)
    refine (Yields.bind (k := 0) (Yields.handle_returned hhead) ?_).mono (by decide)
    change (compareExisting _ _ _ _ _).Yields _ _ _ _ _
    rw [compareExisting, if_pos ⟨rfl, rfl⟩]
    exact Yields.pure

theorem yields_putIdempotent_collision {payload' : Bytes} (h : HasObject py failureId payload' w)
    (hsha : py.sha256 payload' ≠ py.sha256 payload) :
    (putIdempotent py (objectKey failureId) payload (py.sha256 payload)).Yields .ok 2 w
      (.raised (.runtimeError "failure payload checksum collision")) w := by
  have hhead := Yields.map some (yields_headObject h)
  refine Yields.bind (n := 1) (k := 1) (Yields.handle_returned hhead) ?_
  change (compareExisting _ _ _ _ _).Yields _ _ _ _ _
  rw [compareExisting, if_neg fun heq => hsha (Option.some.inj heq.1)]
  refine Yields.bind (k := 0) (yields_getObject h) ?_
  rw [if_neg fun heq => hsha heq.1]
  exact Yields.raise

/-- The services after an attempt that was answered throughout. -/
def recorded (py : Interpreter F) (m : ConsumedMessage Bytes) (failure : FailureRecord) (v : Json F)
    (n : Option UInt64) (payload : Bytes) (w : World) : World :=
  (withObject py (idOf py m failure) payload w).insert (failureRow py m failure v n payload)

section

variable {n : Option UInt64}

theorem hasObject_recorded :
    HasObject py (idOf py m failure) payload (recorded py m failure v n payload w) :=
  hasObject_withObject

theorem Traces.recorded (h : Traces py (idOf py m failure) payload w) :
    Traces py (idOf py m failure) payload (recorded py m failure v n payload w) :=
  h.withObject.insert hasObject_withObject

theorem exists_latest_recorded (py : Interpreter F) (m : ConsumedMessage Bytes)
    (failure : FailureRecord) (v : Json F) (n : Option UInt64) (payload : Bytes) (w : World) :
    ∃ row, (recorded py m failure v n payload w).latest (idOf py m failure) = some row := by
  have hne : (recorded py m failure v n payload w).rowsOf
      (failureRow py m failure v n payload).failureId ≠ [] := by
    rw [recorded, World.rowsOf_insert]
    exact append_ne_nil_of_right_ne_nil _ (cons_ne_nil _ _)
  obtain ⟨row, -, hrow⟩ := exists_latest hne
  exact ⟨row, hrow⟩

theorem record_yields (h : Traces py (idOf py m failure) payload w)
    (hv : failureMessage py m.value = .ok v)
    (hpayload : deterministicFailurePayload py (envelope m failure v) = .ok payload)
    (hn : endpointColumn py v = .ok n) :
    (record py m failure).Yields .ok 5 w (.returned ⟨idOf py m failure,
        objectKey (idOf py m failure), py.sha256 payload, payload.length⟩)
      (recorded py m failure v n payload w) := by
  refine .bind (k := 5) (yields_ofExcept hv) ?_
  refine .bind (k := 5) (yields_ofExcept hpayload) ?_
  refine .bind (k := 2) (yields_putIdempotent h) ?_
  refine .bind (k := 2) (yields_ofExcept hn) ?_
  refine .bind (k := 1) yields_insert ?_
  refine .bind (k := 0) (yields_query rfl) ?_
  obtain ⟨row, hrow⟩ := exists_latest_recorded py m failure v n payload w
  have hstatus := (h.recorded.row row (mem_of_latest hrow)).1
  rw [if_pos]
  · exact .pure
  · change Option.map _ ((recorded py m failure v n payload w).latest _) = _
    rw [hrow, map_some, hstatus]

end

theorem record_yields_collision {payload' : Bytes}
    (h : HasObject py (idOf py m failure) payload' w)
    (hsha : py.sha256 payload' ≠ py.sha256 payload) (hv : failureMessage py m.value = .ok v)
    (hpayload : deterministicFailurePayload py (envelope m failure v) = .ok payload) :
    (record py m failure).Yields .ok 2 w
      (.raised (.runtimeError "failure payload checksum collision")) w := by
  refine .bind (k := 2) (yields_ofExcept hv) ?_
  refine .bind (k := 2) (yields_ofExcept hpayload) ?_
  exact .bind_raised (yields_putIdempotent_collision h hsha)

theorem loadVerified_yields {row : FailureRow} {now : Time} {e : Json F}
    (h : Traces py failureId payload w) (hobject : HasObject py failureId payload w)
    (hrow : w.latest failureId = some row) (hretryable : row.retryable)
    (hexpires : now < row.retentionExpiresAt) (he : decodePayload py payload = .ok e) :
    (loadVerified py row now).Yields .ok 1 w (.returned e) w := by
  obtain ⟨-, hkey, hsha, hsize⟩ := h.row row (mem_of_latest hrow)
  rw [loadVerified, if_neg (by rw [hretryable]; exact Bool.noConfusion),
    if_neg (not_le.2 hexpires), hkey]
  refine .bind (k := 0) (yields_getObject hobject) ?_
  rw [if_neg (not_not.2 hsize.symm), if_neg (not_not.2 hsha.symm)]
  exact yields_ofExcept he

/-! ## A message that is given up -/

/-- Floats as they are written. -/
abbrev WrittenFloat := { token : NumberToken // token.isFloat }

/-- A float is read as its text. -/
def writtenFloats : Floats WrittenFloat where
  ofToken token := if h : token.isFloat then .finite ⟨token, h⟩ else .nan
  repr := Subtype.val
  isFloat_repr := Subtype.property
  ofToken_repr x := dif_pos x.2

/-- `repr` of a text without quotes, backslashes and characters that cannot be printed. -/
def reprText (text : Text) : Text := ofString "'" ++ text ++ ofString "'"

mutual

/-- `repr` of a value, with such texts. -/
def reprOf : Json WrittenFloat → Text
  | .null => ofString "None"
  | .bool b => ofString (if b then "True" else "False")
  | .int n => Json.printInt n
  | .float .nan => ofString "nan"
  | .float (.infinity negative) => ofString (if negative then "-inf" else "inf")
  | .float (.finite x) => x.1.print
  | .string text => reprText text
  | .array items => ofString "[" ++ (reprItems items).drop 2 ++ ofString "]"
  | .object members => ofString "\x7b" ++ (reprMembers members).drop 2 ++ ofString "\x7d"

/-- The items of a list, each after a comma. -/
def reprItems : List (Json WrittenFloat) → Text
  | [] => []
  | v :: items => ofString ", " ++ reprOf v ++ reprItems items

/-- The members of a dictionary, each after a comma. -/
def reprMembers : List (Text × Json WrittenFloat) → Text
  | [] => []
  | (key, v) :: members =>
    ofString ", " ++ reprText key ++ ofString ": " ++ reprOf v ++ reprMembers members

end

def sampleMessage (value : Bytes) : ConsumedMessage Bytes :=
  .ofSlot ⟨⟨"telemetry.raw", 0⟩, 7⟩ value

def sampleFailure (failureCode : Option String) : FailureRecord where
  consumerName := "event-storage-worker"
  failureStage := "EVENT_STORAGE"
  failureCode := failureCode
  errorMessage := "Kafka message payload is invalid"
  retryable := failureCode != some "INVALID_MESSAGE"
  retryCount := 0
  failedAt := 0

/-- The event of a process, as the collector writes it. -/
def sampleRaw {F : Type} (agentId : Json F) : Json F :=
  .object [(ofString "agentId", agentId),
    (ofString "batchId", .ofString "3f2c1b0a-9d8e-4c7b-a655-443322110099"),
    (ofString "endpointId", .int 7),
    (ofString "event", .object [
      (ofString "eventId", .ofString "0d9a4e5c-7b1f-4c3a-9e21-5f0a6b7c8d9e"),
      (ofString "eventType", .ofString "PROCESS_EXECUTION"),
      (ofString "occurredAt", .ofString "2026-07-01T09:00:00Z"),
      (ofString "payload", .object [(ofString "commandLine", .ofString "sshd -D"),
        (ofString "pid", .int 812), (ofString "processName", .ofString "sshd")])]),
    (ofString "hostname", .ofString "web-1"), (ofString "ipAddress", .null),
    (ofString "osType", .ofString "LINUX"), (ofString "schemaVersion", .int 1)]

/-- Nothing is stored yet. -/
def emptyWorld : World := ⟨fun _ => none, []⟩

def asciiBytes (text : String) : Bytes := text.toList.map fun c => .ofNat c.toNat

/-- The canonical text of the envelope of the event. -/
def sampleEnvelope (failureCode : Option String) (agentId : Json WrittenFloat) : Bytes :=
  let v := envelope (sampleMessage []) (sampleFailure failureCode) (sampleRaw agentId)
  (v.canonicalJson writtenFloats ⟨1000, 4300⟩).getD []

/-- The bytes that are written after a leading one. -/
def hexBytes (n : Nat) : Bytes := ((range (n.log2 / 8)).map fun i => .ofNat (n >>> (8 * i))).reverse

/-- The envelopes of the samples, what `gzip.compress` makes of them, and the SHA-256 of that. -/
def compressed : List (Bytes × Bytes × String) :=
  [(sampleEnvelope none (.ofString "agent-1"), [
        0x11f8b08000000000002033d90516bc2301485ffcac8b319495badf54d5c1982a86815d98ba4c9ed5ad626,
        0x125492722fef7dd561d147a39e7dc2f977323d268d73560d7a2013223f00bda53e78d15df402fc6fe8025,
        0x1235288aaee2c2c8cc290eeeafa5fda7b0ce2627a4cd7d9799f6d76f3cf14371a706e706e047fda2f1586,
        0x1868972b473e16539686111489e33411335051ac938a762321ed3280ac320e09cb124c105d0aa35d58313,
        0x18f1e77f6f06118404c252282b1a471ce0b0485888480d371c1c4248fe55425409e9bd9b5ed8fdeee368b,
        0x174bf3fa7a77471c8969b35fa46cace5a5073c493800513ca62ca78c6921963f87d61a615d7da08d5bf2f,
        0x14dd308ad5695ee81ce95ea8d7ef4910aed290f70b2466219cf82fb04b9df47a434ceeb8776817c28a56a,
        0x1e74a59ccbe3a36ee79e86ab93e9c30e164098d38827595d164c691e34c67256c8ac2811faa79085b617d,
        0x1e587147b6999692b89340f3534e0edf5dd8a0bb9ff0128857c9605020000
      ].flatMap hexBytes, "7430bcb20931b53cee306285dadf5277c6503afa863a31d157e793b5e79ae7ae"),
    (sampleEnvelope (some "EVENT_INGEST_LOCK_TIMEOUT") (.ofString "agent-1"), [
        0x11f8b08000000000002034590dd6ae33010465f65d1755424e7c771ee426a8a69d62eb5524a6f822c8d1b,
        0x1535b3292bc2194bcfb8e9d74170c1ee63b7334cc3751d6f8a10397cb0ec886c01f3081fa609dfc047ab6,
        0x1ee0b1c99915a36ede06067f508a56f692e8e59fe9496e2b82f76cf4791fd4e8b83f84f9601e7ffa1a528,
        0x15eb74f29c61d783f25df047f26641aa1a9a21ce34a06759a7af33a52bc6292267a0d74a1e28acad57249,
        0x1178bf93c8a38672c4970008cee6d73f3c4b3dbfaa37c2a2611d3895cc052d1b8e2358ae6a88488d365cd,
        0x1e4aa8ad55a2740ee93e2d28f4bbfbc16bbb42c8fe97bba3b88acc831b74a0dce81dea29e442c5a511653,
        0x1c6054b368ce1f7814c2f2fad957a7c5fd9ae9346ef1b330abd3fe95ff471441a8cd73cc2ca5985c7b8df,
        0x17d24c8f53a2327eb83b9f5ce504d4769faadd60e59b23143dbe22efebee83ecb0fef487875824ebe81f3,
        0x18d3564c3d1e3ede0141475ed214ca7b9355ea40b4d9828f6d313b66f14da02b4d04170970727cfe4fa17,
        0x1ea20df261c020000
      ].flatMap hexBytes, "3b184ce0169424c9277b5c5b2f893030f13f1509a6b12b821a69dbc502bc9d39"),
    (sampleEnvelope none (.object [(ofString "b", .int 1), (ofString "a", .int 2)]), [
        0x11f8b08000000000002033d90616bc2301086ffcac86733925aadf59bb8320451d12ab22f9226d7b5ac4d,
        0x14a924e44fcefbbb63a085c78efbd87bbf74ea4d1aeadc16e440d644ee017b4a7ce1b2bbe815e8dfd014b,
        0x146241765d55a581a8526dd56d5bf74f068c4c1e4946cd2cb21ddee179f094ed4e05cdfb9132cdaaf54ff,
        0x125f360443232e70f2cc2cba2d3c9380f24cf98a0b19a010d659451319d4c68188ec741c03963718c4cd0,
        0x1aa31e5c08a46c3ae1db5fff420a66211c244d228e33982c6888480d349cec4348be44cc5409e93e9ade9,
        0x116dfedb7cbe470b824e764794c57db0df68d94adb5a0168827010ba6944594f194c573c6f07da1a711b7,
        0x1ca88fe2a69ea5a68b52e750774ae506ff4a3b394d89e71bcb8b1466220cf903b0779600285715e0fda15,
        0x132ca71a66c164a59f4be7236eeb9e87ab5399ed1e16401b5388175a5d14392ceb456c236cf1df83e9a41,
        0x1d809eb4bdfbbd84b4b4d534aa479a8a0066f6fef565cc9e30feeaba16209020000
      ].flatMap hexBytes, "bb733a5f6546619c62592b5b643ceca5ec05e4017d54041689076d857fdff464"),
    (asciiBytes (
        "\x7b\"consumerName\":\"dashboard-rollup-worker\",\"failureCode\":\"INVALID_MESSAGE\",\"f" ++
        "ailureStage\":\"DASHBOARD_ROLLUP\",\"message\":\x7b\"event\":\x7b\"endpoint_id\":7,\"occu" ++
        "rred_at\":\"yesterday\"\x7d,\"raw\":\x7b\"event\":\x7b\"payload\":\x7b\"pid\":812\x7d\x7d" ++
        "\x7d\x7d,\"sourceOffset\":7,\"sourcePartition\":0,\"sourceTopic\":\"telemetry.validated\"" ++
        "\x7d"), [
        0x11f8b0800000000000203558d414f83401085ffcb9ca9512f36dc509ada044b53d42b197706dd7461c8ec,
        0x16e1bd2f0df058c31cee9e5bdefcdbb8291cec796758f2d430a84feeb435069a5e25cec5717d1132b24d0,
        0x1a07551f94968e676fbf7acd8e5f5cba6aab2ede62faf027ece409e55cf8f6576cceb6359146f878968d9,
        0x1fb25bc029fb90b8be8a817db85da12a40f0988315195a9c62986817d60251c604c40f1f2afdae3e00469,
        0x191737b7d773f4e978097a886cba6f11c96a73fc60135d860a583f4f6d77b95de9a6928b0e396830e3767,
        0x174963030c1f80d8461d4641d010000
      ].flatMap hexBytes, "5faf0d848fee8b139478c9b468652e8fb00ae59452c00bcf06b935003dea6e86")]

/-- Compression by a table. Other bytes are told from those of the table by their first one. -/
def gzipBy (table : List (Bytes × Bytes × String)) (bytes : Bytes) : Bytes :=
  match table.find? (·.1 = bytes) with
  | some e => e.2.1
  | none => 0 :: bytes

/-- Decompression by the same table. -/
def gunzipBy (table : List (Bytes × Bytes × String)) (bytes : Bytes) : Option Bytes :=
  match table.find? (·.2.1 = bytes) with
  | some e => some e.1
  | none => some bytes.tail

theorem gunzipBy_gzipBy {table : List (Bytes × Bytes × String)} (hnodup : (table.map (·.2.1)).Nodup)
    (hheads : ∀ e ∈ table, e.2.1.head? ≠ some 0) (bytes : Bytes) :
    gunzipBy table (gzipBy table bytes) = some bytes := by
  rcases hfind : table.find? (·.1 = bytes) with _ | e
  · have hgzip : gzipBy table bytes = 0 :: bytes := by rw [gzipBy, hfind]
    have hnone : table.find? (·.2.1 = 0 :: bytes) = none := by
      refine find?_eq_none.2 fun e he heq => hheads e he ?_
      rw [of_decide_eq_true heq]
      rfl
    rw [hgzip, gunzipBy, hnone]
    rfl
  · have hgzip : gzipBy table bytes = e.2.1 := by rw [gzipBy, hfind]
    have hbytes : e.1 = bytes := by simpa using find?_some hfind
    have hback : table.find? (·.2.1 = e.2.1) = some e := by
      rcases hother : table.find? (·.2.1 = e.2.1) with _ | e'
      · exact absurd (find?_eq_none.1 hother e (mem_of_find?_eq_some hfind)) (by simp)
      · have hsame : e'.2.1 = e.2.1 := by simpa using find?_some hother
        exact hother.trans (congrArg some (inj_on_of_nodup_map hnodup
          (mem_of_find?_eq_some hother) (mem_of_find?_eq_some hfind) hsame))
    rw [hgzip, gunzipBy, hback]
    exact congrArg some hbytes

theorem nodup_compressed : (compressed.map (·.2.1)).Nodup := by decide +kernel

theorem head?_compressed : ∀ e ∈ compressed, e.2.1.head? ≠ some 0 := by decide +kernel

/-- The digests of the compressed envelopes, and of what identifies the event. -/
def digests : List (Bytes × String) :=
  (asciiBytes ("\x7b\"eventType\":\"PROCESS_EXECUTION\",\"occurredAt\":\"2026-07-01T09:00:00Z\"," ++
      "\"payload\":\x7b\"commandLine\":\"sshd -D\",\"pid\":812,\"processName\":\"sshd\"\x7d\x7d"),
    "8ae275a79eefd1ae60d4bf4c1ee436235b04bc9e5d868c7be044d753b21de8e6") ::
  compressed.map (·.2)

/-- The value of 32 digits, with hyphens anywhere. -/
def uuidOf (text : Text) : Option UUID :=
  let digits := text.filter (· ≠ CodePoint.ofChar '-')
  if digits.length = 32 then
    digits.foldlM (fun n c => do
      let digit ← (range 16).find? fun d => CodePoint.ofChar (Nat.digitChar d) = c
      return n * 16 + digit) 0
  else none

/-- CPython, on the messages here. -/
def cpython : Interpreter WrittenFloat where
  floats := writtenFloats
  limits := ⟨1000, 4300⟩
  isZero x := x.1.whole = [0] ∧ x.1.fraction.all (·.all (· = 0))
  truncate x := if x.1.negative then -ofDigits x.1.whole else ofDigits x.1.whole
  repr := reprOf
  parseInt text := (String.ofList (text.map fun c => .ofNat c.val)).toInt?
  parseUuid := uuidOf
  parseTimestamp text :=
    if text = ofString "2026-07-01T09:00:00Z" then some 1782896400000 else none
  isoFormat t := ofString (if t = 1782896400000 then "2026-07-01T09:00:00.000Z" else "")
  sha256 bytes := ((digests.find? (·.1 = bytes)).map (·.2)).getD ""
  uuid5 text :=
    if text = ofString ("urn:edr:failure:v1:[\"telemetry.raw\",0,7,\"event-storage-worker\"," ++
        "\"EVENT_STORAGE\"]") then 0x1e742645916a5475bda7be8e8af395c5
    else if text = ofString ("urn:edr:failure:v1:[\"telemetry.validated\",0,7," ++
        "\"dashboard-rollup-worker\",\"DASHBOARD_ROLLUP\"]") then
      0x04b80e389cfa5affa93e85f217ee7e1f
    else 0
  gzip := gzipBy compressed
  gunzip := gunzipBy compressed
  gunzip_gzip := gunzipBy_gzipBy nodup_compressed head?_compressed
  two_le_depth := by decide
  nineteen_le_digits := by decide

/-- The bytes of a value, as it is written. -/
def bytesOf (v : Json WrittenFloat) : Bytes :=
  (v.print writtenFloats).flatMap Utf8.encodeChar

/-- A value that the sink can handle, whatever its endpoint id is. -/
def Small (v : Json WrittenFloat) : Prop :=
  v.depth < cpython.limits.depth ∧ v.fits cpython.limits ∧ v.distinct ∧ v.encodable

theorem loads_bytesOf {v : Json WrittenFloat} (h : Small v) :
    cpython.loads (bytesOf v) = .ok v := by
  rw [Interpreter.loads, Json.loads, bytesOf, cpython, Json.decodeBytes_print]
  exact Json.loadsText_print h.1.le h.2.1 h.2.2.1

theorem recordable_of_small {m : ConsumedMessage Bytes} {v : Json WrittenFloat} {n : Int}
    (hm : m.value = bytesOf v) (h : Small v) (hendpoint : endpointValue cpython v = .int n)
    (hn : 0 ≤ n ∧ n < 2 ^ 64) : Recordable cpython m.value := by
  rw [Recordable, hm, loads_bytesOf h]
  refine ⟨h.1, h.2.2.2, ?_, ?_⟩ <;> rw [hendpoint]
  · exact fun _ h => by cases h
  · intro i hi
    cases hi
    exact hn

theorem small_sampleRaw : Small (sampleRaw (.ofString "agent-1")) :=
  ⟨by decide, by decide, by decide, by decide⟩

theorem inRange_sampleMessage (value : Bytes) : InRange (sampleMessage value) :=
  ⟨show 0 < 2 ^ 31 by decide, show 7 < 2 ^ 63 by decide⟩

/-- A message of the raw topic. -/
@[irreducible]
def processMessage : ConsumedMessage Bytes :=
  sampleMessage (bytesOf (sampleRaw (.ofString "agent-1")))

theorem inRange_processMessage : InRange processMessage := by
  unfold processMessage
  exact inRange_sampleMessage _

theorem recordable_processMessage : Recordable cpython processMessage.value := by
  refine recordable_of_small (n := 7) ?_ small_sampleRaw rfl (by decide)
  unfold processMessage
  rfl

/-! ## When a message can be recorded -/

/-- The services work for as long as an attempt takes. -/
structure Working (script : List Reply) : Prop where
  length : 5 ≤ script.length
  ok : ∀ reply ∈ script, reply = .ok

theorem Working.run {α : Type} {p : Sink α} {k : Nat} {o : Outcome SinkError α} {w' : World}
    {script : List Reply} (hscript : Working script) (h : p.Yields .ok k w o w') (hk : k ≤ 5) :
    ∃ rest, p script w = (o, rest, w') :=
  h.run (hk.trans hscript.length) hscript.ok

/-- A message of which nothing is recorded yet is recorded, in an envelope that stands for its
    bytes, if and only if the sink can handle them. -/
theorem record_quarantines_iff (py : Interpreter F) {m : ConsumedMessage Bytes}
    {failure : FailureRecord} {w : World} {script : List Reply} (hm : InRange m)
    (hscript : Working script)
    (hobject : w.objects
      (objectKey (failureIdFor py m failure.consumerName failure.failureStage)) = none)
    (hrows : ∀ row ∈ w.failures,
      row.failureId ≠ failureIdFor py m failure.consumerName failure.failureStage) :
    (∃ stored rest w', record py m failure script w = (.returned stored, rest, w') ∧
      ∃ object envelope message, w'.objects stored.objectKey = some object ∧
        decodePayload py object.body = .ok envelope ∧
        envelope.get? (ofString "message") = some message ∧ Carries py m.value message) ↔
    Recordable py m.value := by
  constructor
  · rintro ⟨stored, rest, w', hrecord, -⟩
    exact recordable_of_record hm hrecord
  · intro hrecordable
    obtain ⟨v, payload, n, hv, hpayload, hn⟩ := (recordable_iff failure hm).1 hrecordable
    obtain ⟨hfits, hdistinct, hcarries⟩ := failureMessage_spec hv
    have huntouched : Untouched (idOf py m failure) w :=
      ⟨hobject, filter_eq_nil_iff.2 fun row hrow => by simpa using hrows row hrow⟩
    obtain ⟨rest, hrun⟩ := hscript.run
      (record_yields (huntouched.traces payload) hv hpayload hn) Nat.le.refl
    refine ⟨_, rest, _, hrun, _, _, v.canon, hasObject_recorded,
      decodePayload_payload hm hfits hdistinct hpayload, envelope_message, hcarries⟩

theorem working_sample : Working (.replicate 5 .ok) := ⟨by decide, by decide⟩

/-- The event of a process is recorded. -/
theorem record_quarantines_iff_process :
    ∃ stored rest w', record cpython processMessage (sampleFailure none) (.replicate 5 .ok)
        emptyWorld = (.returned stored, rest, w') ∧
      ∃ object envelope message, w'.objects stored.objectKey = some object ∧
        decodePayload cpython object.body = .ok envelope ∧
        envelope.get? (ofString "message") = some message ∧
        Carries cpython processMessage.value message :=
  (record_quarantines_iff cpython inRange_processMessage working_sample rfl
    fun _ h => absurd h not_mem_nil).2 recordable_processMessage

def surrogateMessage : ConsumedMessage Bytes := sampleMessage (asciiBytes "\"\\ud800\"")

/-- A string with a lone surrogate is JSON, and cannot be encoded again. -/
theorem record_loneSurrogate : InRange surrogateMessage ∧ Working (.replicate 5 .ok) ∧
    ¬ ∃ stored rest w', record cpython surrogateMessage (sampleFailure (some "INVALID_MESSAGE"))
      (.replicate 5 .ok) emptyWorld = (.returned stored, rest, w') := by
  have hraised : (record cpython surrogateMessage
      (sampleFailure (some "INVALID_MESSAGE")) (replicate 5 .ok) emptyWorld).1 =
        .raised (.python .valueError) := by decide +kernel
  refine ⟨inRange_sampleMessage _, working_sample, ?_⟩
  rintro ⟨stored, rest, w', h⟩
  rw [h] at hraised
  cases hraised

/-- The latest row of the failure can be loaded for as long as it is kept, and its envelope stands for
    the bytes. -/
def Loadable (py : Interpreter F) (value : Bytes) (failureId : UUID) (w : World) : Prop :=
  ∃ row, w.latest failureId = some row ∧
    ∀ now script, row.retryable → now < row.retentionExpiresAt → Working script →
      ∃ envelope message rest, loadVerified py row now script w = (.returned envelope, rest, w) ∧
        envelope.get? (ofString "message") = some message ∧ Carries py value message

/-- A message that was given up before, by an attempt that may have been stopped anywhere, is
    recorded again if and only if the sink can handle it, and the first attempt has left no object
    or had the same failure code. -/
theorem record_again_iff (py : Interpreter F) {m : ConsumedMessage Bytes}
    {first second : FailureRecord} {w₀ : World} {script₁ script₂ : List Reply} (hm : InRange m)
    (hconsumer : second.consumerName = first.consumerName)
    (hstage : second.failureStage = first.failureStage)
    (huntouched : Untouched (idOf py m first) w₀)
    (hscript : Working script₂)
    (hcollision : ∀ v payload payload', failureMessage py m.value = .ok v →
      deterministicFailurePayload py (envelope m first v) = .ok payload →
      deterministicFailurePayload py (envelope m second v) = .ok payload' →
      py.sha256 payload = py.sha256 payload' → payload = payload') :
    let w₁ := (record py m first script₁ w₀).2.2
    (∃ stored rest w₂, record py m second script₂ w₁ = (.returned stored, rest, w₂) ∧
      stored.failureId = idOf py m first ∧ Loadable py m.value stored.failureId w₂) ↔
    Recordable py m.value ∧ (w₁.objects (objectKey (idOf py m first)) = none ∨
      first.failureCode = second.failureCode) := by
  intro w₁
  have hid : idOf py m second = idOf py m first := by rw [idOf, hconsumer, hstage]
  have htraces {v : Json F} {payload : Bytes} (hv : failureMessage py m.value = .ok v)
      (hpayload : deterministicFailurePayload py (envelope m first v) = .ok payload) :
      Traces py (idOf py m first) payload w₁ :=
    (meets_record (huntouched.traces payload) hv hpayload).final script₁
  constructor
  · rintro ⟨stored, rest, w₂, hrecord, -⟩
    have hrecordable := recordable_of_record hm hrecord
    refine ⟨hrecordable, or_iff_not_imp_left.2 fun hobject => ?_⟩
    obtain ⟨v, payload₁, -, hv, hpayload₁, -⟩ := (recordable_iff first hm).1 hrecordable
    obtain ⟨v', payload₂, -, hv', hpayload₂, -⟩ := (recordable_iff second hm).1 hrecordable
    obtain rfl := Except.ok.inj (hv.symm.trans hv')
    obtain ⟨hfits, hdistinct, -⟩ := failureMessage_spec hv
    -- with another code, the checksum would be another one, and the attempt would raise
    by_contra hcode
    have hsha : py.sha256 payload₁ ≠ py.sha256 payload₂ := by
      intro hsha
      obtain rfl := hcollision v payload₁ payload₂ hv hpayload₁ hpayload₂ hsha
      exact hcode (failureCode_eq_of_payload_eq hm hfits hdistinct hpayload₁ hpayload₂)
    obtain ⟨o, ho⟩ := ne_none_iff_exists'.1 hobject
    have hhas : HasObject py (idOf py m second) payload₁ w₁ := by
      rw [HasObject, hid, ho, (htraces hv hpayload₁).object o ho]
    obtain ⟨rest', hraised⟩ := hscript.run
      (record_yields_collision hhas hsha hv hpayload₂) (by decide)
    rw [hrecord] at hraised
    cases hraised
  · rintro ⟨hrecordable, hcondition⟩
    obtain ⟨v, payload₂, n, hv, hpayload₂, hn⟩ := (recordable_iff second hm).1 hrecordable
    obtain ⟨hfits, hdistinct, hcarries⟩ := failureMessage_spec hv
    have htraces₂ : Traces py (idOf py m second) payload₂ w₁ := by
      rw [hid]
      obtain ⟨v', payload₁, -, hv', hpayload₁, -⟩ := (recordable_iff first hm).1 hrecordable
      obtain rfl := Except.ok.inj (hv.symm.trans hv')
      rcases hcondition with hnone | hcode
      · have hrows := mt (htraces hv hpayload₁).object_of_row (not_not.2 hnone)
        exact Untouched.traces ⟨hnone, not_not.1 hrows⟩ payload₂
      · rw [envelope, hconsumer, hstage, ← hcode] at hpayload₂
        exact htraces hv hpayload₂
    obtain ⟨rest, hrun⟩ := hscript.run (record_yields htraces₂ hv hpayload₂ hn) Nat.le.refl
    obtain ⟨row, hrow⟩ := exists_latest_recorded py m second v n payload₂ w₁
    refine ⟨_, rest, _, hrun, hid, row, hrow, fun now script hretryable hexpires hworking => ?_⟩
    obtain ⟨rest', hload⟩ := hworking.run (loadVerified_yields htraces₂.recorded hasObject_recorded
      hrow hretryable hexpires (decodePayload_payload hm hfits hdistinct hpayload₂)) (by decide)
    exact ⟨_, v.canon, rest', hload, envelope_message, hcarries⟩

/-- The first attempt is stopped after its object is put, and the second has the same code. -/
theorem record_again_iff_sameCode :
    ∃ stored rest w₂, record cpython processMessage (sampleFailure none) (.replicate 5 .ok)
        (record cpython processMessage (sampleFailure none) (.replicate 3 .ok) emptyWorld).2.2 =
          (.returned stored, rest, w₂) ∧
      stored.failureId = idOf cpython processMessage (sampleFailure none) ∧
      Loadable cpython processMessage.value stored.failureId w₂ :=
  (record_again_iff cpython inRange_processMessage rfl rfl ⟨rfl, rfl⟩ working_sample
    fun _ _ _ _ h h' _ => Except.ok.inj (h.symm.trans h')).2
      ⟨recordable_processMessage, .inr rfl⟩

/-- The first attempt gives up with a lock timeout, and its object is put; the second one gives up
    with an error that has no code, and cannot be recorded. -/
theorem record_again_otherCode :
    ¬ ∃ stored rest w₂, record cpython processMessage (sampleFailure none) (.replicate 5 .ok)
        (record cpython processMessage (sampleFailure (some "EVENT_INGEST_LOCK_TIMEOUT"))
          (.replicate 3 .ok) emptyWorld).2.2 = (.returned stored, rest, w₂) := by
  have hraised : (record cpython processMessage (sampleFailure none) (.replicate 5 .ok)
      (record cpython processMessage (sampleFailure (some "EVENT_INGEST_LOCK_TIMEOUT"))
        (.replicate 3 .ok) emptyWorld).2.2).1 =
      .raised (.runtimeError "failure payload checksum collision") := by
    decide +kernel
  rintro ⟨stored, rest, w₂, h⟩
  cases (congrArg Prod.fst h).symm.trans hraised

end Edr.FailureSink
