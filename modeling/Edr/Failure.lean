import Edr.Kafka
import Edr.Lib.Base64
import Edr.Python

/-!
# The failure sink

A message that a worker gives up goes into quarantine: `FailureSink.record` puts an envelope with
the message into S3, under a key that comes from the place of the message and from the worker, and
then inserts a row about it into `event_failures`. `loadVerified` reads the envelope of a row back.
-/

namespace Edr.FailureSink

open Process Function Text

/-! ## The environment -/

inductive FailureStatus
  | failed
  | replayPublished
  | reprocessFailed
  deriving DecidableEq

/-- A row of `event_failures`. -/
structure FailureRow where
  failureId : UUID
  eventId : Option UUID
  endpointId : Option UInt64
  sourceTopic : String
  sourcePartition : Nat
  sourceOffset : Nat
  consumerName : String
  failureStage : String
  failureCode : Option String
  errorMessage : String
  retryable : Bool
  retryCount : Nat
  payloadObjectKey : String
  payloadSha256 : String
  payloadSizeBytes : Nat
  status : FailureStatus
  failedAt : Time
  replayCount : Nat
  lastReplayedAt : Option Time
  reprocessOutcome : Option String
  resolvedAt : Option Time
  retentionExpiresAt : Time
  createdAt : Time
  updatedAt : Time

/-- An object of the bucket, with the `sha256` of its metadata. -/
structure StoredObject where
  body : Bytes
  sha256 : Option String

/-- What `head_object` tells of an object. -/
structure ObjectHead where
  sha256 : Option String
  contentLength : Nat

/-- The bucket, and the rows of `event_failures` in the order in which they were inserted. -/
structure World where
  objects : String → Option StoredObject
  failures : List FailureRow

namespace World

def rowsOf (w : World) (failureId : UUID) : List FailureRow :=
  w.failures.filter (·.failureId = failureId)

def newer : Option FailureRow → FailureRow → Option FailureRow
  | none, row => some row
  | some current, row => some (if row.updatedAt < current.updatedAt then current else row)

def latest (w : World) (failureId : UUID) : Option FailureRow :=
  (w.rowsOf failureId).foldl newer none

def putObject (w : World) (key : String) (object : StoredObject) : World :=
  { w with objects := update w.objects key (some object) }

def insert (w : World) (row : FailureRow) : World := { w with failures := w.failures ++ [row] }

section

variable (w : World) (key : String) (object : StoredObject) (row : FailureRow) (failureId : UUID)

@[simp] theorem putObject_objects :
    (w.putObject key object).objects = update w.objects key (some object) := rfl

@[simp] theorem insert_objects : (w.insert row).objects = w.objects := rfl

theorem rowsOf_insert :
    (w.insert row).rowsOf row.failureId = w.rowsOf row.failureId ++ [row] := by
  rw [rowsOf, insert, List.filter_append, List.filter_singleton, decide_eq_true rfl]
  rfl

end

end World

/-- What the exception of a client library says in its `response`. -/
structure ClientError where
  status : Option Nat
  code : Option String
  deriving DecidableEq

inductive SinkError
  | client (error : ClientError)
  | python (error : PyError)
  | runtimeError (message : String)
  | valueError (message : String)
  deriving DecidableEq

inductive Reply
  | ok
  | failed (error : ClientError) (carriedOut : Bool)
  deriving DecidableEq

abbrev Sink := Process Reply World SinkError

def service {α : Type} (f : World → Except SinkError α × World) : Sink α :=
  call fun reply w =>
    match reply with
    | .ok => f w
    | .failed error carriedOut => (.error (.client error), if carriedOut then (f w).2 else w)

def query {α : Type} (f : World → Except SinkError α) : Sink α := service fun w => (f w, w)

def headObject (key : String) : Sink ObjectHead := query fun w =>
  match w.objects key with
  | some object => .ok ⟨object.sha256, object.body.length⟩
  | none => .error (.client ⟨some 404, some "404"⟩)

def getObject (key : String) : Sink Bytes := query fun w =>
  match w.objects key with
  | some object => .ok object.body
  | none => .error (.client ⟨some 404, some "NoSuchKey"⟩)

def putObject (key : String) (body : Bytes) (sha256 : String) : Sink Unit := service fun w =>
  (.ok (), w.putObject key ⟨body, some sha256⟩)

/-- `FailureRepository.insert` of one row. -/
def insert (row : FailureRow) : Sink Unit := service fun w => (.ok (), w.insert row)

def latest (failureId : UUID) : Sink (Option FailureRow) := query fun w => .ok (w.latest failureId)

def latestStatus (failureId : UUID) : Sink (Option FailureStatus) := query fun w =>
  .ok ((w.latest failureId).map (·.status))

def ofExcept {α : Type} : Except PyError α → Sink α
  | .ok a => pure a
  | .error e => raise (.python e)

/-! ## `FailureSink` -/

section

variable {F : Type} (py : Interpreter F)

structure StoredFailure where
  failureId : UUID
  objectKey : String
  checksumSha256 : String
  sizeBytes : Nat
  deriving DecidableEq

def failureIdFor (m : ConsumedMessage Bytes) (consumerName failureStage : String) : UUID :=
  let identity : Json F := .array [.ofString m.source.topic, .int m.source.partition,
    .int m.offset, .ofString consumerName, .ofString failureStage]
  py.uuid5 (ofString "urn:edr:failure:v1:" ++ identity.print py.floats)

def objectKey (failureId : UUID) : String := "failures/" ++ uuidText failureId ++ "/payload.json.gz"

def deterministicFailurePayload (envelope : Json F) : Except PyError Bytes :=
  (py.canonicalJson envelope).map py.gzip

def base64Wrapper (value : Bytes) : Json F :=
  .object [(ofString "encoding", .ofString "base64"),
    (ofString "raw", .string (Base64.encode value))]

/-- `_failure_message`: only the errors of the decoders are caught. -/
def failureMessage (value : Bytes) : Except PyError (Json F) :=
  match py.loads value with
  | .ok v => .ok v
  | .error .unicodeDecode => .ok (base64Wrapper value)
  | .error .jsonDecode => .ok (base64Wrapper value)
  | .error .intTooLong => .error .valueError
  | .error .recursion => .error .recursionError

def optionalUuid : Json F → Option UUID
  | .null => none
  | v => py.parseUuid (py.str v)

/-- `_optional_int`: of the errors of `int`, an `OverflowError` is not caught. -/
def optionalInt : Json F → Except PyError (Option Int)
  | .null => .ok none
  | v =>
    match py.int v with
    | .ok n => .ok (some n)
    | .error .typeError => .ok none
    | .error .valueError => .ok none
    | .error e => .error e

def mappingOf : Json F → Json F
  | .object members => .object members
  | .null | .bool _ | .int _ | .float _ | .string _ | .array _ => .object []

def eventOf (sourceMapping : Json F) : Json F :=
  mappingOf ((sourceMapping.get? (ofString "event")).getD sourceMapping)

def endpointValue (sourceMessage : Json F) : Json F :=
  let sourceMapping := mappingOf sourceMessage
  let event := eventOf sourceMapping
  py.either (py.either (py.either (sourceMapping.get "endpointId") (sourceMapping.get "endpoint_id"))
    (event.get "endpointId")) (event.get "endpoint_id")

/-- The `endpoint_id` of the row, in a column that is a `Nullable(UInt64)`. -/
def endpointColumn (sourceMessage : Json F) : Except PyError (Option UInt64) := do
  match ← optionalInt py (endpointValue py sourceMessage) with
  | none => return none
  | some n => if 0 ≤ n ∧ n < 2 ^ 64 then return some (.ofNat n.toNat) else throw .dataError

def eventIdValue (sourceMessage : Json F) : Json F :=
  let event := eventOf (mappingOf sourceMessage)
  py.either (event.get "eventId") (event.get "event_id")

def failureCodeJson : Option String → Json F
  | some code => .ofString code
  | none => .null

def envelope (m : ConsumedMessage Bytes) (failure : FailureRecord) (sourceMessage : Json F) :
    Json F :=
  .object [
    (ofString "consumerName", .ofString failure.consumerName),
    (ofString "failureCode", failureCodeJson failure.failureCode),
    (ofString "failureStage", .ofString failure.failureStage),
    (ofString "message", sourceMessage),
    (ofString "sourceOffset", .int m.offset),
    (ofString "sourcePartition", .int m.source.partition),
    (ofString "sourceTopic", .ofString m.source.topic)]

def SinkError.isMissing : SinkError → Bool
  | .client error => error.status = some 404 ∨ error.code = some "404" ∨
      error.code = some "NoSuchKey"
  | .python _ | .runtimeError _ | .valueError _ => false

/-- The `else` of `_put_idempotent`: the object that is there has to be the same. -/
def compareExisting (key : String) (payload : Bytes) (checksum : String) (current : ObjectHead) :
    Sink Unit :=
  if current.sha256 = some checksum ∧ current.contentLength = payload.length then
    pure ()
  else do
    let existing ← getObject key
    if py.sha256 existing = checksum ∧ existing.length = payload.length then
      pure ()
    else
      raise (.runtimeError "failure payload checksum collision")

/-- The end of `_put_idempotent`: there is no object yet. -/
def putNew (key : String) (payload : Bytes) (checksum : String) : Sink Unit := do
  putObject key payload checksum
  let durable ← headObject key
  if durable.contentLength = payload.length then
    pure ()
  else
    raise (.runtimeError "S3 failure payload length verification failed")

def putIdempotent (key : String) (payload : Bytes) (checksum : String) : Sink Unit := do
  let current ← (some <$> headObject key).handle fun error =>
    if error.isMissing then pure none else raise error
  match current with
  | some current => compareExisting py key payload checksum current
  | none => putNew key payload checksum

def retention : Int := 90 * dayLength

def failureRow (m : ConsumedMessage Bytes) (failure : FailureRecord) (sourceMessage : Json F)
    (endpointId : Option UInt64) (payload : Bytes) : FailureRow where
  failureId := failureIdFor py m failure.consumerName failure.failureStage
  eventId := optionalUuid py (eventIdValue py sourceMessage)
  endpointId := endpointId
  sourceTopic := m.source.topic
  sourcePartition := m.source.partition
  sourceOffset := m.offset
  consumerName := failure.consumerName
  failureStage := failure.failureStage
  failureCode := failure.failureCode
  errorMessage := failure.errorMessage
  retryable := failure.retryable
  retryCount := failure.retryCount
  payloadObjectKey := objectKey (failureIdFor py m failure.consumerName failure.failureStage)
  payloadSha256 := py.sha256 payload
  payloadSizeBytes := payload.length
  status := .failed
  failedAt := failure.failedAt
  replayCount := 0
  lastReplayedAt := none
  reprocessOutcome := none
  resolvedAt := none
  retentionExpiresAt := failure.failedAt + retention
  createdAt := failure.failedAt
  updatedAt := failure.failedAt

def record (m : ConsumedMessage Bytes) (failure : FailureRecord) : Sink StoredFailure := do
  let failureId := failureIdFor py m failure.consumerName failure.failureStage
  let sourceMessage ← ofExcept (failureMessage py m.value)
  let payload ← ofExcept (deterministicFailurePayload py (envelope m failure sourceMessage))
  let checksum := py.sha256 payload
  putIdempotent py (objectKey failureId) payload checksum
  let endpointId ← ofExcept (endpointColumn py sourceMessage)
  insert (failureRow py m failure sourceMessage endpointId payload)
  let status ← latestStatus failureId
  if status = some .failed then
    pure ⟨failureId, objectKey failureId, checksum, payload.length⟩
  else
    raise (.runtimeError "ClickHouse failure record was not durably readable")

/-- `json.loads(gzip.decompress(body))`. -/
def decodePayload (body : Bytes) : Except PyError (Json F) :=
  match py.gunzip body with
  | none => .error .badGzip
  | some bytes =>
    match py.loads bytes with
    | .ok v => .ok v
    | .error .recursion => .error .recursionError
    | .error _ => .error .valueError

def loadVerified (row : FailureRow) (now : Time) : Sink (Json F) := do
  if row.retryable = false then
    raise (.valueError "failure is not retryable")
  else if row.retentionExpiresAt ≤ now then
    raise (.valueError "failure payload retention has expired")
  else do
    let body ← getObject row.payloadObjectKey
    if body.length ≠ row.payloadSizeBytes then
      raise (.valueError "failure payload size mismatch")
    else if py.sha256 body ≠ row.payloadSha256 then
      raise (.valueError "failure payload checksum mismatch")
    else
      ofExcept (decodePayload py body)

end

end Edr.FailureSink
