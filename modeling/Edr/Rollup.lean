import Edr.Kafka

/-!
# Messages of the dashboard rollup

The dashboard rollup keeps, for each endpoint and minute, the numbers of events by type. A message
of `telemetry.validated` only says which of these buckets has changed: `_rollup_identity` reads the
endpoint and the minute from it.
-/

namespace Edr.Rollup

/-! ## Minutes -/

def minuteLength : Int := 60000

def hourLength : Int := 3600000

/-- `value.replace(second=0, microsecond=0)`. -/
def startOfMinute (t : Time) : Time := t / minuteLength * minuteLength

theorem startOfMinute_startOfMinute (t : Time) :
    startOfMinute (startOfMinute t) = startOfMinute t := by
  rw [startOfMinute, startOfMinute, Int.mul_ediv_cancel _ (by decide)]

structure MinuteKey where
  endpointId : Int
  bucketStartAt : Time
  deriving DecidableEq

def MinuteKey.date (key : MinuteKey) : Day := dateOf key.bucketStartAt

/-- `(int(endpoint_id), _minute_bucket(bucket))`. -/
def MinuteKey.normalize (key : MinuteKey) : MinuteKey :=
  ⟨key.endpointId, startOfMinute key.bucketStartAt⟩

/-! ## Python values -/

/-- A number with a fraction or an exponent; `Infinity` and `NaN` are accepted too. -/
inductive JsonFloat
  | finite (q : Rat)
  | infinite
  | nan

/-- What `json.loads` returns. -/
inductive Json
  | null
  | bool (b : Bool)
  | int (n : Int)
  | float (x : JsonFloat)
  | str (s : String)
  | list (items : List Json)
  | dict (fields : List (String × Json))

inductive DecodeError
  | unicodeDecodeError
  | jsonDecodeError
  | keyError
  | typeError
  | valueError
  | overflowError
  | recursionError
  deriving DecidableEq, Repr

/-- A `datetime`, as a wall clock with its offset from UTC, if it is an aware one. -/
structure DateTime where
  wall : Time
  utcOffset : Option Int

/-- Python's libraries: `json.loads`, `int` of a string, `str`, and `datetime.fromisoformat`. -/
structure Codec (V : Type) where
  loads : V → Except DecodeError Json
  intOfString : String → Option Int
  str : Json → String
  fromisoformat : String → Option DateTime

/-- `value[key]`. -/
def subscript : Json → String → Except DecodeError Json
  | .dict fields, key =>
    match fields.lookup key with
    | some value => .ok value
    | none => .error .keyError
  | _, _ => .error .typeError

variable {V : Type} (codec : Codec V)

/-- `int(value)`. -/
def int : Json → Except DecodeError Int
  | .int n => .ok n
  | .bool b => .ok (if b then 1 else 0)
  | .float (.finite q) => .ok (q.num.tdiv q.den)
  | .float .infinite => .error .overflowError
  | .float .nan => .error .valueError
  | .str s =>
    match codec.intOfString s with
    | some n => .ok n
    | none => .error .valueError
  | .null => .error .typeError
  | .list _ => .error .typeError
  | .dict _ => .error .typeError

/-- `_utc(value)`. -/
def utc (value : DateTime) : Except DecodeError Time :=
  match value.utcOffset with
  | none => .ok value.wall
  | some offset =>
    if datetimeMin ≤ value.wall - offset ∧ value.wall - offset ≤ datetimeMax then
      .ok (value.wall - offset)
    else .error .overflowError

/-- `_minute_bucket(value)`. -/
def minuteBucket (value : DateTime) : Except DecodeError Time := startOfMinute <$> utc value

/-! ## `_rollup_identity` -/

/-- The body of its `try`. -/
def readIdentity (value : V) : Except DecodeError (Int × DateTime) := do
  let payload ← codec.loads value
  let event ← subscript payload "event"
  let endpointId ← int codec (← subscript event "endpoint_id")
  let text := (codec.str (← subscript event "occurred_at")).replace "Z" "+00:00"
  match codec.fromisoformat text with
  | some occurredAt => pure (endpointId, occurredAt)
  | none => throw .valueError

/-- Is the exception one of those that its `except` names? -/
def DecodeError.isCaught : DecodeError → Bool
  | .unicodeDecodeError => true
  | .jsonDecodeError => true
  | .keyError => true
  | .typeError => true
  | .valueError => true
  | .overflowError => false
  | .recursionError => false

/-- The exception that leaves `_rollup_identity`. -/
def DecodeError.raised (e : DecodeError) : WorkerError :=
  if e.isCaught then .invalidRollupMessage "validated Event message cannot be used for rollup"
  else .other (reprStr e)

/-- `_rollup_identity`: the bucket that a message is about. -/
def rollupIdentity (value : V) : Except WorkerError MinuteKey :=
  match readIdentity codec value with
  | .error e => .error e.raised
  | .ok (endpointId, occurredAt) =>
    match minuteBucket occurredAt with
    | .error _ => .error (.other "date value out of range")
    | .ok bucket => .ok ⟨endpointId, bucket⟩

theorem normalize_of_rollupIdentity {value : V} {key : MinuteKey}
    (h : rollupIdentity codec value = .ok key) : key.normalize = key := by
  unfold rollupIdentity at h
  rcases hr : readIdentity codec value with e | ⟨endpointId, occurredAt⟩ <;>
    simp only [hr] at h
  · cases h
  · rcases hb : minuteBucket occurredAt with e | bucket <;> simp only [hb] at h
    · cases h
    · cases h
      rcases hu : utc occurredAt with e | t <;> rw [minuteBucket, hu] at hb
      · cases hb
      · cases hb
        exact congrArg (MinuteKey.mk endpointId) (startOfMinute_startOfMinute t)

end Edr.Rollup
