import Edr.Time

/-!
# Events

An event reaches the storage worker as a message of the raw topic, which
`normalizeEvent` turns into a row of `edr_events`. What identifies the event is
its id and, under this id, an `EventIdentity`: the endpoint and the agent that
sent it, and a digest of its type, its time and its payload.
-/

namespace Edr

open Option

abbrev UUID := Nat

structure Payload where
  processName : Option String := none
  filePath : Option String := none
  sha256 : Option String := none
  remoteIp : Option String := none
  remoteDomain : Option String := none
  query : Option String := none
  answers : Option (List String) := none
  l7Protocol : Option String := none
  httpHost : Option String := none
  tlsSni : Option String := none
  deriving DecidableEq

/-- A message of the raw topic: an event, in the envelope of the agent that sent it. -/
structure RawMessage where
  endpointId : Nat
  agentId : String
  eventId : String
  eventType : String
  occurredAt : String
  payload : Payload
  deriving DecidableEq

/-- A row of `edr_events`. -/
structure EventRecord where
  eventId : UUID
  endpointId : Nat
  agentId : String
  /-- Free text: the column is a `LowCardinality(String)`, and nothing checks it here. -/
  eventType : String
  occurredAt : Time
  processName : Option String
  filePath : Option String
  fileHashSha256 : Option String
  remoteIp : Option String
  remoteDomain : Option String
  dnsQuery : Option String
  /-- The array of `dns_answers_json`, when there is one. -/
  dnsAnswers : Option (List String)
  l7Protocol : Option String
  httpHost : Option String
  tlsSni : Option String
  payloadSha256 : String
  isDelete : Bool
  deriving DecidableEq

structure EventIdentity where
  endpointId : Nat
  agentId : String
  payloadSha256 : String
  deriving DecidableEq

namespace EventRecord

def identity (r : EventRecord) : EventIdentity := ⟨r.endpointId, r.agentId, r.payloadSha256⟩

def day (r : EventRecord) : Day := dateOf r.occurredAt

end EventRecord

structure Codec where
  /-- `UUID(text)`, which may raise. -/
  uuid : String → Option UUID
  /-- `parse_timestamp`, which may raise. -/
  parseTimestamp : String → Option Time
  digest : String → String → Payload → String

/-- `normalize_event`: the row of a message, unless its id or its time cannot be
    read (a `PermanentMessageError`). -/
def normalizeEvent (codec : Codec) (raw : RawMessage) : Option EventRecord := do
  let eventId ← codec.uuid raw.eventId
  let occurredAt ← codec.parseTimestamp raw.occurredAt
  return {
    eventId, occurredAt
    endpointId := raw.endpointId
    agentId := raw.agentId
    eventType := raw.eventType
    processName := raw.payload.processName
    filePath := raw.payload.filePath
    fileHashSha256 := raw.payload.sha256
    remoteIp := raw.payload.remoteIp
    remoteDomain := raw.payload.remoteDomain
    dnsQuery := raw.payload.query
    dnsAnswers := raw.payload.answers
    l7Protocol := raw.payload.l7Protocol
    httpHost := raw.payload.httpHost
    tlsSni := raw.payload.tlsSni
    payloadSha256 := codec.digest raw.eventType raw.occurredAt raw.payload
    isDelete := false }

/-- Among the messages of `M`, those with the same digest have the same type,
    time and payload. -/
def Codec.CollisionFreeOn (codec : Codec) (M : Set RawMessage) : Prop :=
  ∀ m ∈ M, ∀ m' ∈ M,
    codec.digest m.eventType m.occurredAt m.payload =
      codec.digest m'.eventType m'.occurredAt m'.payload →
    m.eventType = m'.eventType ∧ m.occurredAt = m'.occurredAt ∧ m.payload = m'.payload

/-- Rows that the normalisation makes of messages of `M`. -/
def NormalizedFrom (codec : Codec) (M : Set RawMessage) (r : EventRecord) : Prop :=
  ∃ m ∈ M, normalizeEvent codec m = some r

variable {codec : Codec} {M : Set RawMessage} {r r' : EventRecord}

theorem NormalizedFrom.not_isDelete (h : NormalizedFrom codec M r) : r.isDelete = false := by
  obtain ⟨m, -, h⟩ := h
  simp only [normalizeEvent, bind_eq_bind, bind_eq_some_iff] at h
  obtain ⟨id, -, t, -, h⟩ := h
  cases h
  rfl

theorem NormalizedFrom.eq (hM : codec.CollisionFreeOn M) (h : NormalizedFrom codec M r)
    (h' : NormalizedFrom codec M r') (hid : r.eventId = r'.eventId)
    (hi : r.identity = r'.identity) : r = r' := by
  obtain ⟨m, hm, h⟩ := h
  obtain ⟨m', hm', h'⟩ := h'
  simp only [normalizeEvent, bind_eq_bind, bind_eq_some_iff] at h h'
  obtain ⟨id, -, t, ht, h⟩ := h
  obtain ⟨id', -, t', ht', h'⟩ := h'
  cases h
  cases h'
  simp only [EventRecord.identity, EventIdentity.mk.injEq] at hi hid
  obtain ⟨he, ha, hd⟩ := hi
  obtain ⟨hty, ho, hp⟩ := hM m hm m' hm' hd
  rw [ho, ht'] at ht
  cases ht
  simp [hid, he, ha, hty, hp, ho]

end Edr
