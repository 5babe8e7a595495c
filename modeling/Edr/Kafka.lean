import Edr.Time
import Edr.Lib.Process
import Edr.Lib.History

/-!
# Consumers of the topics

A worker consumes the partitions of its topic through `KafkaConsumer`, and records the messages that
it gives up in the failure sink. Kafka keeps two numbers for each partition: the offset after the
last message that was handed out, and the committed offset, from which a new process goes on. Auto
commit is off, and `auto.offset.reset` is `earliest`, so that a partition is read from its first
offset on, and a commit moves the second number only where the worker asks for it.
-/

namespace Edr

/-! ## Messages -/

structure TopicPartition where
  topic : String
  partition : Nat
  deriving DecidableEq

@[ext] structure Slot where
  source : TopicPartition
  offset : Nat
  deriving DecidableEq

def Log (V : Type*) := TopicPartition → Nat → Option V

/-- `ConsumedMessage`: `source` is its topic and partition. -/
structure ConsumedMessage (V : Type*) where
  source : TopicPartition
  offset : Nat
  value : V
  native : Option Slot

namespace ConsumedMessage

variable {V : Type*}

def slot (m : ConsumedMessage V) : Slot := ⟨m.source, m.offset⟩

def ofSlot (x : Slot) (v : V) : ConsumedMessage V := ⟨x.source, x.offset, v, some x⟩

end ConsumedMessage

/-! ## Exceptions -/

inductive WorkerError
  | archivedDayImmutable (message : String)
  | eventIdentityConflict (message : String)
  | permanentMessage (message : String)
  | eventIngestLockTimeout (lockTimeoutMs : Nat)
  | invalidRollupMessage (message : String)
  /-- What `consumer.commit` raises. -/
  | commitFailed (message : String)
  | other (message : String)

/-- `str(error)`. -/
def WorkerError.text : WorkerError → String
  | .archivedDayImmutable message => message
  | .eventIdentityConflict message => message
  | .permanentMessage message => message
  | .eventIngestLockTimeout lockTimeoutMs =>
    s!"event ingest claim lock timed out after {lockTimeoutMs}ms"
  | .invalidRollupMessage message => message
  | .commitFailed message => message
  | .other message => message

/-! ## The environment of a worker -/

/-- What `FailureSink.record` is told about a message. -/
structure FailureRecord where
  consumerName : String
  failureStage : String
  failureCode : Option String
  errorMessage : String
  retryable : Bool
  retryCount : Nat
  failedAt : Time

/-- What happens in the environment of a worker; `ξ` are the events of its own. -/
inductive Happening (ξ : Type*)
  | delivered (x : Slot)
  | committed (x : Slot)
  | commitFailed (x : Slot)
  | rewound (x : Slot)
  | rewindFailed (x : Slot)
  | recorded (x : Slot) (record : FailureRecord)
  | recordFailed (x : Slot)
  | restarted
  | own (e : ξ)

/-- What `poll` may come back with. -/
inductive Poll
  | empty
  | partitionEof
  | error (message : String)
  | message (source : TopicPartition)

inductive CommitAnswer
  | ok
  | failed (stored : Bool) (message : String)

/-- What the environment has to say to one call, whatever call it is: `η` are the answers to the
    calls of a worker's own. A text is the message of an exception. -/
structure Answer (η : Type*) where
  poll : Poll := .empty
  commit : CommitAnswer := .ok
  rewind : Option String := none
  record : Option String := none
  now : Time := 0
  own : η

/-- The consumer group: for each partition, the offset after the last message handed out, and the
    committed one. -/
structure KafkaConsumer where
  position : TopicPartition → Nat
  committed : TopicPartition → Nat

/-- A worker and its environment; `τ` is what the process has in memory. -/
structure Node (τ ξ : Type*) where
  consumer : KafkaConsumer
  history : List (Happening ξ)
  memory : τ

abbrev Program (τ ξ η : Type*) := Process (Answer η) (Node τ ξ) WorkerError

namespace Node

variable {τ ξ : Type*}

def note (s : Node τ ξ) (e : Happening ξ) : Node τ ξ := { s with history := e :: s.history }

def next (s : Node τ ξ) (source : TopicPartition) : Slot := ⟨source, s.consumer.position source⟩

def seek (s : Node τ ξ) (source : TopicPartition) (offset : Nat) : Node τ ξ :=
  { s with consumer.position := Function.update s.consumer.position source offset }

def store (s : Node τ ξ) (x : Slot) : Node τ ξ :=
  { s with consumer.committed := Function.update s.consumer.committed x.source (x.offset + 1) }

def deliver (s : Node τ ξ) (source : TopicPartition) : Node τ ξ :=
  (s.seek source (s.consumer.position source + 1)).note (.delivered (s.next source))

def commit (s : Node τ ξ) (x : Slot) : Node τ ξ := (s.store x).note (.committed x)

def rewind (s : Node τ ξ) (x : Slot) : Node τ ξ := (s.seek x.source x.offset).note (.rewound x)

def restart (fresh : τ) (s : Node τ ξ) : Node τ ξ where
  consumer := { s.consumer with position := s.consumer.committed }
  history := .restarted :: s.history
  memory := fresh

section

variable (s : Node τ ξ) (x : Slot) (e : Happening ξ) (source : TopicPartition)

@[simp] theorem note_consumer : (s.note e).consumer = s.consumer := rfl

@[simp] theorem note_memory : (s.note e).memory = s.memory := rfl

@[simp] theorem commit_committed : (s.commit x).consumer.committed =
    Function.update s.consumer.committed x.source (x.offset + 1) := rfl

@[simp] theorem commit_position : (s.commit x).consumer.position = s.consumer.position := rfl

@[simp] theorem rewind_committed : (s.rewind x).consumer.committed = s.consumer.committed := rfl

@[simp] theorem rewind_position : (s.rewind x).consumer.position =
    Function.update s.consumer.position x.source x.offset := rfl

@[simp] theorem deliver_committed :
    (s.deliver source).consumer.committed = s.consumer.committed := rfl

@[simp] theorem deliver_position : (s.deliver source).consumer.position =
    Function.update s.consumer.position source (s.consumer.position source + 1) := rfl

variable {s source}

theorem eq_next_or_lt {y : Slot} (h : y.offset < (s.deliver source).consumer.position y.source) :
    y = s.next source ∨ y.offset < s.consumer.position y.source := by
  rw [deliver_position] at h
  rcases eq_or_ne y.source source with rfl | hne
  · rw [Function.update_self] at h
    rcases eq_or_lt_of_le (Nat.lt_succ_iff.1 h) with heq | hlt
    · exact .inl (Slot.ext rfl heq)
    · exact .inr hlt
  · rw [Function.update_of_ne hne] at h
    exact .inr h

theorem position_le_deliver (p : TopicPartition) :
    s.consumer.position p ≤ (s.deliver source).consumer.position p := by
  rw [deliver_position]
  rcases eq_or_ne p source with rfl | hne
  · rw [Function.update_self]
    exact Nat.le_succ _
  · rw [Function.update_of_ne hne]

end

end Node

/-! ## `KafkaConsumer` and `FailureSink` -/

section

variable {V : Type} {τ ξ η : Type*}

def consumeOne (log : Log V) : Program τ ξ η (Option (ConsumedMessage V)) :=
  .call fun r s =>
    match r.poll with
    | .empty => (.ok none, s)
    | .partitionEof => (.ok none, s)
    | .error message => (.error (.other message), s)
    | .message source =>
      match log source (s.next source).offset with
      | none => (.error (.other "Kafka message has no value"), s.deliver source)
      | some v => (.ok (some (.ofSlot (s.next source) v)), s.deliver source)

def commit (m : ConsumedMessage V) : Program τ ξ η Unit :=
  match m.native with
  | none => .raise (.other "native Kafka message is required")
  | some x => .call fun r s =>
    match r.commit with
    | .ok => (.ok (), s.commit x)
    | .failed stored message =>
      (.error (.commitFailed message), (if stored then s.commit x else s).note (.commitFailed x))

def rewind (m : ConsumedMessage V) : Program τ ξ η Unit :=
  match m.native with
  | none => pure ()
  | some _ => .call fun r s =>
    match r.rewind with
    | none => (.ok (), s.rewind m.slot)
    | some message => (.error (.other message), s.note (.rewindFailed m.slot))

/-- `FailureSink.record`, with `failed_at=now()`. -/
def record (m : ConsumedMessage V) (failure : Time → FailureRecord) : Program τ ξ η Unit :=
  .call fun r s =>
    match r.record with
    | none => (.ok (), s.note (.recorded m.slot (failure r.now)))
    | some message => (.error (.other message), s.note (.recordFailed m.slot))

/-! ## What the calls do -/

variable {log : Log V} {s : Node τ ξ} {x : Slot} {v : V}

open Process

theorem meets_consumeOne {Q : Post (Node τ ξ) WorkerError (Option (ConsumedMessage V))}
    (hs : Q.stopped s) (hnone : Q.returned none s)
    (herr : ∀ message, Q.raised (.other message) s)
    (hvoid : ∀ source, log source (s.next source).offset = none →
      ∀ message, Q.raised (.other message) (s.deliver source))
    (hsome : ∀ source v, log source (s.next source).offset = some v →
      Q.returned (some (.ofSlot (s.next source) v)) (s.deliver source)) :
    (consumeOne log : Program τ ξ η _).Meets Q s := by
  refine .call hs fun r => ?_
  rcases r.poll with _ | _ | message | source
  · exact hnone
  · exact hnone
  · exact herr _
  · rcases hv : log source (s.next source).offset with _ | v
    · simp only [hv]
      exact hvoid source hv _
    · simp only [hv]
      exact hsome source v hv

theorem meets_commit {Q : Post (Node τ ξ) WorkerError Unit} (hs : Q.stopped s)
    (hok : Q.returned () (s.commit x))
    (hfail : ∀ message, Q.raised (.commitFailed message) (s.note (.commitFailed x)))
    (hstored : ∀ message, Q.raised (.commitFailed message) ((s.commit x).note (.commitFailed x))) :
    (commit (.ofSlot x v) : Program τ ξ η _).Meets Q s := by
  refine .call hs fun r => ?_
  rcases r.commit with _ | ⟨_ | _, message⟩
  · exact hok
  · exact hfail message
  · exact hstored message

theorem meets_rewind {Q : Post (Node τ ξ) WorkerError Unit} (hs : Q.stopped s)
    (hok : Q.returned () (s.rewind x))
    (hfail : ∀ message, Q.raised (.other message) (s.note (.rewindFailed x))) :
    (rewind (.ofSlot x v) : Program τ ξ η _).Meets Q s := by
  refine .call hs fun r => ?_
  rcases r.rewind with _ | message
  · exact hok
  · exact hfail _

theorem meets_record {failure : Time → FailureRecord} {Q : Post (Node τ ξ) WorkerError Unit}
    (hs : Q.stopped s) (hok : ∀ now, Q.returned () (s.note (.recorded x (failure now))))
    (hfail : ∀ message, Q.raised (.other message) (s.note (.recordFailed x))) :
    (record (.ofSlot x v) failure : Program τ ξ η _).Meets Q s := by
  refine .call hs fun r => ?_
  rcases r.record with _ | message
  · exact hok r.now
  · exact hfail _

end

end Edr
