import Edr.Lib.Table
import Edr.Rollup

/-!
# The dashboard rollup worker

`DashboardRollupWorker` and the main loop of `run_dashboard_rollup_worker`. The worker collects the
buckets that the messages are about, and the last message of each partition, and from time to time
refreshes the buckets, and then commits the messages. A message that cannot be read is quarantined:
after what came before it is flushed, it goes to the failure sink, and its offset is committed.
-/

namespace Edr.Rollup

open Process

/-! ## The worker -/

/-- What the process has in memory: the attributes of the worker, and the time of the last
    reconciliation pass. -/
structure Memory (V : Type) where
  running : Bool
  dirtyBuckets : List MinuteKey
  pendingOffsets : Table TopicPartition (ConsumedMessage V)
  lastFlushedAt : Int
  lastReconciliationAttempt : Int

inductive RollupEvent
  /-- `refresh_buckets` has returned: these buckets were refreshed, and those found frozen. -/
  | refreshed (keys frozen : List MinuteKey)
  | refreshFailed
  | rangeRefreshed (from_ to_ : Time)
  | reconciling
  | reconciled

/-- What the environment answers to the calls of this worker; a text is the message of an
    exception. -/
structure RollupAnswer where
  /-- The dates that `refresh_buckets` finds frozen. -/
  refresh : Except String (List Day) := .ok []
  refreshRange : Option String := none
  missingRanges : Except String (List (Time × Time)) := .ok []
  heartbeat : Option String := none
  clock : Int := 0

structure Settings where
  flushInterval : Int
  maxDirtyBuckets : Nat
  backfillHours : Nat
  overlapMinutes : Nat
  chunkHours : Nat
  reconcileInterval : Int
  reconcileHours : Nat
  flushInterval_pos : 0 < flushInterval
  maxDirtyBuckets_pos : 0 < maxDirtyBuckets

abbrev RollupNode (V : Type) := Node (Memory V) RollupEvent

abbrev RollupProgram (V : Type) := Program (Memory V) RollupEvent RollupAnswer

variable {V : Type}

def Memory.fresh : Memory V := ⟨false, [], .empty, 0, 0⟩

def remember (f : Memory V → Memory V) : RollupProgram V Unit :=
  update fun s => { s with memory := f s.memory }

def clock : RollupProgram V Int := call fun r s => (.ok r.own.clock, s)

/-- `datetime.now(UTC)`. -/
def now : RollupProgram V Time := call fun r s => (.ok r.now, s)

/-- `mark_worker_heartbeat`. -/
def heartbeat : RollupProgram V Unit := call fun r s =>
  match r.own.heartbeat with
  | none => (.ok (), s)
  | some message => (.error (.other message), s)

/-- `synchronizer.refresh_buckets(bucket_keys)`. -/
def refreshBuckets (bucketKeys : List MinuteKey) : RollupProgram V Unit :=
  let normalizedKeys := (bucketKeys.map MinuteKey.normalize).dedup
  if normalizedKeys.isEmpty then pure ()
  else call fun r s =>
    match r.own.refresh with
    | .ok frozenDates =>
      (.ok (), s.note (.own (.refreshed
        (normalizedKeys.filter fun key => !decide (key.date ∈ frozenDates))
        (normalizedKeys.filter fun key => decide (key.date ∈ frozenDates)))))
    | .error message => (.error (.other message), s.note (.own .refreshFailed))

/-- `synchronizer.refresh_range(from_=from_, to=to_)`. -/
def refreshRange (from_ to_ : Time) : RollupProgram V Unit := call fun r s =>
  match r.own.refreshRange with
  | none => (.ok (), s.note (.own (.rangeRefreshed from_ to_)))
  | some message => (.error (.other message), s)

/-- `store.missing_ranges(from_=…, to=…)`. -/
def missingRanges : RollupProgram V (List (Time × Time)) := call fun r s =>
  match r.own.missingRanges with
  | .ok ranges => (.ok ranges, s)
  | .error message => (.error (.other message), s)

def commitsBefore (a b : ConsumedMessage V) : Bool :=
  a.source.topic < b.source.topic || decide (a.source.topic = b.source.topic) &&
    (a.source.partition < b.source.partition || decide (a.source.partition = b.source.partition) &&
      decide (a.offset ≤ b.offset))

/-- `sorted(self.pending_offsets.values(), key=…)`. -/
def orderedMessages (w : Memory V) : List (ConsumedMessage V) :=
  (w.pendingOffsets.rows.map Prod.snd).insertionSort fun a b => commitsBefore a b = true

def flush : RollupProgram V Unit := do
  let w ← read Node.memory
  if w.dirtyBuckets.isEmpty then pure ()
  else
    refreshBuckets w.dirtyBuckets
    (orderedMessages w).forM commit
    remember fun w => { w with dirtyBuckets := [], pendingOffsets := .empty }
    let flushedAt ← clock
    remember fun w => { w with lastFlushedAt := flushedAt }

def quarantineRecord (error : WorkerError) (failedAt : Time) : FailureRecord where
  consumerName := "dashboard-rollup-worker"
  failureStage := "DASHBOARD_ROLLUP"
  failureCode := some "INVALID_MESSAGE"
  errorMessage := error.text
  retryable := false
  retryCount := 0
  failedAt := failedAt

/-- `DashboardRollupWorker._quarantine_invalid_message`, in a worker with a failure sink, as the one
    of `main` is. -/
def quarantineInvalidMessage (m : ConsumedMessage V) (error : WorkerError) :
    RollupProgram V Unit := do
  handle (record m (quarantineRecord error)) fun e => do
    rewind m
    raise e
  commit m

def later (m : ConsumedMessage V) : Option (ConsumedMessage V) → ConsumedMessage V
  | none => m
  | some previous => if previous.offset < m.offset then m else previous

def Memory.add (key : MinuteKey) (m : ConsumedMessage V) (w : Memory V) : Memory V :=
  { w with
    dirtyBuckets := w.dirtyBuckets.insert key
    pendingOffsets := w.pendingOffsets.upsert m.source (later m) }

variable (settings : Settings) (codec : Codec V) (log : Log V)

/-- The first part of `run_once`: what is done with a message. -/
def handleMessage (m : ConsumedMessage V) : RollupProgram V Unit :=
  match rollupIdentity codec m.value with
  | .ok key => remember (.add key m)
  | .error (.invalidRollupMessage text) => do
    flush
    quarantineInvalidMessage m (.invalidRollupMessage text)
  | .error e => raise e

/-- The second part of `run_once`: a flush, where it is due. -/
def flushIfDue : RollupProgram V Unit := do
  let w ← read Node.memory
  if w.dirtyBuckets.isEmpty then pure ()
  else if settings.maxDirtyBuckets ≤ w.dirtyBuckets.length then flush
  else
    let time ← clock
    if settings.flushInterval ≤ time - w.lastFlushedAt then flush else pure ()

def runOnce : RollupProgram V Bool := do
  match ← consumeOne log with
  | none =>
    flushIfDue settings
    pure false
  | some m =>
    handleMessage codec m
    flushIfDue settings
    pure true

/-! ## The main loop -/

/-- The loop of `_drain_pending`. -/
def drainLoop : Nat → RollupProgram V Unit
  | 0 => pure ()
  | limit + 1 => do
    if ← runOnce settings codec log then drainLoop limit else pure ()

def drainPending (limit : Nat) : RollupProgram V Unit := do
  drainLoop settings codec log limit
  flush
  heartbeat

/-- One step of `_merge_ranges`, on the ranges that are merged, the last one first. -/
def mergeStep (merged : List (Time × Time)) (range : Time × Time) : List (Time × Time) :=
  match merged with
  | [] => [range]
  | previous :: rest =>
    if range.1 ≤ previous.2 then (previous.1, max previous.2 range.2) :: rest
    else range :: previous :: rest

def mergeRanges (ranges : List (Time × Time)) : List (Time × Time) :=
  let ordered := (ranges.filter fun r => decide (r.1 < r.2)).insertionSort fun a b =>
    a.1 < b.1 ∨ a.1 = b.1 ∧ a.2 ≤ b.2
  (ordered.foldl mergeStep []).reverse

/-- The inner loop of `_backfill`, for as many chunks as its first argument says. -/
def backfillRange (chunk : Int) (afterChunk : RollupProgram V Unit) (rangeEnd : Time) :
    Nat → Time → RollupProgram V Unit
  | 0, _ => pure ()
  | n + 1, cursor =>
    if cursor < rangeEnd then do
      let chunkEnd := min (cursor + chunk) rangeEnd
      refreshRange cursor chunkEnd
      heartbeat
      afterChunk
      backfillRange chunk afterChunk rangeEnd n chunkEnd
    else pure ()

def chunkCount (chunk : Int) (range : Time × Time) : Nat :=
  ((range.2 - range.1 + chunk - 1) / chunk).toNat

/-- `_backfill`, after its ranges are known. -/
def backfillRanges (chunkHours : Nat) (afterChunk : RollupProgram V Unit)
    (ranges : List (Time × Time)) : RollupProgram V Unit :=
  (mergeRanges ranges).forM fun range =>
    let chunk := chunkHours * hourLength
    backfillRange chunk afterChunk range.2 (chunkCount chunk range) range.1

def backfill (hours overlapMinutes chunkHours : Nat) (forceFull : Bool)
    (afterChunk : RollupProgram V Unit) : RollupProgram V Unit := do
  if hours < 1 then raise (.other "backfill hours must be positive")
  else if overlapMinutes < 1 then raise (.other "backfill overlap must be positive")
  else if chunkHours < 1 then raise (.other "backfill chunk hours must be positive")
  else
    let current ← now
    let earliest := startOfMinute (current - hours * hourLength)
    let end_ := startOfMinute current + minuteLength
    if forceFull then backfillRanges chunkHours afterChunk [(earliest, end_)]
    else
      let missing ← missingRanges
      backfillRanges chunkHours afterChunk
        (missing ++ [(max earliest (end_ - overlapMinutes * minuteLength), end_)])

def reconcile : RollupProgram V Unit := do
  update fun s => s.note (.own .reconciling)
  handle
    (backfill settings.reconcileHours 1 settings.chunkHours true
      (drainPending settings codec log settings.maxDirtyBuckets))
    fun _ => pure ()
  update fun s => s.note (.own .reconciled)

def reconcileIfDue (lastAttemptAt : Int) : RollupProgram V Int := do
  let attemptedAt ← clock
  if attemptedAt - lastAttemptAt < settings.reconcileInterval then pure lastAttemptAt
  else
    reconcile settings codec log
    pure attemptedAt

/-- `main`, up to its loop; the argument is that of `--backfill-hours`. -/
def startup (backfillHours : Option Nat) : RollupProgram V Unit := do
  let time ← clock
  remember fun w => { w with lastFlushedAt := time }
  backfill (backfillHours.getD settings.backfillHours) settings.overlapMinutes settings.chunkHours
    backfillHours.isSome (drainPending settings codec log settings.maxDirtyBuckets)
  let time ← clock
  remember fun w => { w with running := true, lastReconciliationAttempt := time }

/-- One round of the loop of `main`. -/
def round : RollupProgram V Unit := do
  let _ ← runOnce settings codec log
  heartbeat
  let w ← read Node.memory
  let attemptedAt ← reconcileIfDue settings codec log w.lastReconciliationAttempt
  remember fun w => { w with lastReconciliationAttempt := attemptedAt }

/-- `main` with `--once`, after its backfill: a single message, and a flush. -/
def once (backfillHours : Option Nat) : RollupProgram V Bool := do
  let time ← clock
  remember fun w => { w with lastFlushedAt := time }
  backfill (backfillHours.getD settings.backfillHours) settings.overlapMinutes settings.chunkHours
    backfillHours.isSome (pure ())
  let consumed ← runOnce settings codec log
  flush
  pure consumed

/-! ## Runs -/

inductive Step
  | start (backfillHours : Option Nat) (script : List (Answer RollupAnswer))
  | once (backfillHours : Option Nat) (script : List (Answer RollupAnswer))
  | round (script : List (Answer RollupAnswer))
  | stop

def init : RollupNode V := ⟨⟨fun _ => 0, fun _ => 0⟩, [], .fresh⟩

/-- What a part of `main` leads to: an exception that leaves it ends the process. -/
def proceed {α ρ : Type} : Outcome WorkerError α × List ρ × RollupNode V → RollupNode V
  | (.returned _, _, t) => t
  | (.raised _, _, t) => t.restart .fresh
  | (.stopped, _, t) => t.restart .fresh

def next (s : RollupNode V) : Step → RollupNode V
  | .start backfillHours script =>
    proceed (startup settings codec log backfillHours script (s.restart .fresh))
  | .once backfillHours script =>
    (once settings codec log backfillHours script (s.restart .fresh)).2.2.restart .fresh
  | .round script =>
    if s.memory.running then proceed (round settings codec log script s) else s
  | .stop => s.restart .fresh

def run (steps : List Step) : RollupNode V := steps.foldl (next settings codec log) init

end Edr.Rollup
