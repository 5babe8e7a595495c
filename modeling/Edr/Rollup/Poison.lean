import Edr.Failure.Record
import Edr.Rollup.Buckets
import Edr.Rollup.Worker

/-!
# Messages that stop the worker of the rollup

`DashboardRollupWorker.run_once` on the bytes of a message, where everything it calls works: the
databases answer, S3 and ClickHouse take the record of the failure sink, and the broker takes the
commits. What is left to fail is what the content of a message makes the code itself do:

* a message that cannot be read goes to the failure sink, which cannot record all of these;
* the bucket of a message that can be read is refreshed later. Its query ends an hour later at most,
  which the calendar may not have any more, and asks for an endpoint id that the databases may not
  take.
-/

namespace Edr.Rollup

open List Int

open FailureSink

/-! ## The code -/

/-- What the code is run on: the interpreter, `datetime.fromisoformat`, which is none for a
    `ValueError`, and the endpoint ids that ClickHouse takes for an `Array(UInt64)` and PostgreSQL for
    a `bigint[]`. -/
structure Platform (F : Type) where
  py : Interpreter F
  fromisoformat : Text → Option DateTime
  takesEndpoint : Int → Bool
  takesEndpoint_of_bigint : ∀ id : Int, 0 ≤ id → id < 2 ^ 63 → takesEndpoint id = true

/-- What a call finds: the events in ClickHouse, the frozen dates, and the clocks. -/
structure Moment where
  events : List EventRecord
  frozen : Day → Bool
  now : Time
  clock : Int

structure Station where
  memory : Memory Bytes
  tables : Projection
  sink : World
  commits : List (ConsumedMessage Bytes)

/-- `text.replace("Z", "+00:00")`. -/
def replaceZ (text : Text) : Text :=
  text.flatMap fun c => if c = CodePoint.ofChar 'Z' then Text.ofString "+00:00" else [c]

namespace Platform

variable {F : Type} (platform : Platform F)

/-- `json.loads`: the errors of the decoders are `ValueError`s. -/
def loads (value : Bytes) : Except PyError (Edr.Json F) :=
  match platform.py.loads value with
  | .ok v => .ok v
  | .error .recursion => .error .recursionError
  | .error .unicodeDecode | .error .jsonDecode | .error .intTooLong => .error .valueError

/-- The body of the `try` of `_rollup_identity`. -/
def readIdentity (value : Bytes) : Except PyError (Int × DateTime) := do
  let payload ← platform.loads value
  let event ← payload.subscript "event"
  let endpointId ← platform.py.int (← event.subscript "endpoint_id")
  let text := replaceZ (platform.py.str (← event.subscript "occurred_at"))
  match platform.fromisoformat text with
  | some occurredAt => pure (endpointId, occurredAt)
  | none => throw .valueError

/-- Is the exception one of those that its `except` names? -/
def isCaught : PyError → Bool
  | .keyError | .typeError | .valueError => true
  | .attributeError | .overflowError | .recursionError | .dataError | .badGzip => false

abbrev unusable : WorkerError :=
  .invalidRollupMessage "validated Event message cannot be used for rollup"

def rollupIdentity (value : Bytes) : Except WorkerError MinuteKey :=
  match platform.readIdentity value with
  | .error e =>
    if isCaught e then .error unusable else .error (.other (reprStr e))
  | .ok (endpointId, occurredAt) =>
    match minuteBucket occurredAt with
    | .error _ => .error (.other "date value out of range")
    | .ok bucket => .ok ⟨endpointId, bucket⟩

/-- What raises before the rows of a window are queried: `max(buckets) + MINUTE`, the endpoint ids,
    and the end of the hours of the window. -/
def checkQuery (q : Range) : Except WorkerError Unit :=
  if datetimeMax < q.to_ then .error (.other "date value out of range")
  else if (q.endpointIds.getD []).any fun id => !platform.takesEndpoint id then
    .error (.other "endpoint id out of range")
  else if datetimeMax < (expandedBucketBounds q).to_ then
    .error (.other "year 10000 is out of range")
  else .ok ()

def refreshBuckets (moment : Moment) (bucketKeys : List MinuteKey) (p : Projection) :
    Except WorkerError Projection := do
  (queryWindows (Job.refreshableKeys moment.frozen bucketKeys)).forM platform.checkQuery
  match p.refreshBuckets moment.events moment.frozen moment.now bucketKeys with
  | .ok (_, p) => .ok p
  | .error message => .error (.other message)

end Platform

namespace Station

variable {F : Type} (platform : Platform F) (moment : Moment)

def flush (s : Station) : Except WorkerError Station :=
  if s.memory.dirtyBuckets.isEmpty then .ok s
  else do
    let tables ← platform.refreshBuckets moment s.memory.dirtyBuckets s.tables
    return { s with
      tables
      commits := s.commits ++ orderedMessages s.memory
      memory := { s.memory with
        dirtyBuckets := []
        pendingOffsets := .empty
        lastFlushedAt := moment.clock } }

/-- `_quarantine_invalid_message`: whatever the failure sink raises is raised again. -/
def quarantineInvalidMessage (m : ConsumedMessage Bytes) (error : WorkerError) (s : Station) :
    Except WorkerError Station :=
  match FailureSink.record platform.py m (quarantineRecord error moment.now) (.replicate 5 .ok)
    s.sink with
  | (.returned _, _, sink) => .ok { s with sink, commits := s.commits ++ [m] }
  | (.raised _, _, _) => .error (.other "failure persistence failed")
  | (.stopped, _, _) => .error (.other "stopped")

def mark (key : MinuteKey) (m : ConsumedMessage Bytes) (s : Station) : Station :=
  { s with memory := s.memory.add key m }

/-- The first part of `run_once`: what is done with a message. -/
def handleMessage (m : ConsumedMessage Bytes) (s : Station) : Except WorkerError Station :=
  match platform.rollupIdentity m.value with
  | .ok key => .ok (s.mark key m)
  | .error (.invalidRollupMessage text) => do
    let s ← s.flush platform moment
    s.quarantineInvalidMessage platform moment m (.invalidRollupMessage text)
  | .error e => .error e

def shouldFlush (settings : Settings) (s : Station) : Bool :=
  !s.memory.dirtyBuckets.isEmpty &&
    (decide (settings.maxDirtyBuckets ≤ s.memory.dirtyBuckets.length) ||
      decide (settings.flushInterval ≤ moment.clock - s.memory.lastFlushedAt))

/-- `run_once`, with the message that it consumes. -/
def runOnce (settings : Settings) (m : ConsumedMessage Bytes) (s : Station) :
    Except WorkerError Station := do
  let s ← s.handleMessage platform moment m
  if s.shouldFlush moment settings then s.flush platform moment else .ok s

end Station

/-! ## How a message is read -/

section

variable {F : Type} {platform : Platform F} {value : Bytes}

def Platform.endpointId? (platform : Platform F) (value : Bytes) : Option (Edr.Json F) :=
  (platform.loads value).toOption.bind fun payload =>
    (payload.subscript "event").toOption.bind fun event => (event.subscript "endpoint_id").toOption

def DateTime.InCalendar (t : DateTime) : Prop :=
  ∀ offset ∈ t.utcOffset, datetimeMin ≤ t.wall - offset ∧ t.wall - offset ≤ datetimeMax

/-- The content of a message makes `_rollup_identity` raise what it does not catch: its value is
    nested too deep, its endpoint id is infinite, or its time is not in the calendar in UTC. -/
inductive Escapes (platform : Platform F) (value : Bytes) : Prop
  | deep (h : platform.py.loads value = .error .recursion)
  | infinite (negative : Bool) (h : platform.endpointId? value = some (.float (.infinity negative)))
  | calendar (endpointId : Int) (occurredAt : DateTime)
      (h : platform.readIdentity value = .ok (endpointId, occurredAt))
      (hcalendar : ¬occurredAt.InCalendar)

theorem exists_utc_iff {t : DateTime} : (∃ u, utc t = .ok u) ↔ t.InCalendar := by
  obtain ⟨wall, _ | offset⟩ := t
  · simp [utc, DateTime.InCalendar]
  · simp only [utc, DateTime.InCalendar, Option.mem_def, Option.some.injEq, forall_eq']
    split_ifs with h
    · exact iff_of_true ⟨_, rfl⟩ h
    · exact iff_of_false (by simp) h

theorem isCaught_of_subscript {v : Edr.Json F} {key : String} {e : PyError}
    (h : v.subscript key = .error e) : Platform.isCaught e = true := by
  unfold Json.subscript at h
  split at h
  · split at h <;> cases h
    rfl
  all_goals
    cases h
    rfl

theorem int_cases (py : Interpreter F) (v : Edr.Json F) :
    (∃ negative, v = .float (.infinity negative) ∧ py.int v = .error .overflowError) ∨
      (∀ negative, v ≠ .float (.infinity negative)) ∧
        ((∃ n, py.int v = .ok n) ∨ ∃ e, py.int v = .error e ∧ Platform.isCaught e = true) := by
  rcases v with _ | _ | _ | (_ | _ | _) | text | _ | _
  case string =>
    rw [Interpreter.int]
    cases py.parseInt text <;> simp [Platform.isCaught]
  all_goals simp [Interpreter.int, Platform.isCaught]

/-- What the body of the `try` raises is caught, but for a value that is nested too deep, and for an
    endpoint id that is infinite. -/
theorem isCaught_iff {e : PyError} (h : platform.readIdentity value = .error e) :
    Platform.isCaught e = false ↔ platform.py.loads value = .error .recursion ∨
      ∃ negative, platform.endpointId? value = some (.float (.infinity negative)) := by
  have hdeep : platform.py.loads value = .error .recursion ↔
      platform.loads value = .error .recursionError := by
    rw [Platform.loads]
    rcases platform.py.loads value with (_ | _ | _ | _) | _ <;> simp
  rw [Platform.readIdentity] at h
  rw [Platform.endpointId?, hdeep]
  -- Where a step before `int` raises, there is no endpoint id.
  rcases hloads : platform.loads value with e' | payload
  · rw [hloads] at h
    cases h
    have hcaught : Platform.isCaught e = true ∨ e = .recursionError := by
      rw [Platform.loads] at hloads
      rcases hpy : platform.py.loads value with (_ | _ | _ | _) | _ <;> rw [hpy] at hloads <;>
        cases hloads <;> simp [Platform.isCaught]
    rcases hcaught with hcaught | rfl
    · have hne : e ≠ .recursionError := by
        rintro rfl
        cases hcaught
      simp [hcaught, hne, Except.toOption]
    · simp [Platform.isCaught]
  rcases hevent : payload.subscript "event" with e' | event
  · simp only [hloads, hevent, bind, Except.bind] at h
    cases h
    simp [hevent, isCaught_of_subscript hevent, Except.toOption]
  rcases hid : event.subscript "endpoint_id" with e' | id
  · simp only [hloads, hevent, hid, bind, Except.bind] at h
    cases h
    simp [hevent, hid, isCaught_of_subscript hid, Except.toOption]
  simp only [hloads, hevent, hid, bind, Except.bind] at h
  simp only [hevent, hid, Except.toOption, Option.bind_some, Option.some.injEq, reduceCtorEq,
    false_or]
  rcases int_cases platform.py id with
    ⟨negative, rfl, hint⟩ | ⟨hfinite, ⟨n, hint⟩ | ⟨e', hint, hcaught⟩⟩
  · rw [hint] at h
    cases h
    simp [Platform.isCaught]
  · -- What comes after `int` is caught.
    have hcaught : Platform.isCaught e = true := by
      rw [hint] at h
      rcases htime : event.subscript "occurred_at" with e' | time
      · simp only [htime] at h
        cases h
        exact isCaught_of_subscript htime
      · simp only [htime] at h
        split at h <;> cases h
        rfl
    simp [hcaught, hfinite]
  · rw [hint] at h
    cases h
    simp [hcaught, hfinite]

theorem endpointId_of_readIdentity {endpointId : Int} {occurredAt : DateTime}
    (h : platform.readIdentity value = .ok (endpointId, occurredAt)) :
    (∃ payload, platform.py.loads value = .ok payload) ∧
      ∃ id, platform.endpointId? value = some id ∧ platform.py.int id = .ok endpointId := by
  obtain ⟨payload, hloads, h⟩ := bind_eq_ok.1 h
  obtain ⟨event, hevent, h⟩ := bind_eq_ok.1 h
  obtain ⟨id, hid, h⟩ := bind_eq_ok.1 h
  obtain ⟨n, hint, h⟩ := bind_eq_ok.1 h
  obtain ⟨time, -, h⟩ := bind_eq_ok.1 h
  have hn : n = endpointId := by
    dsimp only at h
    split at h <;> cases h
    rfl
  refine ⟨?_, id, ?_, hn ▸ hint⟩
  · rw [Platform.loads] at hloads
    rcases hpy : platform.py.loads value with (_ | _ | _ | _) | v <;> rw [hpy] at hloads <;>
      cases hloads
    exact ⟨payload, rfl⟩
  · simp [Platform.endpointId?, hloads, hevent, hid, Except.toOption]

theorem rollupIdentity_cases (platform : Platform F) (value : Bytes) :
    (Escapes platform value ∧ ∃ text, platform.rollupIdentity value = .error (.other text)) ∨
    (¬Escapes platform value ∧ (∀ x, platform.readIdentity value ≠ .ok x) ∧
      platform.rollupIdentity value = .error Platform.unusable) ∨
    (¬Escapes platform value ∧ ∃ endpointId occurredAt t,
      platform.readIdentity value = .ok (endpointId, occurredAt) ∧ utc occurredAt = .ok t ∧
        platform.rollupIdentity value = .ok ⟨endpointId, startOfMinute t⟩) := by
  rw [Platform.rollupIdentity]
  rcases hread : platform.readIdentity value with e | ⟨endpointId, occurredAt⟩
  · have hcaught := isCaught_iff hread
    by_cases he : Platform.isCaught e = true
    · refine .inr (.inl ⟨fun hescapes => ?_, fun _ => by simp, if_pos he⟩)
      have hnot := mt hcaught.2 (by simp [he])
      rcases hescapes with h | ⟨negative, h⟩ | ⟨_, _, h⟩
      · exact hnot (.inl h)
      · exact hnot (.inr ⟨negative, h⟩)
      · cases hread.symm.trans h
    · refine .inl ⟨?_, _, if_neg he⟩
      rcases hcaught.1 (Bool.not_eq_true _ ▸ he) with h | ⟨negative, h⟩
      · exact .deep h
      · exact .infinite negative h
  · by_cases hcalendar : occurredAt.InCalendar
    · obtain ⟨t, ht⟩ := exists_utc_iff.2 hcalendar
      refine .inr (.inr ⟨fun hescapes => ?_, endpointId, occurredAt, t, rfl, ht, ?_⟩)
      · obtain ⟨⟨payload, hpayload⟩, id, hid, hint⟩ := endpointId_of_readIdentity hread
        rcases hescapes with h | ⟨negative, h⟩ | ⟨_, _, h, hnot⟩
        · cases hpayload.symm.trans h
        · cases hid.symm.trans h
          cases hint
        · cases hread.symm.trans h
          exact hnot hcalendar
      · simp only [minuteBucket, ht]
        rfl
    · refine .inl ⟨.calendar endpointId occurredAt hread hcalendar, "date value out of range", ?_⟩
      rcases hu : utc occurredAt with e | t
      · simp only [minuteBucket, hu]
        rfl
      · exact absurd (exists_utc_iff.1 ⟨t, hu⟩) hcalendar

/-! ## When a flush returns -/

def lastHour : Time := datetimeMax + 1 - hourLength

/-- The query of the bucket can be asked: the databases take its endpoint, and its hour ends in the
    calendar. -/
def Platform.Queryable {F : Type} (platform : Platform F) (key : MinuteKey) : Prop :=
  platform.takesEndpoint key.endpointId = true ∧ key.bucketStartAt < lastHour

def Platform.QueryableAll {F : Type} (platform : Platform F) (moment : Moment)
    (bucketKeys : List MinuteKey) : Prop :=
  ∀ key ∈ Job.refreshableKeys moment.frozen bucketKeys, platform.Queryable key

variable {moment : Moment} {q : Range} {keys : List MinuteKey} {s s' : Station}

theorem checkQuery_eq_ok : platform.checkQuery q = .ok () ↔ q.to_ ≤ datetimeMax ∧
    (∀ id ∈ q.endpointIds.getD [], platform.takesEndpoint id = true) ∧
      (expandedBucketBounds q).to_ ≤ datetimeMax := by
  rw [Platform.checkQuery]
  split_ifs with h₀ h₁ h₂
  · simp [not_le.2 h₀]
  · simp only [any_eq_true, Bool.not_eq_true'] at h₁
    obtain ⟨id, hid, hno⟩ := h₁
    refine iff_of_false nofun ?_
    exact fun ⟨_, hall, _⟩ => absurd (hall id hid) (by simp [hno])
  · simp [not_le.2 h₂]
  · simp only [any_eq_true, Bool.not_eq_true', not_exists, not_and, Bool.not_eq_false] at h₁
    exact iff_of_true rfl ⟨not_lt.1 h₀, h₁, not_lt.1 h₂⟩

theorem expanded_le_iff (hq : q.Aligned) :
    (expandedBucketBounds q).to_ ≤ datetimeMax ↔ q.to_ - minuteLength < lastHour := by
  rw [(expandedBucketBounds_eq hq).2]
  obtain ⟨-, hto⟩ := hq
  unfold startOfHour lastHour datetimeMax hourLength
  unfold minuteLength at *
  grind

theorem forall_checkQuery_iff (hkeys : AlignedKeys keys) :
    (∀ q ∈ queryWindows keys, platform.checkQuery q = .ok ()) ↔
      ∀ key ∈ keys, platform.Queryable key := by
  constructor
  · intro h key hk
    have hw : queryWindow key.bucketStartAt ∈ windows keys := mem_windows.2 ⟨key, hk, rfl⟩
    obtain ⟨-, hids, hend⟩ := checkQuery_eq_ok.1 (h _ (mem_map_of_mem hw))
    obtain ⟨-, hto, hends⟩ := hasKey_iff.1 (hasKey_windowRange hk)
    rw [expanded_le_iff (windowRange_bounds hkeys hw).1] at hend
    refine ⟨hids _ (of_decide_eq_true hends), ?_⟩
    have haligned := hkeys key hk
    have hbounds := (windowRange_bounds hkeys hw).1.2
    unfold minuteLength at *
    grind
  · intro h q hq
    obtain ⟨w, hw, rfl⟩ := mem_map.1 hq
    obtain ⟨key, hk, hkw⟩ := mem_windows.1 hw
    -- The last bucket of the window is that of a key.
    have hne : (inWindow w keys).map (·.bucketStartAt) ≠ [] :=
      ne_nil_of_mem (mem_map_of_mem (mem_inWindow.2 ⟨hk, hkw⟩))
    obtain ⟨k, hkin, hlatest⟩ := mem_map.1 (latest_mem hne).1
    have hlast := (h k (mem_inWindow.1 hkin).1).2
    have hend : (windowRange (inWindow w keys)).to_ - minuteLength < lastHour := by
      rw [windowRange, ← hlatest]
      grind
    refine checkQuery_eq_ok.2 ⟨?_, fun id hid => ?_,
      (expanded_le_iff (windowRange_bounds hkeys hw).1).2 hend⟩
    · unfold lastHour hourLength minuteLength at *
      grind
    · obtain ⟨k, hkin, rfl⟩ := mem_map.1 (mem_dedup.1 hid)
      exact (h k (mem_inWindow.1 hkin).1).1

theorem exists_refreshBuckets_iff {bucketKeys : List MinuteKey} {p : Projection} :
    (∃ p', platform.refreshBuckets moment bucketKeys p = .ok p') ↔
      platform.QueryableAll moment bucketKeys := by
  rw [Platform.QueryableAll,
    ← forall_checkQuery_iff (alignedKeys_refreshableKeys moment.frozen bucketKeys), ← forM_eq_ok]
  obtain ⟨result, p', h, -⟩ := refreshBuckets_spec moment.events moment.now p
    (rfl : Job.refreshableKeys moment.frozen bucketKeys = _)
  constructor
  · rintro ⟨p', hp'⟩
    exact (bind_eq_ok.1 hp').choose_spec.1
  · intro hchecks
    refine ⟨p', bind_eq_ok.2 ⟨_, hchecks, ?_⟩⟩
    rw [h]

theorem exists_flush_iff :
    (∃ s', s.flush platform moment = .ok s') ↔
      platform.QueryableAll moment s.memory.dirtyBuckets := by
  rw [Station.flush]
  split_ifs with hempty
  · refine iff_of_true ⟨s, rfl⟩ fun key hk => ?_
    rw [isEmpty_iff.1 hempty] at hk
    exact absurd hk not_mem_nil
  · rw [← exists_refreshBuckets_iff]
    constructor
    · rintro ⟨s', hs'⟩
      obtain ⟨p', hp', -⟩ := bind_eq_ok.1 hs'
      exact ⟨p', hp'⟩
    · rintro ⟨p', hp'⟩
      exact ⟨_, bind_eq_ok.2 ⟨p', hp', rfl⟩⟩

theorem dirtyBuckets_flush (h : s.flush platform moment = .ok s') :
    s'.memory.dirtyBuckets = [] ∧ s'.sink = s.sink := by
  rw [Station.flush] at h
  split_ifs at h with hempty
  · cases h
    exact ⟨isEmpty_iff.1 hempty, rfl⟩
  · obtain ⟨p', -, hp'⟩ := bind_eq_ok.1 h
    cases hp'
    exact ⟨rfl, rfl⟩

end

/-! ## `run_once` -/

def Moment.failure (moment : Moment) : FailureRecord :=
  quarantineRecord Platform.unusable moment.now

section

variable {F : Type} (platform : Platform F) (moment : Moment) (settings : Settings)

def Moment.failureId (m : ConsumedMessage Bytes) : UUID :=
  failureIdFor platform.py m moment.failure.consumerName moment.failure.failureStage

/-- What the sink holds of the message is what an attempt to record it leaves. -/
def SinkReady (m : ConsumedMessage Bytes) (w : World) : Prop :=
  ∀ v payload, failureMessage platform.py m.value = .ok v →
    deterministicFailurePayload platform.py (envelope m moment.failure v) = .ok payload →
      Traces platform.py (moment.failureId platform m) payload w

/-- The message is dealt with: its bucket is marked, and flushed where a flush is due, or it is in the
    failure sink, and is committed. -/
inductive Handled (m : ConsumedMessage Bytes) (s s' : Station) : Prop
  | marked (key : MinuteKey) (hkey : platform.rollupIdentity m.value = .ok key)
      (h : s' = s.mark key m ∨ (s.mark key m).flush platform moment = .ok s')
  | quarantined (row : FailureRow) (hrow : s'.sink.latest (moment.failureId platform m) = some row)
      (hstatus : row.status = .failed) (hcommit : s'.commits.getLast? = some m)

/-- The worker can deal with the message. -/
structure Tolerable (m : ConsumedMessage Bytes) (s : Station) : Prop where
  /-- Its content is not one for which `_rollup_identity` raises what it does not catch. -/
  identity : ¬Escapes platform m.value
  invalid : (∀ x, platform.readIdentity m.value ≠ .ok x) →
    Recordable platform.py m.value ∧ platform.QueryableAll moment s.memory.dirtyBuckets
  valid : ∀ endpointId occurredAt t, platform.readIdentity m.value = .ok (endpointId, occurredAt) →
    utc occurredAt = .ok t →
      (s.mark ⟨endpointId, startOfMinute t⟩ m).shouldFlush moment settings = true →
        platform.QueryableAll moment (s.memory.dirtyBuckets.insert ⟨endpointId, startOfMinute t⟩)

variable {platform moment settings} {m : ConsumedMessage Bytes} {s s' : Station}

theorem exists_quarantine_iff (hm : FailureSink.InRange m)
    (hsink : SinkReady platform moment m s.sink) :
    (∃ s', s.quarantineInvalidMessage platform moment m Platform.unusable = .ok s') ↔
        Recordable platform.py m.value := by
  rw [Station.quarantineInvalidMessage]
  constructor
  · rintro ⟨s', hs'⟩
    split at hs'
    · exact recordable_of_record hm ‹_›
    all_goals cases hs'
  · intro hrecordable
    obtain ⟨v, payload, n, hv, hpayload, hn⟩ := (recordable_iff moment.failure hm).1 hrecordable
    have htraces := hsink v payload hv hpayload
    rw [Moment.failureId] at htraces
    obtain ⟨rest, hrun⟩ := working_sample.run (record_yields htraces hv hpayload hn) Nat.le.refl
    rw [Moment.failure] at hrun
    rw [hrun]
    exact ⟨_, rfl⟩

theorem quarantine_spec (hm : FailureSink.InRange m) (hsink : SinkReady platform moment m s.sink)
    (h : s.quarantineInvalidMessage platform moment m Platform.unusable = .ok s') :
    s'.memory = s.memory ∧ s'.commits.getLast? = some m ∧
      ∃ row, s'.sink.latest (moment.failureId platform m) = some row ∧ row.status = .failed := by
  obtain ⟨v, payload, n, hv, hpayload, hn⟩ := (recordable_iff moment.failure hm).1
    ((exists_quarantine_iff hm hsink).1 ⟨s', h⟩)
  have htraces := hsink v payload hv hpayload
  rw [Moment.failureId] at htraces ⊢
  obtain ⟨rest, hrun⟩ := working_sample.run (record_yields htraces hv hpayload hn) Nat.le.refl
  obtain ⟨row, hrow⟩ := exists_latest_recorded platform.py m moment.failure v n payload s.sink
  have hstatus := (htraces.recorded.row row (mem_of_latest hrow)).1
  have hs' : s' = { s with
      sink := recorded platform.py m moment.failure v n payload s.sink
      commits := s.commits ++ [m] } := by
    rw [Moment.failure] at hrun
    rw [Station.quarantineInvalidMessage, hrun] at h
    exact (Except.ok.inj h).symm
  rw [hs']
  exact ⟨rfl, getLast?_concat, row, hrow, hstatus⟩

variable (platform moment settings s) in
theorem exists_flushIfDue_iff :
    (∃ s', (if s.shouldFlush moment settings then s.flush platform moment else .ok s) = .ok s') ↔
      (s.shouldFlush moment settings = true →
        platform.QueryableAll moment s.memory.dirtyBuckets) := by
  split_ifs with hdue
  · rw [exists_flush_iff]
    exact ⟨fun h _ => h, fun h => h hdue⟩
  · exact iff_of_true ⟨s, rfl⟩ fun h => absurd h hdue

theorem shouldFlush_eq_false (h : s.memory.dirtyBuckets = []) :
    s.shouldFlush moment settings = false := by
  rw [Station.shouldFlush, h]
  rfl

theorem handleMessage_invalid (hid : platform.rollupIdentity m.value = .error Platform.unusable) :
    s.handleMessage platform moment m =
      (s.flush platform moment >>=
        fun s => s.quarantineInvalidMessage platform moment m Platform.unusable) := by
  rw [Station.handleMessage, hid]

theorem runOnce_valid {key : MinuteKey} (hid : platform.rollupIdentity m.value = .ok key) :
    s.runOnce platform moment settings m =
      if (s.mark key m).shouldFlush moment settings then (s.mark key m).flush platform moment
      else .ok (s.mark key m) := by
  rw [Station.runOnce, Station.handleMessage, hid]
  rfl

theorem tolerable_of_runOnce (hm : FailureSink.InRange m)
    (hsink : SinkReady platform moment m s.sink)
    (h : s.runOnce platform moment settings m = .ok s') :
    Tolerable platform moment settings m s := by
  rcases rollupIdentity_cases platform m.value with ⟨_, text, hid⟩ | ⟨hescapes, hread, hid⟩ |
    ⟨hescapes, endpointId, occurredAt, t, hread, hutc, hid⟩
  · -- The exception would have left `run_once`.
    rw [Station.runOnce, Station.handleMessage, hid] at h
    cases h
  · obtain ⟨s₂, h₂, -⟩ := bind_eq_ok.1 h
    rw [handleMessage_invalid hid] at h₂
    obtain ⟨s₁, hflush, hquarantine⟩ := bind_eq_ok.1 h₂
    obtain ⟨-, hsame⟩ := dirtyBuckets_flush hflush
    refine ⟨hescapes, fun _ => ⟨?_, exists_flush_iff.1 ⟨s₁, hflush⟩⟩,
      fun _ _ _ h => absurd h (hread _)⟩
    exact (exists_quarantine_iff hm (hsame ▸ hsink)).1 ⟨s₂, hquarantine⟩
  · refine ⟨hescapes, fun h => absurd hread (h _), fun _ _ _ hread' hutc' hdue => ?_⟩
    cases hread.symm.trans hread'
    cases hutc.symm.trans hutc'
    rw [runOnce_valid hid] at h
    exact (exists_flushIfDue_iff platform moment settings _).1 ⟨s', h⟩ hdue

theorem runOnce_of_tolerable (hm : FailureSink.InRange m)
    (hsink : SinkReady platform moment m s.sink) (h : Tolerable platform moment settings m s) :
    ∃ s', s.runOnce platform moment settings m = .ok s' ∧ Handled platform moment m s s' := by
  rcases rollupIdentity_cases platform m.value with ⟨hescapes, _⟩ | ⟨_, hread, hid⟩ |
    ⟨_, endpointId, occurredAt, t, hread, hutc, hid⟩
  · exact absurd hescapes h.identity
  · obtain ⟨hrecordable, hdirty⟩ := h.invalid hread
    obtain ⟨s₁, hflush⟩ := exists_flush_iff.2 hdirty
    obtain ⟨hempty, hsame⟩ := dirtyBuckets_flush hflush
    have hsink₁ : SinkReady platform moment m s₁.sink := hsame ▸ hsink
    obtain ⟨s₂, hquarantine⟩ := (exists_quarantine_iff hm hsink₁).2 hrecordable
    obtain ⟨hmemory, hcommit, row, hrow, hstatus⟩ := quarantine_spec hm hsink₁ hquarantine
    refine ⟨s₂, bind_eq_ok.2 ⟨s₂, ?_, ?_⟩, .quarantined row hrow hstatus hcommit⟩
    · rw [handleMessage_invalid hid]
      exact bind_eq_ok.2 ⟨s₁, hflush, hquarantine⟩
    · -- Nothing is dirty any more, so no other flush is due.
      rw [shouldFlush_eq_false (by rw [hmemory, hempty])]
      rfl
  · obtain ⟨s', hs'⟩ := (exists_flushIfDue_iff platform moment settings
      (s.mark ⟨endpointId, startOfMinute t⟩ m)).2 (h.valid endpointId occurredAt t hread hutc)
    refine ⟨s', (runOnce_valid hid).trans hs', .marked _ hid ?_⟩
    split_ifs at hs'
    · exact .inr hs'
    · exact .inl (Except.ok.inj hs').symm

/-- CPython, with one time that it reads, and databases that take what both columns take. -/
def Platform.sample : Platform WrittenFloat where
  py := cpython
  fromisoformat text :=
    if text = Text.ofString "2026-07-01T09:00:00+00:00" then some ⟨1782896400000, some 0⟩ else none
  takesEndpoint id := decide (0 ≤ id) && decide (id < 2 ^ 63)
  takesEndpoint_of_bigint id h₀ h₁ := by rw [decide_eq_true h₀, decide_eq_true h₁, Bool.and_self]

/-- A minute after that time. -/
def Moment.sample : Moment := ⟨[], fun _ => false, 1782896460000, 60⟩

def validatedMessage (value : Bytes) : ConsumedMessage Bytes :=
  .ofSlot ⟨⟨"telemetry.validated", 0⟩, 7⟩ value

def Station.fresh : Station := ⟨.fresh, .empty, emptyWorld, []⟩

def Settings.sample : Settings := ⟨5, 250, 24, 5, 1, 3600, 24, by decide, by decide⟩

theorem inRange_validatedMessage (value : Bytes) : FailureSink.InRange (validatedMessage value) :=
  ⟨show 0 < 2 ^ 31 by decide, show 7 < 2 ^ 63 by decide⟩

theorem sinkReady_fresh (m : ConsumedMessage Bytes) :
    SinkReady platform moment m Station.fresh.sink :=
  fun _ payload _ _ => Untouched.traces ⟨rfl, rfl⟩ payload

/-- An event of a day that is not a date. -/
def undatedEvent : Edr.Json WrittenFloat :=
  .object [(Text.ofString "event", .object [(Text.ofString "endpoint_id", .int 7),
      (Text.ofString "occurred_at", .ofString "yesterday")]),
    (Text.ofString "raw", .object [(Text.ofString "event", .object [(Text.ofString "payload",
      .object [(Text.ofString "pid", .int 812)])])])]

@[irreducible]
def undatedMessage : ConsumedMessage Bytes := validatedMessage (bytesOf undatedEvent)

def infiniteMessage : ConsumedMessage Bytes :=
  validatedMessage (asciiBytes "\x7b\"event\":\x7b\"endpoint_id\":Infinity\x7d\x7d")

end

end Edr.Rollup
