import Edr.Time

/-!
# The event buffer of an agent

Both agents keep their events in a table of SQLite, `local_event_buffer`, until the collector has
answered for them. A row is `PENDING` or `FAILED`, and belongs to the batch it was first sent in. The
statements are the same in `EventBuffer` of the Windows agent and in that of macOS, except for what
is done when a batch cannot be sent.

* `Windows.makeBatch`, `MacOS.select`: the next batch. Its rows are among those that were read, and
  they have the batch of the first one (`Selects`).
-/

namespace Edr.Agent

open List Nat

/-! ## The table -/

structure Event where
  eventId : String
  eventType : String
  occurredAt : String
  json : String
  deriving DecidableEq

inductive RowStatus
  | pending
  | failed
  deriving DecidableEq

structure RowData where
  endpointId : Option Int
  batchId : Option String
  event : Event
  status : RowStatus
  retryCount : Nat
  lastError : Option String
  nextRetryAt : Option Time
  createdAt : Time
  updatedAt : Time
  deriving DecidableEq

/-- A row of `local_event_buffer`. -/
structure BufferRow where
  /-- `local_event_buffer_id`. -/
  rowId : Nat
  eventId : String
  data : RowData
  deriving DecidableEq

def sampleUuid (digit : String) : String := "0d9a4e5c-7b1f-4c3a-9e21-5f0a6b7c8d9" ++ digit

def sampleTime : String := "2026-07-01T09:00:00.000Z"

/-- The event of a process, as the agents write it. -/
def sampleEvent (eventId : String) : Event where
  eventId
  eventType := "PROCESS_EXECUTION"
  occurredAt := sampleTime
  json := "\x7b\"eventId\":\"" ++ eventId ++
    "\",\"eventType\":\"PROCESS_EXECUTION\",\"occurredAt\":\"" ++ sampleTime ++
    "\",\"payload\":\x7b\"pid\":812,\"processName\":\"sshd\"\x7d\x7d"

namespace BufferRow

abbrev status (r : BufferRow) : RowStatus := r.data.status

abbrev batchId (r : BufferRow) : Option String := r.data.batchId

end BufferRow

structure EventBuffer where
  rows : List BufferRow
  /-- The next id (`AUTOINCREMENT`). -/
  next : Nat
  sorted : rows.Pairwise fun r r' => r.rowId < r'.rowId
  lt_next : ∀ r ∈ rows, r.rowId < next
  /-- `event_id TEXT NOT NULL UNIQUE`. -/
  unique : (rows.map (·.eventId)).Nodup

namespace EventBuffer

def empty : EventBuffer := ⟨[], 1, .nil, fun _ h => absurd h List.not_mem_nil, List.nodup_nil⟩

variable (b : EventBuffer)

/-- `UPDATE local_event_buffer SET f WHERE p`. -/
def update (p : BufferRow → Bool) (f : RowData → RowData) : EventBuffer where
  rows := b.rows.map fun r => if p r then { r with data := f r.data } else r
  next := b.next
  sorted := by
    refine List.pairwise_map.2 (b.sorted.imp fun {r r'} h => ?_)
    split_ifs <;> exact h
  lt_next r h := by
    obtain ⟨r, hr, rfl⟩ := List.mem_map.1 h
    split_ifs <;> exact b.lt_next r hr
  unique := by
    rw [List.map_map]
    convert b.unique using 2
    funext r
    simp only [Function.comp_apply]
    split_ifs <;> rfl

/-- `DELETE FROM local_event_buffer WHERE p`. -/
def delete (p : BufferRow → Bool) : EventBuffer where
  rows := b.rows.filter fun r => !p r
  next := b.next
  sorted := b.sorted.filter _
  lt_next r h := b.lt_next r (List.mem_of_mem_filter h)
  unique := b.unique.sublist (List.filter_sublist.map _)

/-- `INSERT OR IGNORE INTO local_event_buffer`. -/
def insertOrIgnore (eventId : String) (data : RowData) : EventBuffer :=
  if h : eventId ∈ b.rows.map (·.eventId) then b
  else
    { rows := b.rows ++ [⟨b.next, eventId, data⟩]
      next := b.next + 1
      sorted := List.pairwise_append.2 ⟨b.sorted, List.pairwise_singleton _ _, fun r hr r' hr' => by
        rw [List.mem_singleton.1 hr']
        exact b.lt_next r hr⟩
      lt_next := fun r hr => by
        rcases List.mem_append.1 hr with hr | hr
        · exact lt_succ_of_lt (b.lt_next r hr)
        · rw [List.mem_singleton.1 hr]
          exact lt_succ_self _
      unique := by
        rw [List.map_append, List.map_singleton]
        refine List.nodup_append.2 ⟨b.unique, List.nodup_singleton _, fun a ha a' ha' e => h ?_⟩
        have he : a = eventId := e.trans (List.mem_singleton.1 ha')
        rwa [← he] }

variable {b} {r : BufferRow}

theorem mem_update {p : BufferRow → Bool} {f : RowData → RowData} :
    r ∈ (b.update p f).rows ↔
      ∃ r₀ ∈ b.rows, (if p r₀ then { r₀ with data := f r₀.data } else r₀) = r :=
  mem_map

theorem mem_delete {p : BufferRow → Bool} : r ∈ (b.delete p).rows ↔ r ∈ b.rows ∧ p r = false := by
  rw [delete, mem_filter, Bool.not_eq_true']

theorem nodup_rowIds (b : EventBuffer) : (b.rows.map (·.rowId)).Nodup :=
  pairwise_map.2 (b.sorted.imp fun h => ne_of_lt h)

theorem eq_of_rowId {r' : BufferRow} (hr : r ∈ b.rows) (hr' : r' ∈ b.rows) (h : r.rowId = r'.rowId)
    : r = r' :=
  inj_on_of_nodup_map b.nodup_rowIds hr hr' h

theorem eq_of_eventId {r' : BufferRow} (hr : r ∈ b.rows) (hr' : r' ∈ b.rows)
    (h : r.eventId = r'.eventId) : r = r' :=
  inj_on_of_nodup_map b.unique hr hr' h

/-! ## The operations of both agents -/

/-- `SELECT COUNT(*) FROM local_event_buffer WHERE status = ..`. -/
def count (status : RowStatus) (b : EventBuffer) : Nat :=
  b.rows.countP fun r => decide (r.status = status)

end EventBuffer

inductive BufferError
  /-- `event buffer pending capacity full`, `queueFull`. -/
  | pendingCapacityFull
  /-- `single event exceeds 5MiB batch limit`, `eventTooLarge`. -/
  | eventTooLarge
  deriving DecidableEq

structure BufferedRow where
  rowId : Nat
  endpointId : Option Int
  eventId : String
  batchId : Option String
  event : Event
  retryCount : Nat

structure Rejection where
  eventId : String
  code : String
  retryable : Bool

/-- `exponential_backoff`, in seconds. -/
def exponentialBackoff (attempt base cap : Int) : Int :=
  min cap (base * 2 ^ (max 0 (min (attempt - 1) 20)).toNat)

namespace EventBuffer

def enqueue (maxEvents : Nat) (event : Event) (endpointId : Option Int) (now : Time)
    (b : EventBuffer) : Except BufferError EventBuffer :=
  if maxEvents ≤ b.count .pending then .error .pendingCapacityFull
  else .ok (b.insertOrIgnore event.eventId
    ⟨endpointId, none, event, .pending, 0, none, none, now, now⟩)

def buffered (r : BufferRow) : BufferedRow :=
  ⟨r.rowId, r.data.endpointId, r.eventId, r.batchId, r.data.event, r.data.retryCount⟩

def pending (limit : Nat) (now : Time) (b : EventBuffer) : List BufferedRow :=
  ((b.rows.filter fun r => decide (r.status = .pending) &&
    r.data.nextRetryAt.all fun nextRetryAt => decide (nextRetryAt ≤ now)).take limit).map buffered

/-- `assign_batch`. -/
def assign (batchId : String) (rowIds : List Nat) (now : Time) (b : EventBuffer) : EventBuffer :=
  rowIds.foldl (fun b rowId => b.update (fun r => decide (r.rowId = rowId)) fun data =>
    { data with
      batchId := some batchId
      updatedAt := now }) b

def retried (retryable : Bool) (retryCount : Nat) (code : String) (backoff : Nat → Int) (now : Time)
    (data : RowData) : RowData :=
  { data with
    status := if retryable then .pending else .failed
    retryCount := retryCount
    lastError := some code
    nextRetryAt := if retryable then some (now + 1000 * backoff retryCount) else none
    updatedAt := now }

/-- The `retry_count` of a row, and 0 if there is none. -/
def retryCountFor (p : BufferRow → Bool) (b : EventBuffer) : Nat :=
  ((b.rows.find? p).map (·.data.retryCount)).getD 0

def accept (accepted : List String) (b : EventBuffer) : EventBuffer :=
  accepted.foldl (fun b eventId => b.delete fun r => decide (r.eventId = eventId)) b

def reject (backoff : Nat → Int) (now : Time) (b : EventBuffer) (item : Rejection) : EventBuffer :=
  let p : BufferRow → Bool := fun r => decide (r.eventId = item.eventId)
  b.update p (retried item.retryable (b.retryCountFor p + 1) item.code backoff now)

def prune (maxEvents : Nat) (b : EventBuffer) : EventBuffer :=
  let failed := b.rows.filter fun r => decide (r.status = .failed)
  let pruned := (failed.take (b.count .failed - maxEvents)).map (·.rowId)
  b.delete fun r => pruned.contains r.rowId

def applyResult (maxEvents : Nat) (accepted : List String) (rejected : List Rejection)
    (backoff : Nat → Int) (now : Time) (b : EventBuffer) : EventBuffer :=
  (rejected.foldl (reject backoff now) (b.accept accepted)).prune maxEvents

/-- `transport_failure` of the Windows agent. -/
def transportFailure (maxEvents : Nat) (rows : List BufferedRow) (code : String)
    (backoff : Nat → Int) (now : Time) (b : EventBuffer) : EventBuffer :=
  b.applyResult maxEvents [] (rows.map fun row => ⟨row.eventId, code, true⟩) backoff now

/-- `markTransportFailure` of the macOS agent. -/
def markTransportFailure (rowIds : List Nat) (code : String) (backoff : Nat → Int) (now : Time)
    (b : EventBuffer) : EventBuffer :=
  rowIds.foldl (fun b rowId =>
    let p : BufferRow → Bool := fun r => decide (r.rowId = rowId)
    b.update p (retried true (b.retryCountFor p + 1) code backoff now)) b

/-- `retry_now`, `makeRetryableNow`. -/
def retryNow (b : EventBuffer) : EventBuffer :=
  b.update (fun r => decide (r.status = .pending)) fun data => { data with nextRetryAt := none }

def setEndpointId (endpointId : Int) (now : Time) (b : EventBuffer) : EventBuffer :=
  b.update (fun r => r.data.endpointId.isNone) fun data =>
    { data with
      endpointId := some endpointId
      updatedAt := now }

/-! ## Pruning -/

theorem filter_not_mem_take {α κ : Type} [BEq κ] [LawfulBEq κ] (key : α → κ) {l : List α}
    (h : (l.map key).Nodup) (n : Nat) :
    (l.filter fun x => !((l.take n).map key).contains (key x)) = l.drop n := by
  have hdisjoint : ∀ x ∈ l.drop n, key x ∉ (l.take n).map key := by
    rw [← take_append_drop n l, map_append, nodup_append] at h
    intro x hx hkey
    exact h.2.2 _ hkey _ (mem_map_of_mem hx) rfl
  conv_lhs => arg 2; rw [← take_append_drop n l]
  rw [filter_append, filter_eq_nil_iff.2, filter_eq_self.2, nil_append]
  · intro x hx
    rw [Bool.not_eq_true', contains_eq_mem, decide_eq_false_iff_not]
    exact hdisjoint x hx
  · intro x hx
    rw [Bool.not_eq_true', contains_eq_mem, decide_eq_false_iff_not, not_not]
    exact mem_map_of_mem hx

theorem failed_prune (maxEvents : Nat) (b : EventBuffer) :
    (b.prune maxEvents).rows.filter (fun r => decide (r.status = .failed)) =
      (b.rows.filter fun r => decide (r.status = .failed)).drop (b.count .failed - maxEvents) := by
  rw [prune, delete, filter_comm]
  exact filter_not_mem_take BufferRow.rowId (b.nodup_rowIds.sublist (filter_sublist.map _)) _

theorem count_prune (maxEvents : Nat) (b : EventBuffer) :
    (b.prune maxEvents).count .failed = min maxEvents (b.count .failed) := by
  rw [count, countP_eq_length_filter, failed_prune, length_drop, count,
    countP_eq_length_filter]
  omega

variable {b : EventBuffer} {maxEvents : Nat} {r : BufferRow}

theorem mem_take_of_pruned (hr : r ∈ b.rows) (hpruned : r ∉ (b.prune maxEvents).rows) :
    r ∈ (b.rows.filter fun r => decide (r.status = .failed)).take (b.count .failed - maxEvents) := by
  rw [prune, mem_delete, not_and, Bool.not_eq_false, contains_eq_mem, decide_eq_true_eq]
    at hpruned
  obtain ⟨r', hr', hid⟩ := mem_map.1 (hpruned hr)
  exact eq_of_rowId hr (mem_of_mem_filter (mem_of_mem_take hr')) hid.symm ▸ hr'

theorem failed_of_pruned (hr : r ∈ b.rows) (hpruned : r ∉ (b.prune maxEvents).rows) :
    r.status = .failed :=
  of_decide_eq_true (mem_filter.1 (mem_of_mem_take (mem_take_of_pruned hr hpruned))).2

theorem lt_of_pruned {r' : BufferRow} (hr : r ∈ b.rows) (hpruned : r ∉ (b.prune maxEvents).rows)
    (hr' : r' ∈ (b.prune maxEvents).rows) (hfailed' : r'.status = .failed) :
    r.rowId < r'.rowId := by
  have hmem : r' ∈ (b.prune maxEvents).rows.filter fun r => decide (r.status = .failed) :=
    mem_filter.2 ⟨hr', decide_eq_true hfailed'⟩
  rw [failed_prune] at hmem
  have hsorted := b.sorted.filter fun r => decide (r.status = .failed)
  rw [← take_append_drop (b.count .failed - maxEvents)
    (b.rows.filter fun r => decide (r.status = .failed)), pairwise_append] at hsorted
  exact hsorted.2.2 r (mem_take_of_pruned hr hpruned) r' hmem

theorem count_of_pruned (hr : r ∈ b.rows) (hpruned : r ∉ (b.prune maxEvents).rows) :
    (b.prune maxEvents).count .failed = maxEvents := by
  have hpos : b.count .failed - maxEvents ≠ 0 := by
    intro h
    have := mem_take_of_pruned hr hpruned
    rw [h, take_zero] at this
    exact absurd this not_mem_nil
  rw [count_prune]
  omega

end EventBuffer

/-! ## The next batch -/

structure Batch where
  batchId : String
  body : String
  rows : List BufferedRow

/-- The batch that is sent for the rows `rows`: it is that of the first row, or a new one, and it
    consists of rows with the batch of the first one. -/
structure Selects (generated : String) (rows : List BufferedRow) (batch : Batch) : Prop where
  batchId : ∃ first ∈ rows, rows.head? = some first ∧
    batch.batchId = first.batchId.getD generated ∧ ∀ x ∈ batch.rows, x.batchId = first.batchId
  subset : batch.rows ⊆ rows

namespace Windows

/-- What `make_batch` has chosen. -/
structure Chosen where
  rows : List BufferedRow
  events : String
  seen : List String

def Chosen.candidateSize (chosen : Chosen) (envelope : Nat) (row : BufferedRow) : Nat :=
  let separatorSize := if chosen.events.isEmpty then 0 else 1
  envelope + chosen.events.utf8ByteSize + separatorSize + row.event.json.utf8ByteSize

def Chosen.add (chosen : Chosen) (row : BufferedRow) : Chosen where
  rows := chosen.rows ++ [row]
  events := (if chosen.events.isEmpty then "" else chosen.events ++ ",") ++ row.event.json
  seen := row.eventId :: chosen.seen

/-- The loop of `make_batch`, for an envelope of this size. -/
def fill (existingBatchId : Option String) (envelope maxEvents maxBytes : Nat) :
    List BufferedRow → Chosen → Except BufferError Chosen
  | [], chosen => .ok chosen
  | row :: rows, chosen =>
    if row.batchId ≠ existingBatchId then
      fill existingBatchId envelope maxEvents maxBytes rows chosen
    else if maxEvents ≤ chosen.rows.length ∨ row.eventId ∈ chosen.seen then
      fill existingBatchId envelope maxEvents maxBytes rows chosen
    else if maxBytes < chosen.candidateSize envelope row then
      if chosen.rows.isEmpty then .error .eventTooLarge else .ok chosen
    else fill existingBatchId envelope maxEvents maxBytes rows (chosen.add row)

def opening (jsonEscape : String → String) (agentId batchId sentAt : String) : String :=
  "\x7b\"schemaVersion\":1,\"batchId\":\"" ++ batchId ++ "\",\"agentId\":\"" ++
    jsonEscape agentId ++ "\",\"sentAt\":\"" ++ sentAt ++ "\",\"events\":["

def closing : String := "]\x7d"

def makeBatch (jsonEscape : String → String) (agentId sentAt generated : String)
    (maxEvents maxBytes : Nat) (rows : List BufferedRow) : Except BufferError (Option Batch) :=
  match rows with
  | [] => .ok none
  | first :: _ =>
    let batchId := first.batchId.getD generated
    let opening := opening jsonEscape agentId batchId sentAt
    match fill first.batchId (opening.utf8ByteSize + closing.utf8ByteSize) maxEvents maxBytes rows
        ⟨[], "", []⟩ with
    | .error e => .error e
    | .ok chosen =>
      .ok (some ⟨batchId,
        if chosen.rows.isEmpty then "" else opening ++ chosen.events ++ closing, chosen.rows⟩)

theorem fill_spec {existingBatchId : Option String} {envelope maxEvents maxBytes : Nat}
    {rows : List BufferedRow} {chosen chosen' : Chosen}
    (h : fill existingBatchId envelope maxEvents maxBytes rows chosen = .ok chosen') :
    ∀ x ∈ chosen'.rows, x ∈ chosen.rows ∨ x ∈ rows ∧ x.batchId = existingBatchId := by
  induction rows generalizing chosen with
  | nil =>
    cases h
    exact fun x hx => .inl hx
  | cons row rows ih =>
    have hlater {chosen : Chosen}
        (h : fill existingBatchId envelope maxEvents maxBytes rows chosen = .ok chosen') :
        ∀ x ∈ chosen'.rows, x ∈ chosen.rows ∨ x ∈ row :: rows ∧ x.batchId = existingBatchId :=
      fun x hx => (ih h x hx).imp_right fun ⟨hmem, hbatch⟩ => ⟨mem_cons_of_mem row hmem, hbatch⟩
    rw [fill] at h
    split_ifs at h with hbatch hskip hsize hfirst
    · exact hlater h
    · exact hlater h
    · cases h
      exact fun x hx => .inl hx
    · intro x hx
      rcases hlater h x hx with hmem | hmem
      · rcases mem_append.1 hmem with hmem | hmem
        · exact .inl hmem
        · cases mem_singleton.1 hmem
          exact .inr ⟨mem_cons_self, not_not.1 hbatch⟩
      · exact .inr hmem

theorem selects_of_makeBatch {jsonEscape : String → String} {agentId sentAt generated : String}
    {maxEvents maxBytes : Nat} {rows : List BufferedRow} {batch : Batch}
    (h : makeBatch jsonEscape agentId sentAt generated maxEvents maxBytes rows = .ok (some batch)) :
    Selects generated rows batch := by
  cases rows with
  | nil => cases h
  | cons first rows =>
    simp only [makeBatch] at h
    split at h
    · cases h
    · rename_i chosen hfill
      cases h
      have hspec (x) (hx : x ∈ chosen.rows) := (fill_spec hfill x hx).resolve_left not_mem_nil
      exact ⟨⟨first, mem_cons_self, rfl, rfl, fun x hx => (hspec x hx).2⟩,
        fun x hx => (hspec x hx).1⟩

end Windows

namespace MacOS

structure TelemetryBatch where
  batchId : String
  agentId : String
  sentAt : String
  events : List Event

/-- `filter { seen.insert($0.event.eventId).inserted }`. -/
def keepNew : List String → List BufferedRow → List BufferedRow
  | _, [] => []
  | seen, row :: rows =>
    if row.eventId ∈ seen then keepNew seen rows
    else row :: keepNew (row.eventId :: seen) rows

/-- The loop of `select`: the largest number of candidates whose text is not too long, by bisection.
    The interval is halved in each turn, so there are at most as many turns as candidates. -/
def bisect (fits : Nat → Bool) : (turns lowerBound upperBound bestCount : Nat) → Nat
  | 0, _, _, bestCount => bestCount
  | turns + 1, lowerBound, upperBound, bestCount =>
    if lowerBound ≤ upperBound then
      let candidateCount := lowerBound + (upperBound - lowerBound) / 2
      if fits candidateCount then bisect fits turns (candidateCount + 1) upperBound candidateCount
      else bisect fits turns lowerBound (candidateCount - 1) bestCount
    else bestCount

def select (encode : TelemetryBatch → String) (agentId sentAt generated : String)
    (maxEvents maxBodyBytes : Nat) (rows : List BufferedRow) : Except BufferError (Option Batch) :=
  match rows with
  | [] => .ok none
  | first :: _ =>
    let existingBatchId := first.batchId
    let eligibleRows := rows.filter fun row => decide (row.batchId = existingBatchId)
    let batchId := existingBatchId.getD generated
    let candidates := keepNew [] (eligibleRows.take maxEvents)
    if candidates.isEmpty then .ok (some ⟨batchId, "", []⟩)
    else
      let encoded (count : Nat) : String :=
        encode ⟨batchId, agentId, sentAt, (candidates.take count).map (·.event)⟩
      let fits (count : Nat) : Bool := decide ((encoded count).utf8ByteSize ≤ maxBodyBytes)
      if fits 1 then
        let bestCount := bisect fits candidates.length 2 candidates.length 1
        .ok (some ⟨batchId, encoded bestCount, candidates.take bestCount⟩)
      else .error .eventTooLarge

theorem keepNew_subset (seen : List String) (rows : List BufferedRow) : keepNew seen rows ⊆ rows := by
  induction rows generalizing seen with
  | nil => exact .refl _
  | cons row rows ih =>
    rw [keepNew]
    split_ifs
    · exact subset_cons_of_subset row (ih seen)
    · exact cons_subset_cons row (ih _)

theorem selects_of_select {encode : TelemetryBatch → String} {agentId sentAt generated : String}
    {maxEvents maxBodyBytes : Nat} {rows : List BufferedRow} {batch : Batch}
    (h : select encode agentId sentAt generated maxEvents maxBodyBytes rows = .ok (some batch)) :
    Selects generated rows batch := by
  cases rows with
  | nil => cases h
  | cons first rows =>
    simp only [select] at h
    have hmem {x : BufferedRow} (hx : x ∈ keepNew [] (((first :: rows).filter fun row =>
        decide (row.batchId = first.batchId)).take maxEvents)) :
        x ∈ first :: rows ∧ x.batchId = first.batchId := by
      have hx := mem_filter.1 (mem_of_mem_take (keepNew_subset _ _ hx))
      exact ⟨hx.1, of_decide_eq_true hx.2⟩
    split_ifs at h with hempty hfits
    · cases h
      exact ⟨⟨first, mem_cons_self, rfl, rfl, nofun⟩,
        nil_subset _⟩
    · cases h
      exact ⟨⟨first, mem_cons_self, rfl, rfl, fun x hx => (hmem (mem_of_mem_take hx)).2⟩,
        fun x hx => (hmem (mem_of_mem_take hx)).1⟩

end MacOS

/-! ## Back-off in machine integers -/

/-- What a signed integer of `w` bits can hold: an operation that overflows gives nothing. -/
def checked (w : Nat) (n : Int) : Option Int :=
  if -2 ^ (w - 1) ≤ n ∧ n < 2 ^ (w - 1) then some n else none

/-- `exponential_backoff`, in `int`. -/
def Windows.exponentialBackoff (attempt base cap : Int) : Option Int := do
  let previous ← checked 32 (attempt - 1)
  (checked 32 (base * 2 ^ (max 0 (min previous 20)).toNat)).map (min cap)

/-- `exponentialBackoff`, in `Int`. -/
def MacOS.exponentialBackoff (attempt base cap : Int) : Option Int :=
  if 0 < attempt then do
    let previous ← checked 64 (attempt - 1)
    (checked 64 (base * 2 ^ (min previous 20).toNat)).map (min cap)
  else some base

/-- The integers `retryBaseSeconds` and `retryMaxSeconds` that `load` accepts. -/
structure RetrySettings (w : Nat) where
  base : Int
  cap : Int
  base_pos : 0 < base
  base_le_cap : base ≤ cap
  cap_lt : cap < 2 ^ (w - 1)

namespace RetrySettings

variable {w : Nat} (s : RetrySettings w)

/-- The delay before the cap. -/
def product (attempt : Int) : Int := s.base * 2 ^ (min (attempt - 1) 20).toNat

/-- No overflow, and the right delay, which no earlier attempt exceeds. -/
def Lawful (backoff : Int → Int → Int → Option Int) (attempt : Int) : Prop :=
  ∃ delay, backoff attempt s.base s.cap = some delay ∧ delay = min s.cap (s.product attempt) ∧
    s.base ≤ delay ∧ delay ≤ s.cap ∧ ∀ earlier, 1 ≤ earlier → earlier ≤ attempt →
      ∃ delay', backoff earlier s.base s.cap = some delay' ∧ delay' ≤ delay

theorem product_mono {earlier attempt : Int} (h : earlier ≤ attempt) :
    s.product earlier ≤ s.product attempt := by
  have hpow : (2 : Int) ^ (min (earlier - 1) 20).toNat ≤ 2 ^ (min (attempt - 1) 20).toNat :=
    pow_le_pow_right₀ (by decide) (by omega)
  exact mul_le_mul_of_nonneg_left hpow s.base_pos.le

theorem base_le_product (attempt : Int) : s.base ≤ s.product attempt :=
  le_mul_of_one_le_right s.base_pos.le (one_le_pow₀ (by decide))

theorem lawful_iff {backoff : Int → Int → Int → Option Int} {attempt : Int} (h : 1 ≤ attempt)
    (hbackoff : ∀ n, 1 ≤ n → n ≤ attempt →
      backoff n s.base s.cap = (checked w (s.product n)).map (min s.cap)) :
    s.Lawful backoff attempt ↔ s.product attempt < 2 ^ (w - 1) := by
  constructor
  · rintro ⟨delay, hdelay, -⟩
    rw [hbackoff attempt h le_rfl, checked] at hdelay
    split_ifs at hdelay with hfits
    · exact hfits.2
    · cases hdelay
  · intro hfits
    have hsome (n : Int) (hn : 1 ≤ n) (hle : n ≤ attempt) :
        backoff n s.base s.cap = some (min s.cap (s.product n)) := by
      have hpos : 0 ≤ s.product n := s.base_pos.le.trans (s.base_le_product n)
      have hmin : (0 : Int) ≤ 2 ^ (w - 1) := by positivity
      rw [hbackoff n hn hle, checked, if_pos ⟨by omega, (s.product_mono hle).trans_lt hfits⟩,
        Option.map_some]
    refine ⟨_, hsome attempt h le_rfl, rfl, le_min s.base_le_cap (s.base_le_product attempt),
      min_le_left _ _, fun earlier hn hle => ⟨_, hsome earlier hn hle, ?_⟩⟩
    exact min_le_min_left _ (s.product_mono hle)

end RetrySettings

/-- At an attempt, the back-off of both agents is right iff the delay before the cap fits. -/
theorem backoff_lawful_iff (windows : RetrySettings 32) (macOS : RetrySettings 64)
    (attempt : { n : Int // 1 ≤ n ∧ n < 2 ^ 31 }) (attempt' : { n : Int // 1 ≤ n ∧ n < 2 ^ 63 }) :
    (windows.Lawful Windows.exponentialBackoff attempt.1 ↔ windows.product attempt.1 < 2 ^ 31) ∧
      (macOS.Lawful MacOS.exponentialBackoff attempt'.1 ↔ macOS.product attempt'.1 < 2 ^ 63) := by
  have hprevious {w : Nat} {n attempt : Int} (hn : 1 ≤ n) (hle : n ≤ attempt)
      (hlt : attempt < 2 ^ (w - 1)) : checked w (n - 1) = some (n - 1) := if_pos (by omega)
  refine ⟨windows.lawful_iff attempt.2.1 fun n hn hle => ?_,
    macOS.lawful_iff attempt'.2.1 fun n hn hle => ?_⟩
  · have hshift : max 0 (min (n - 1) 20) = min (n - 1) 20 := max_eq_right (by omega)
    rw [Windows.exponentialBackoff, hprevious hn hle attempt.2.2, Option.bind_eq_bind,
      Option.bind_some, hshift, RetrySettings.product]
  · rw [MacOS.exponentialBackoff, if_pos (by omega), hprevious hn hle attempt'.2.2,
      Option.bind_eq_bind, Option.bind_some, RetrySettings.product]

/-- A first delay of an hour overflows at the 21st attempt. -/
theorem exponentialBackoff_hour : ∃ s : RetrySettings 32, s.base = 3600 ∧ s.cap = 86400 ∧
    Windows.exponentialBackoff 21 s.base s.cap = none :=
  ⟨⟨3600, 86400, by decide, by decide, by decide⟩, rfl, rfl, by decide⟩

end Edr.Agent
