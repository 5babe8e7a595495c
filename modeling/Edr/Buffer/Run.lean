import Edr.Buffer
import Edr.Lib.System

/-!
# Sending the events

The cycle of the agents that sends what is in the buffer: the pending rows are read, a batch is
selected of them, its rows are assigned to it and it is sent. Then the result of the collector is
applied, or the failure to get one. New events may come at any time, the retry times be cleared, and
the cycle be given up to start over.
-/

namespace Edr.Agent

open List Nat

open EventBuffer

/-! ## What becomes of the rows -/

structure SameRow (r r' : BufferRow) : Prop where
  rowId : r'.rowId = r.rowId
  eventId : r'.eventId = r.eventId
  batchId : r'.batchId = r.batchId

theorem SameRow.refl (r : BufferRow) : SameRow r r := ⟨rfl, rfl, rfl⟩

theorem SameRow.trans {r r' r'' : BufferRow} (h : SameRow r r') (h' : SameRow r' r'') :
    SameRow r r'' :=
  ⟨h'.rowId.trans h.rowId, h'.eventId.trans h.eventId, h'.batchId.trans h.batchId⟩

theorem count_le_of_origin {b₀ b : EventBuffer} {status : RowStatus}
    (h : ∀ r ∈ b.rows, r.status = status → ∃ r₀ ∈ b₀.rows, r₀.rowId = r.rowId ∧ r₀.status = status) :
    b.count status ≤ b₀.count status := by
  have hsubset : ((b.rows.filter fun r => decide (r.status = status)).map (·.rowId)) ⊆
      (b₀.rows.filter fun r => decide (r.status = status)).map (·.rowId) := by
    intro id hid
    obtain ⟨r, hr, rfl⟩ := mem_map.1 hid
    obtain ⟨hr, hstatus⟩ := mem_filter.1 hr
    obtain ⟨r₀, hr₀, hid, hstatus₀⟩ := h r hr (of_decide_eq_true hstatus)
    exact mem_map.2 ⟨r₀, mem_filter.2 ⟨hr₀, decide_eq_true hstatus₀⟩, hid⟩
  have hnodup := b.nodup_rowIds.sublist
    ((filter_sublist (p := fun r => decide (r.status = status))).map _)
  have hle := (subperm_of_subset hnodup hsubset).length_le
  rwa [length_map, length_map, ← countP_eq_length_filter,
    ← countP_eq_length_filter] at hle

/-- What is left of the rows of a buffer, where the events `lost` may be removed or fail. -/
structure Evolves (lost : List String) (b b' : EventBuffer) : Prop where
  next : b'.next = b.next
  kept : ∀ r ∈ b.rows, r.status = .pending → r.eventId ∉ lost →
    ∃ r' ∈ b'.rows, SameRow r r' ∧ r'.status = .pending
  origin : ∀ r' ∈ b'.rows, ∃ r ∈ b.rows, SameRow r r' ∧
    (r'.status = .pending → r.status = .pending) ∧
    (r'.status = .failed → r.status = .failed ∨ r.eventId ∈ lost)

namespace Evolves

variable {lost : List String} {b₀ b : EventBuffer}

theorem refl (b : EventBuffer) : Evolves lost b b :=
  ⟨rfl, fun r hr hpending _ => ⟨r, hr, .refl r, hpending⟩,
    fun r hr => ⟨r, hr, .refl r, fun h => h, .inl⟩⟩

variable {p : BufferRow → Bool}

/-- A statement that changes rows: those that become pending were so at first, and those that fail
    may be lost. -/
theorem update (h : Evolves lost b₀ b) {f : RowData → RowData}
    (hbatch : ∀ data, (f data).batchId = data.batchId)
    (hpending : ∀ r ∈ b.rows, p r = true → (f r.data).status = .pending →
      ∀ r₀ ∈ b₀.rows, SameRow r₀ r → r₀.status = .pending)
    (hfailed : ∀ r ∈ b.rows, p r = true → (f r.data).status = .failed →
      r.status = .failed ∨ r.eventId ∈ lost) : Evolves lost b₀ (b.update p f) := by
  have hsame (r : BufferRow) : SameRow r (if p r then { r with data := f r.data } else r) := by
    split_ifs
    · exact ⟨rfl, rfl, hbatch r.data⟩
    · exact .refl r
  refine ⟨h.next, fun r₀ hr₀ hpending₀ hlost => ?_, fun r' hr' => ?_⟩
  · obtain ⟨r, hr, hrow, hstatus⟩ := h.kept r₀ hr₀ hpending₀ hlost
    refine ⟨_, mem_update.2 ⟨r, hr, rfl⟩, hrow.trans (hsame r), ?_⟩
    split_ifs with hp
    · cases hf : (f r.data).status with
      | pending => exact hf
      | failed =>
        rcases hfailed r hr hp hf with hfail | hfail
        · cases hstatus.symm.trans hfail
        · exact absurd (hrow.eventId ▸ hfail) hlost
    · exact hstatus
  · obtain ⟨r, hr, rfl⟩ := mem_update.1 hr'
    obtain ⟨r₀, hr₀, hrow, hpending₀, hfailed₀⟩ := h.origin r hr
    refine ⟨r₀, hr₀, hrow.trans (hsame r), ?_⟩
    split_ifs with hp
    · refine ⟨fun hf => hpending r hr hp hf r₀ hr₀ hrow, fun hf => ?_⟩
      rcases hfailed r hr hp hf with hfail | hfail
      · exact hfailed₀ hfail
      · exact .inr (hrow.eventId ▸ hfail)
    · exact ⟨hpending₀, hfailed₀⟩

theorem update_status (h : Evolves lost b₀ b) {f : RowData → RowData}
    (hbatch : ∀ data, (f data).batchId = data.batchId)
    (hstatus : ∀ data, (f data).status = data.status) : Evolves lost b₀ (b.update p f) := by
  refine h.update hbatch (fun r hr _ hf r₀ hr₀ hrow => ?_) fun r _ _ hf => ?_
  · obtain ⟨r₁, hr₁, hrow₁, hpending, -⟩ := h.origin r hr
    rw [eq_of_rowId hr₀ hr₁ (hrow.rowId.symm.trans hrow₁.rowId)]
    exact hpending ((hstatus _).symm.trans hf)
  · exact .inl ((hstatus _).symm.trans hf)

theorem delete (h : Evolves lost b₀ b)
    (hp : ∀ r ∈ b.rows, p r = true → r.status = .failed ∨ r.eventId ∈ lost) :
    Evolves lost b₀ (b.delete p) := by
  refine ⟨h.next, fun r₀ hr₀ hpending₀ hlost => ?_, fun r hr => h.origin r (mem_delete.1 hr).1⟩
  obtain ⟨r, hr, hrow, hstatus⟩ := h.kept r₀ hr₀ hpending₀ hlost
  refine ⟨r, mem_delete.2 ⟨hr, Bool.eq_false_iff.2 fun hpr => ?_⟩, hrow, hstatus⟩
  rcases hp r hr hpr with hfail | hfail
  · cases hstatus.symm.trans hfail
  · exact hlost (hrow.eventId ▸ hfail)

theorem foldl {γ : Type} {f : EventBuffer → γ → EventBuffer} {l : List γ}
    (hf : ∀ c ∈ l, ∀ b, Evolves lost b₀ b → Evolves lost b₀ (f b c)) (h : Evolves lost b₀ b) :
    Evolves lost b₀ (l.foldl f b) := by
  induction l generalizing b with
  | nil => exact h
  | cons c l ih =>
    exact ih (fun c' hc => hf c' (mem_cons_of_mem c hc)) (hf c mem_cons_self b h)

theorem count_pending_le (h : Evolves lost b₀ b) : b.count .pending ≤ b₀.count .pending := by
  refine count_le_of_origin fun r hr hstatus => ?_
  obtain ⟨r₀, hr₀, hrow, hpending, -⟩ := h.origin r hr
  exact ⟨r₀, hr₀, hrow.rowId.symm, hpending hstatus⟩

theorem count_failed_le (h : Evolves [] b₀ b) :
    b.count .failed ≤ b₀.count .failed := by
  refine count_le_of_origin fun r hr hstatus => ?_
  obtain ⟨r₀, hr₀, hrow, -, hfailed⟩ := h.origin r hr
  exact ⟨r₀, hr₀, hrow.rowId.symm, (hfailed hstatus).resolve_right not_mem_nil⟩

end Evolves

/-! ## Results -/

def settles (accepted : List String) (rejected : List Rejection) : List String :=
  accepted ++ (rejected.filter fun item => !item.retryable).map (·.eventId)

theorem mem_settles {accepted : List String} {rejected : List Rejection} {eventId : String} :
    eventId ∈ settles accepted rejected ↔
      eventId ∈ accepted ∨ ∃ item ∈ rejected, item.retryable = false ∧ item.eventId = eventId := by
  simp only [settles, mem_append, mem_map, mem_filter, Bool.not_eq_true', and_assoc]

section

variable {b : EventBuffer} {accepted : List String} {rejected : List Rejection}

theorem mem_accept {r : BufferRow} :
    r ∈ (b.accept accepted).rows ↔ r ∈ b.rows ∧ r.eventId ∉ accepted := by
  unfold accept
  induction accepted generalizing b with
  | nil => simp
  | cons eventId accepted ih =>
    rw [foldl_cons, ih, mem_delete, decide_eq_false_iff_not, mem_cons, not_or, and_assoc]

theorem exists_reject (rejected : List Rejection) (backoff : Nat → Int) (now : Time)
    {r : BufferRow} (hr : r ∈ b.rows) : ∃ r' ∈ (rejected.foldl (reject backoff now) b).rows,
      r'.rowId = r.rowId := by
  induction rejected generalizing b r with
  | nil => exact ⟨r, hr, rfl⟩
  | cons item rejected ih =>
    obtain ⟨r', hr', hid⟩ := ih (mem_update.2 ⟨r, hr, rfl⟩)
    refine ⟨r', hr', hid.trans ?_⟩
    split_ifs <;> rfl

def Prunes (maxEvents : Nat) (accepted : List String) (rejected : List Rejection)
    (b b' : EventBuffer) : Prop :=
  b'.count .failed ≤ maxEvents ∧
    ∀ r ∈ b.rows, (∀ r' ∈ b'.rows, r'.rowId ≠ r.rowId) →
      r.eventId ∈ accepted ∨
        (r.status = .failed ∨ r.eventId ∈ settles accepted rejected) ∧
          (∀ r' ∈ b'.rows, r'.status = .failed → r.rowId < r'.rowId) ∧
          b'.count .failed = maxEvents

variable (accepted)
  (hnames : ∀ item ∈ rejected, ∀ r ∈ b.rows, r.eventId = item.eventId → r.status = .pending)
  (maxEvents : Nat) (backoff : Nat → Int) (now : Time)

include hnames

theorem evolves_rejected :
    Evolves (settles accepted rejected) b
      (rejected.foldl (reject backoff now) (b.accept accepted)) := by
  refine .foldl (fun item hitem b' h => ?_) ?_
  · refine h.update (fun _ => rfl) (fun r _ hp _ r₀ hr₀ hrow => ?_) fun r _ hp hf => .inr ?_
    · exact hnames item hitem r₀ hr₀ (hrow.eventId.symm.trans (of_decide_eq_true hp))
    · refine mem_settles.2 (.inr ⟨item, hitem, ?_, (of_decide_eq_true hp).symm⟩)
      cases hretryable : item.retryable with
      | false => rfl
      | true => simp [retried, hretryable] at hf
  · refine .foldl (fun eventId hid b' h => h.delete fun r _ hp => .inr ?_) (.refl b)
    rw [of_decide_eq_true hp]
    exact mem_settles.2 (.inl hid)

theorem evolves_applyResult :
    Evolves (settles accepted rejected) b
      (b.applyResult maxEvents accepted rejected backoff now) := by
  refine (evolves_rejected accepted hnames backoff now).delete fun r hr hp => .inl ?_
  have hpruned : r ∉ (b.applyResult maxEvents accepted rejected backoff now).rows := by
    intro hr'
    rw [applyResult, prune, mem_delete] at hr'
    exact Bool.false_ne_true (hr'.2.symm.trans hp)
  exact failed_of_pruned hr hpruned

theorem prunes_applyResult :
    Prunes maxEvents accepted rejected b
      (b.applyResult maxEvents accepted rejected backoff now) := by
  refine ⟨le_of_eq_of_le (count_prune _ _) (min_le_left _ _), fun r hr hgone => ?_⟩
  by_cases haccepted : r.eventId ∈ accepted
  · exact .inl haccepted
  · obtain ⟨r', hr', hid⟩ := exists_reject rejected backoff now
      (mem_accept.2 ⟨hr, haccepted⟩)
    have hpruned : r' ∉ (b.applyResult maxEvents accepted rejected backoff now).rows :=
      fun h => hgone r' h hid
    obtain ⟨r₀, hr₀, hrow, -, hfailed⟩ :=
      (evolves_rejected accepted hnames backoff now).origin r' hr'
    cases eq_of_rowId hr hr₀ (hid.symm.trans hrow.rowId)
    refine .inr ⟨hfailed (failed_of_pruned hr' hpruned), fun k hk hkf => ?_,
      count_of_pruned hr' hpruned⟩
    exact hid ▸ lt_of_pruned hr' hpruned hk hkf

end

theorem evolves_markTransportFailure {b : EventBuffer} {rowIds : List Nat} {code : String}
    {backoff : Nat → Int} {now : Time}
    (h : ∀ id ∈ rowIds, ∀ r ∈ b.rows, r.rowId = id → r.status = .pending) :
    Evolves [] b (b.markTransportFailure rowIds code backoff now) := by
  refine .foldl (fun id hid b' h' => ?_) (.refl b)
  refine h'.update (fun _ => rfl) (fun r _ hp _ r₀ hr₀ hrow => ?_) nofun
  exact h id hid r₀ hr₀ (hrow.rowId.symm.trans (of_decide_eq_true hp))

/-- A row after the rows of a batch were assigned to it. -/
def assigned (batchId : String) (rowIds : List Nat) (now : Time) (r : BufferRow) : BufferRow :=
  if r.rowId ∈ rowIds then
    { r with
      data :=
        { r.data with
          batchId := some batchId
          updatedAt := now } }
  else r

/-- The statement that assigns the rows of a batch to it. -/
abbrev EventBuffer.assignBatch (batch : Batch) (now : Time) (b : EventBuffer) : EventBuffer :=
  b.assign batch.batchId (batch.rows.map (·.rowId)) now

section

variable {batchId : String} {rowIds : List Nat} {now : Time} {r : BufferRow}

@[simp] theorem rowId_assigned : (assigned batchId rowIds now r).rowId = r.rowId := by
  unfold assigned
  split_ifs <;> rfl

@[simp] theorem eventId_assigned : (assigned batchId rowIds now r).eventId = r.eventId := by
  unfold assigned
  split_ifs <;> rfl

@[simp] theorem status_assigned : (assigned batchId rowIds now r).status = r.status := by
  unfold assigned
  split_ifs <;> rfl

theorem batchId_assigned : (assigned batchId rowIds now r).batchId =
    if r.rowId ∈ rowIds then some batchId else r.batchId := by
  unfold assigned
  split_ifs <;> rfl

end

theorem rows_assign (batchId : String) (rowIds : List Nat) (now : Time) (b : EventBuffer) :
    (b.assign batchId rowIds now).next = b.next ∧
      (b.assign batchId rowIds now).rows = b.rows.map (assigned batchId rowIds now) := by
  unfold assign
  induction rowIds generalizing b with
  | nil =>
    have hself : assigned batchId [] now = id := funext fun r => if_neg not_mem_nil
    simp [hself]
  | cons id rowIds ih =>
    obtain ⟨hnext, hrows⟩ := ih (b.update (fun r => decide (r.rowId = id)) fun data =>
      { data with
        batchId := some batchId
        updatedAt := now })
    refine ⟨hnext, hrows.trans ?_⟩
    rw [update, map_map]
    refine map_congr_left fun r _ => ?_
    by_cases hid : r.rowId = id <;> by_cases hmem : r.rowId ∈ rowIds <;> simp [assigned, hid, hmem]

/-! ## The cycle -/

inductive Platform
  | windows
  | macOS
  deriving DecidableEq

/-- The configuration of an agent, and the functions that its texts are made with. -/
structure Config where
  platform : Platform
  agentId : String
  /-- `queueMaxEvents`. -/
  maxEvents : Nat
  retryBaseSeconds : Int
  retryMaxSeconds : Int
  jsonEscape : String → String
  encode : MacOS.TelemetryBatch → String

inductive Phase
  | idle
  | read (rows : List BufferedRow)
  | selected (batch : Batch)
  | sent (batch : Batch)
  | failing (rowIds : List Nat)

structure State where
  buffer : EventBuffer
  phase : Phase
  enqueued : List String
  settled : List String
  generated : List String
  sent : List (String × List String)

inductive Action
  | enqueue (event : Event) (endpointId : Option Int) (now : Time)
  | retryNow
  | setEndpointId (endpointId : Int) (now : Time)
  | pending (limit : Nat) (now : Time)
  | select (generated sentAt : String) (maxEvents maxBytes : Nat)
  | assign (now : Time)
  | result (accepted : List String) (rejected : List Rejection) (now : Time)
  | failure (code : String) (now : Time)
  | failurePending (limit : Nat) (now : Time)
  | stop

namespace Config

variable (cfg : Config)

def backoff (retryCount : Nat) : Int :=
  exponentialBackoff retryCount cfg.retryBaseSeconds cfg.retryMaxSeconds

def selectBatch (sentAt generated : String) (maxEvents maxBytes : Nat) (rows : List BufferedRow) :
    Except BufferError (Option Batch) :=
  match cfg.platform with
  | .windows =>
    Windows.makeBatch cfg.jsonEscape cfg.agentId sentAt generated maxEvents maxBytes rows
  | .macOS => MacOS.select cfg.encode cfg.agentId sentAt generated maxEvents maxBytes rows

theorem selects {cfg : Config} {sentAt generated : String} {maxEvents maxBytes : Nat}
    {rows : List BufferedRow} {batch : Batch}
    (h : cfg.selectBatch sentAt generated maxEvents maxBytes rows = .ok (some batch)) :
    Selects generated rows batch := by
  unfold selectBatch at h
  split at h
  · exact Windows.selects_of_makeBatch h
  · exact MacOS.selects_of_select h

def NamesOnly (batch : Batch) (accepted : List String) (rejected : List Rejection) : Prop :=
  ∀ eventId ∈ accepted ++ rejected.map (·.eventId), eventId ∈ batch.rows.map (·.eventId)

instance (batch : Batch) (accepted : List String) (rejected : List Rejection) :
    Decidable (NamesOnly batch accepted rejected) :=
  inferInstanceAs (Decidable (∀ eventId ∈ _, _))

def next (s : State) : Action → Option State
  | .enqueue event endpointId now =>
    if event.eventId ∈ s.enqueued then none
    else
      match s.buffer.enqueue cfg.maxEvents event endpointId now with
      | .ok buffer =>
        some { s with
          buffer := buffer
          enqueued := event.eventId :: s.enqueued }
      | .error _ => some s
  | .retryNow => some { s with buffer := s.buffer.retryNow }
  | .setEndpointId endpointId now =>
    some { s with buffer := s.buffer.setEndpointId endpointId now }
  | .pending limit now =>
    match s.phase with
    | .idle => some { s with phase := .read (s.buffer.pending limit now) }
    | _ => none
  | .select generated sentAt maxEvents maxBytes =>
    match s.phase with
    | .read rows =>
      if generated ∈ s.generated then none
      else
        match cfg.selectBatch sentAt generated maxEvents maxBytes rows with
        | .ok (some batch) =>
          some { s with
            phase := .selected batch
            generated := generated :: s.generated }
        | _ => some { s with phase := .idle }
    | _ => none
  | .assign now =>
    match s.phase with
    | .selected batch =>
      some { s with
        buffer := s.buffer.assignBatch batch now
        phase := .sent batch
        sent := s.sent ++ [(batch.batchId, batch.rows.map (·.eventId))] }
    | _ => none
  | .result accepted rejected now =>
    match s.phase with
    | .sent batch =>
      if NamesOnly batch accepted rejected then
        some { s with
          buffer := s.buffer.applyResult cfg.maxEvents accepted rejected cfg.backoff now
          phase := .idle
          settled := settles accepted rejected ++ s.settled }
      else none
    | _ => none
  | .failure code now =>
    match cfg.platform, s.phase with
    | .windows, .sent batch =>
      some { s with
        buffer := s.buffer.transportFailure cfg.maxEvents batch.rows code cfg.backoff now
        phase := .idle }
    | .macOS, .failing rowIds =>
      some { s with
        buffer := s.buffer.markTransportFailure rowIds code cfg.backoff now
        phase := .idle }
    | _, _ => none
  | .failurePending limit now =>
    match cfg.platform with
    | .macOS => some { s with phase := .failing ((s.buffer.pending limit now).map (·.rowId)) }
    | .windows => none
  | .stop => some { s with phase := .idle }

def system : System State Action where
  init := ⟨.empty, .idle, [], [], [], []⟩
  next := cfg.next

end Config

/-! ## What holds in every state -/

def Current (b : EventBuffer) (x : BufferedRow) : Prop :=
  ∃ r ∈ b.rows, r.rowId = x.rowId ∧ r.eventId = x.eventId ∧ r.batchId = x.batchId ∧
    r.status = .pending

def PhaseSound (s : State) : Prop :=
  match s.phase with
  | .idle => True
  | .read rows => ∀ x ∈ rows, Current s.buffer x
  | .selected batch =>
    (∀ x ∈ batch.rows, Current s.buffer x) ∧ batch.batchId ∈ s.generated ∧
      ((∃ first, s.sent.lookup batch.batchId = some first) ∧
          (∀ x ∈ batch.rows, x.batchId = some batch.batchId) ∨
        s.sent.lookup batch.batchId = none ∧
          (∀ r ∈ s.buffer.rows, r.batchId ≠ some batch.batchId) ∧
          ∀ x ∈ batch.rows, x.batchId = none)
  | .sent batch => ∀ x ∈ batch.rows, ∃ r ∈ s.buffer.rows, r.eventId = x.eventId ∧ r.status = .pending
  | .failing rowIds => ∀ id ∈ rowIds, ∃ r ∈ s.buffer.rows, r.rowId = id ∧ r.status = .pending

structure Sound (cfg : Config) (s : State) : Prop where
  pending : ∀ eventId ∈ s.enqueued, eventId ∉ s.settled →
    ∃ r ∈ s.buffer.rows, r.eventId = eventId ∧ r.status = .pending
  known : ∀ r ∈ s.buffer.rows, r.eventId ∈ s.enqueued
  count_pending : s.buffer.count .pending ≤ cfg.maxEvents
  count_failed : s.buffer.count .failed ≤ cfg.maxEvents
  batches : ∀ r ∈ s.buffer.rows, ∀ batchId, r.batchId = some batchId →
    batchId ∈ s.generated ∧ ∃ first, s.sent.lookup batchId = some first ∧ r.eventId ∈ first
  sent_generated : ∀ x ∈ s.sent, x.1 ∈ s.generated
  contained : ∀ x ∈ s.sent, ∃ first, s.sent.lookup x.1 = some first ∧ x.2 ⊆ first
  phase : PhaseSound s

section

variable {cfg : Config} {s s' : State} {b b' : EventBuffer}

/-- The rows that are pending are still there, and no row has got a batch that was new. -/
theorem PhaseSound.mono (h : PhaseSound s) {enqueued : List String}
    (hkept : ∀ r ∈ s.buffer.rows, r.status = .pending →
      ∃ r' ∈ b'.rows, SameRow r r' ∧ r'.status = .pending)
    (hfresh : ∀ batchId, (∀ r ∈ s.buffer.rows, r.batchId ≠ some batchId) →
      ∀ r' ∈ b'.rows, r'.batchId ≠ some batchId) :
    PhaseSound { s with buffer := b', enqueued := enqueued } := by
  have hcurrent {x : BufferedRow} (h : Current s.buffer x) : Current b' x := by
    obtain ⟨r, hr, hid, hevent, hbatch, hpending⟩ := h
    obtain ⟨r', hr', hrow, hpending'⟩ := hkept r hr hpending
    exact ⟨r', hr', hrow.rowId.trans hid, hrow.eventId.trans hevent, hrow.batchId.trans hbatch,
      hpending'⟩
  obtain ⟨buffer, phase, enqueued, settled, generated, sent⟩ := s
  cases phase with
  | idle => trivial
  | read rows => exact fun x hx => hcurrent (h x hx)
  | selected batch =>
    obtain ⟨hrows, hgenerated, hbatch⟩ := h
    refine ⟨fun x hx => hcurrent (hrows x hx), hgenerated, hbatch.imp_right ?_⟩
    rintro ⟨hsent, hnew, hnone⟩
    exact ⟨hsent, hfresh _ hnew, hnone⟩
  | sent batch =>
    intro x hx
    obtain ⟨r, hr, hevent, hpending⟩ := h x hx
    obtain ⟨r', hr', hrow, hpending'⟩ := hkept r hr hpending
    exact ⟨r', hr', hrow.eventId.trans hevent, hpending'⟩
  | failing rowIds =>
    intro id hid
    obtain ⟨r, hr, hrowId, hpending⟩ := h id hid
    obtain ⟨r', hr', hrow, hpending'⟩ := hkept r hr hpending
    exact ⟨r', hr', hrow.rowId.trans hrowId, hpending'⟩

variable {endpointId : Option Int} {event : Event} {now : Time}

theorem rows_enqueue {maxEvents : Nat} (hnew : ∀ r ∈ b.rows, r.eventId ≠ event.eventId)
    (h : b.enqueue maxEvents event endpointId now = .ok b') :
    b.count .pending < maxEvents ∧ b'.next = b.next + 1 ∧
      ∃ r, b'.rows = b.rows ++ [r] ∧ r.rowId = b.next ∧ r.eventId = event.eventId ∧
        r.batchId = none ∧ r.status = .pending := by
  unfold enqueue at h
  split_ifs at h with hfull
  cases h
  have hmem : event.eventId ∉ b.rows.map (·.eventId) := by
    intro hmem
    obtain ⟨r, hr, he⟩ := mem_map.1 hmem
    exact hnew r hr he
  rw [insertOrIgnore, dif_neg hmem]
  exact ⟨Nat.lt_of_not_le hfull, rfl, _, rfl, rfl, rfl, rfl, rfl⟩

theorem mem_pending {limit : Nat} {x : BufferedRow} (hx : x ∈ b.pending limit now) :
    ∃ r ∈ b.rows, buffered r = x ∧ r.status = .pending := by
  obtain ⟨r, hr, rfl⟩ := mem_map.1 hx
  obtain ⟨hr, hp⟩ := mem_filter.1 (mem_of_mem_take hr)
  exact ⟨r, hr, rfl, of_decide_eq_true (Bool.and_eq_true_iff.1 hp).1⟩

theorem current_of_pending {limit : Nat} {x : BufferedRow} (hx : x ∈ b.pending limit now) :
    Current b x := by
  obtain ⟨r, hr, rfl, hpending⟩ := mem_pending hx
  exact ⟨r, hr, rfl, rfl, rfl, hpending⟩

theorem mem_assign {batchId : String} {rowIds : List Nat} {r' : BufferRow} :
    r' ∈ (b.assign batchId rowIds now).rows ↔
      ∃ r ∈ b.rows, assigned batchId rowIds now r = r' := by
  rw [(rows_assign batchId rowIds now b).2, mem_map]

/-- The rows of a later buffer that were there before are in the batch in which they were. -/
structure RowsLater (b b' : EventBuffer) : Prop where
  next : b.next ≤ b'.next
  origin : ∀ r' ∈ b'.rows, r'.rowId < b.next →
    ∃ r ∈ b.rows, r.rowId = r'.rowId ∧ ∀ batchId, r.batchId = some batchId → r'.batchId = some batchId

theorem RowsLater.refl (b : EventBuffer) : RowsLater b b :=
  ⟨le_refl _, fun r hr _ => ⟨r, hr, rfl, fun _ h => h⟩⟩

theorem RowsLater.trans {b'' : EventBuffer} (h : RowsLater b b') (h' : RowsLater b' b'') :
    RowsLater b b'' := by
  refine ⟨le_trans h.next h'.next, fun r'' hr'' hid => ?_⟩
  obtain ⟨r', hr', hid', hbatch'⟩ := h'.origin r'' hr'' (lt_of_lt_of_le hid h.next)
  obtain ⟨r, hr, hid₀, hbatch⟩ := h.origin r' hr' (hid'.symm ▸ hid)
  exact ⟨r, hr, hid₀.trans hid', fun batchId hb => hbatch' batchId (hbatch batchId hb)⟩

theorem Evolves.rowsLater {lost : List String} (h : Evolves lost b b') : RowsLater b b' := by
  refine ⟨le_of_eq h.next.symm, fun r' hr' _ => ?_⟩
  obtain ⟨r, hr, hrow, -⟩ := h.origin r' hr'
  exact ⟨r, hr, hrow.rowId.symm, fun _ hb => hrow.batchId.trans hb⟩

variable {phase : Phase} {batch : Batch} (h : Sound cfg s)

include h

theorem Sound.evolves {lost : List String} (he : Evolves lost s.buffer b')
    (hfailed : b'.count .failed ≤ cfg.maxEvents)
    (hphase : PhaseSound { s with buffer := b', phase := phase, settled := lost ++ s.settled }) :
    Sound cfg { s with buffer := b', phase := phase, settled := lost ++ s.settled } where
  pending eventId hid hsettled := by
    rw [mem_append, not_or] at hsettled
    obtain ⟨r, hr, hevent, hpending⟩ := h.pending eventId hid hsettled.2
    obtain ⟨r', hr', hrow, hpending'⟩ := he.kept r hr hpending (hevent ▸ hsettled.1)
    exact ⟨r', hr', hrow.eventId.trans hevent, hpending'⟩
  known r' hr' := by
    obtain ⟨r, hr, hrow, -⟩ := he.origin r' hr'
    exact hrow.eventId ▸ h.known r hr
  count_pending := le_trans he.count_pending_le h.count_pending
  count_failed := hfailed
  batches r' hr' batchId hbatch := by
    obtain ⟨r, hr, hrow, -⟩ := he.origin r' hr'
    exact hrow.eventId ▸ h.batches r hr batchId (hrow.batchId.symm.trans hbatch)
  sent_generated := h.sent_generated
  contained := h.contained
  phase := hphase

theorem Sound.quiet (he : Evolves [] s.buffer b')
    (hphase : phase = s.phase ∨ phase = .idle) :
    Sound cfg { s with buffer := b', phase := phase } := by
  refine h.evolves he (le_trans he.count_failed_le h.count_failed) ?_
  rcases hphase with rfl | rfl
  · refine h.phase.mono (fun r hr hpending => he.kept r hr hpending not_mem_nil)
      fun batchId hnew r' hr' => ?_
    obtain ⟨r, hr, hrow, -⟩ := he.origin r' hr'
    exact hrow.batchId ▸ hnew r hr
  · trivial

theorem Sound.enqueue (hfresh : event.eventId ∉ s.enqueued)
    (hb : s.buffer.enqueue cfg.maxEvents event endpointId now = .ok b') :
    Sound cfg { s with buffer := b', enqueued := event.eventId :: s.enqueued } := by
  obtain ⟨hcount, -, r, hrows, -, hevent, hbatch, hpending⟩ :=
    rows_enqueue (fun r hr he => hfresh (he ▸ h.known r hr)) hb
  have hmem {r' : BufferRow} : r' ∈ b'.rows ↔ r' ∈ s.buffer.rows ∨ r' = r := by
    rw [hrows, mem_append, mem_singleton]
  have hcount' (status : RowStatus) :
      b'.count status = s.buffer.count status + if r.status = status then 1 else 0 := by
    rw [EventBuffer.count, EventBuffer.count, hrows, countP_append, countP_singleton]
    simp
  constructor
  · intro eventId hid hsettled
    rcases mem_cons.1 hid with rfl | hid
    · exact ⟨r, hmem.2 (.inr rfl), hevent, hpending⟩
    · obtain ⟨r', hr', hx⟩ := h.pending eventId hid hsettled
      exact ⟨r', hmem.2 (.inl hr'), hx⟩
  · intro r' hr'
    rcases hmem.1 hr' with hr' | rfl
    · exact mem_cons_of_mem _ (h.known r' hr')
    · exact hevent ▸ mem_cons_self
  · refine le_of_eq_of_le (hcount' .pending) ?_
    rw [if_pos hpending]
    exact hcount
  · refine le_of_eq_of_le (hcount' .failed) ?_
    rw [if_neg (by rw [hpending]; exact RowStatus.noConfusion)]
    exact h.count_failed
  · intro r' hr' batchId hb
    rcases hmem.1 hr' with hr' | rfl
    · exact h.batches r' hr' batchId hb
    · cases hbatch.symm.trans hb
  · exact h.sent_generated
  · exact h.contained
  · refine h.phase.mono (fun r' hr' hp => ⟨r', hmem.2 (.inl hr'), .refl r', hp⟩)
      fun batchId hnew r' hr' => ?_
    rcases hmem.1 hr' with hr' | rfl
    · exact hnew r' hr'
    · rw [hbatch]
      exact (Option.some_ne_none _).symm

theorem Sound.withPhase (hphase : PhaseSound { s with phase := phase }) :
    Sound cfg { s with phase := phase } :=
  ⟨h.pending, h.known, h.count_pending, h.count_failed, h.batches, h.sent_generated, h.contained,
    hphase⟩

theorem Sound.select {rows : List BufferedRow} (hread : s.phase = .read rows)
    {generated : String} (hfresh : generated ∉ s.generated)
    (hselects : Selects generated rows batch) :
    Sound cfg { s with phase := .selected batch, generated := generated :: s.generated } := by
  have hphase := h.phase
  rw [PhaseSound, hread] at hphase
  obtain ⟨⟨first, hfirst, -, hid, hbatch⟩, hsubset⟩ := hselects
  refine ⟨h.pending, h.known, h.count_pending, h.count_failed, fun r hr batchId hb => ?_,
    fun x hx => mem_cons_of_mem _ (h.sent_generated x hx), h.contained,
    fun x hx => hphase x (hsubset hx), ?_⟩
  · exact (h.batches r hr batchId hb).imp_left (mem_cons_of_mem _)
  · -- The batch is that of the first row, or a new one.
    cases hb : first.batchId with
    | some batchId =>
      rw [hb, Option.getD_some] at hid
      rw [hb, ← hid] at hbatch
      obtain ⟨r, hr, -, -, hrb, -⟩ := hphase first hfirst
      obtain ⟨hgen, F, hF, -⟩ := h.batches r hr batchId (hrb.trans hb)
      exact ⟨mem_cons_of_mem _ (hid ▸ hgen), .inl ⟨⟨F, hid ▸ hF⟩, hbatch⟩⟩
    | none =>
      rw [hb, Option.getD_none] at hid
      rw [hb] at hbatch
      subst hid
      refine ⟨mem_cons_self, .inr ⟨lookup_eq_none_iff.2 fun x hx => ?_,
        fun r hr hrb => hfresh (h.batches r hr _ hrb).1, hbatch⟩⟩
      exact bne_iff_ne.2 fun hx' => hfresh (hx' ▸ h.sent_generated x hx)

/-- The events of the batch that is about to be sent are part of what was sent in it first, if it was
    sent before. -/
theorem Sound.subset_first {first : List String}
    (hcurrent : ∀ x ∈ batch.rows, Current s.buffer x)
    (hbatch : ∀ x ∈ batch.rows, x.batchId = some batch.batchId)
    (hfirst : s.sent.lookup batch.batchId = some first) : batch.rows.map (·.eventId) ⊆ first := by
  intro eventId hid
  obtain ⟨x, hx, rfl⟩ := mem_map.1 hid
  obtain ⟨r, hr, -, hevent, hrb, -⟩ := hcurrent x hx
  obtain ⟨-, first', hfirst', hmem⟩ := h.batches r hr batch.batchId (hrb.trans (hbatch x hx))
  cases hfirst.symm.trans hfirst'
  exact hevent ▸ hmem

theorem Sound.assign (hselected : s.phase = .selected batch) (now : Time) :
    Sound cfg { s with
      buffer := s.buffer.assignBatch batch now
      phase := .sent batch
      sent := s.sent ++ [(batch.batchId, batch.rows.map (·.eventId))] } := by
  have hphase := h.phase
  rw [PhaseSound, hselected] at hphase
  obtain ⟨hcurrent, hgenerated, hbatch⟩ := hphase
  have hstill {batchId : String} {first : List String} (hfirst : s.sent.lookup batchId = some first) :
      (s.sent ++ [(batch.batchId, batch.rows.map (·.eventId))]).lookup batchId = some first := by
    rw [lookup_append, hfirst, Option.some_or]
  -- What is now sent in the batch is part of what was sent in it first, or it is the first.
  obtain ⟨first, hfirst, hsubset⟩ : ∃ first,
      (s.sent ++ [(batch.batchId, batch.rows.map (·.eventId))]).lookup batch.batchId = some first ∧
        batch.rows.map (·.eventId) ⊆ first := by
    rcases hbatch with ⟨⟨first, hfirst⟩, hrows⟩ | ⟨hnone, -, -⟩
    · exact ⟨first, hstill hfirst, h.subset_first hcurrent hrows hfirst⟩
    · refine ⟨_, ?_, .refl _⟩
      rw [lookup_append, hnone, Option.none_or, lookup_cons_self]
  have hcount (status : RowStatus) :
      (s.buffer.assignBatch batch now).count status = s.buffer.count status := by
    rw [EventBuffer.count, (rows_assign _ _ _ _).2, countP_map, EventBuffer.count]
    simp [Function.comp_def]
  have hpending {eventId : String}
      (h : ∃ r ∈ s.buffer.rows, r.eventId = eventId ∧ r.status = .pending) :
      ∃ r ∈ (s.buffer.assignBatch batch now).rows, r.eventId = eventId ∧ r.status = .pending := by
    obtain ⟨r, hr, h⟩ := h
    exact ⟨_, mem_assign.2 ⟨r, hr, rfl⟩, by simpa using h⟩
  constructor
  · exact fun eventId hid hsettled => hpending (h.pending eventId hid hsettled)
  · intro r' hr'
    obtain ⟨r, hr, rfl⟩ := mem_assign.1 hr'
    simpa using h.known r hr
  · exact le_of_eq_of_le (hcount .pending) h.count_pending
  · exact le_of_eq_of_le (hcount .failed) h.count_failed
  · intro r' hr' batchId hb
    obtain ⟨r, hr, rfl⟩ := mem_assign.1 hr'
    rw [batchId_assigned] at hb
    rw [eventId_assigned]
    split_ifs at hb with hid
    · cases hb
      -- The row is one of those that are sent now.
      obtain ⟨x, hx, hid⟩ := mem_map.1 hid
      obtain ⟨r₀, hr₀, hid₀, hevent₀, -⟩ := hcurrent x hx
      cases eq_of_rowId hr hr₀ (hid.symm.trans hid₀.symm)
      exact ⟨hgenerated, first, hfirst, hsubset (mem_map.2 ⟨x, hx, hevent₀.symm⟩)⟩
    · obtain ⟨hgen, first', hfirst', hmem⟩ := h.batches r hr batchId hb
      exact ⟨hgen, first', hstill hfirst', hmem⟩
  · intro x hx
    rcases mem_append.1 hx with hx | hx
    · exact h.sent_generated x hx
    · cases mem_singleton.1 hx
      exact hgenerated
  · intro x hx
    rcases mem_append.1 hx with hx | hx
    · obtain ⟨first', hfirst', hsub⟩ := h.contained x hx
      exact ⟨first', hstill hfirst', hsub⟩
    · cases mem_singleton.1 hx
      exact ⟨first, hfirst, hsubset⟩
  · intro x hx
    obtain ⟨r, hr, -, hevent, -, hstatus⟩ := hcurrent x hx
    exact hpending ⟨r, hr, hevent, hstatus⟩

theorem Sound.pending_of_result (hsent : s.phase = .sent batch) {accepted : List String}
    {rejected : List Rejection} (hnames : Config.NamesOnly batch accepted rejected) :
    ∀ item ∈ rejected, ∀ r ∈ s.buffer.rows, r.eventId = item.eventId → r.status = .pending := by
  intro item hitem r hr hevent
  have hphase := h.phase
  rw [PhaseSound, hsent] at hphase
  obtain ⟨x, hx, hid⟩ := mem_map.1 (hnames _ (mem_append_right _ (mem_map_of_mem hitem)))
  obtain ⟨r', hr', hevent', hpending⟩ := hphase x hx
  rwa [eq_of_eventId hr hr' (hevent.trans (hid.symm.trans hevent'.symm))]

/-- A failure of the transport is a result that rejects all events of the batch for now. -/
theorem Sound.evolves_transportFailure (hsent : s.phase = .sent batch)
    (code : String) (now : Time) :
    Evolves [] s.buffer
      (s.buffer.transportFailure cfg.maxEvents batch.rows code cfg.backoff now) := by
  have hnames : Config.NamesOnly batch []
      (batch.rows.map fun row => ⟨row.eventId, code, true⟩) := by
    simp [Config.NamesOnly]
  have hsettles : settles [] (batch.rows.map fun row => ⟨row.eventId, code, true⟩) = [] := by
    simp [settles]
  exact hsettles ▸ evolves_applyResult [] (h.pending_of_result hsent hnames) cfg.maxEvents
    cfg.backoff now

theorem Sound.rowsLater_enqueue (hfresh : event.eventId ∉ s.enqueued)
    (hb : s.buffer.enqueue cfg.maxEvents event endpointId now = .ok b') :
    RowsLater s.buffer b' := by
  obtain ⟨-, hnext, r, hrows, hid, -⟩ :=
    rows_enqueue (fun r hr he => hfresh (he ▸ h.known r hr)) hb
  refine ⟨hnext ▸ le_succ _, fun r' hr' hlt => ?_⟩
  rw [hrows, mem_append, mem_singleton] at hr'
  rcases hr' with hr' | rfl
  · exact ⟨r', hr', rfl, fun _ h => h⟩
  · exact absurd hid (Nat.ne_of_lt hlt)

theorem Sound.rowsLater_assign (hselected : s.phase = .selected batch) (now : Time) :
    RowsLater s.buffer (s.buffer.assignBatch batch now) := by
  have hphase := h.phase
  rw [PhaseSound, hselected] at hphase
  obtain ⟨hcurrent, -, hbatch⟩ := hphase
  refine ⟨le_of_eq (rows_assign _ _ _ _).1.symm, fun r' hr' _ => ?_⟩
  obtain ⟨r, hr, rfl⟩ := mem_assign.1 hr'
  refine ⟨r, hr, rowId_assigned.symm, fun batchId hb => ?_⟩
  rw [batchId_assigned, ← hb]
  split_ifs with hmem
  · obtain ⟨x, hx, hxid⟩ := mem_map.1 hmem
    obtain ⟨r₀, hr₀, hid₀, -, hrb, -⟩ := hcurrent x hx
    cases eq_of_rowId hr hr₀ (hxid.symm.trans hid₀.symm)
    rw [hrb]
    rcases hbatch with ⟨-, hrows⟩ | ⟨-, -, hrows⟩
    · exact (hrows x hx).symm
    · cases (hrb.symm.trans hb).symm.trans (hrows x hx)
  · rfl

theorem sound_step {a : Action} (hn : cfg.next s a = some s') :
    Sound cfg s' ∧ RowsLater s.buffer s'.buffer := by
  cases a with
  | enqueue event endpointId now =>
    simp only [Config.next] at hn
    split_ifs at hn with hfresh
    split at hn
    · rename_i hb
      cases hn
      exact ⟨h.enqueue hfresh hb, h.rowsLater_enqueue hfresh hb⟩
    · cases hn
      exact ⟨h, .refl _⟩
  | retryNow =>
    cases hn
    have he : Evolves [] s.buffer s.buffer.retryNow :=
      (Evolves.refl _).update_status (fun _ => rfl) fun _ => rfl
    exact ⟨h.quiet he (.inl rfl), he.rowsLater⟩
  | setEndpointId endpointId now =>
    cases hn
    have he : Evolves [] s.buffer (s.buffer.setEndpointId endpointId now) :=
      (Evolves.refl _).update_status (fun _ => rfl) fun _ => rfl
    exact ⟨h.quiet he (.inl rfl), he.rowsLater⟩
  | pending limit now =>
    simp only [Config.next] at hn
    split at hn
    · cases hn
      exact ⟨h.withPhase fun x hx => current_of_pending hx, .refl _⟩
    · cases hn
  | select generated sentAt maxEvents maxBytes =>
    simp only [Config.next] at hn
    split at hn
    · rename_i rows hread
      split_ifs at hn with hfresh
      split at hn
      · rename_i hselect
        cases hn
        exact ⟨h.select hread hfresh (Config.selects hselect), .refl _⟩
      · cases hn
        exact ⟨h.withPhase trivial, .refl _⟩
    · cases hn
  | assign now =>
    simp only [Config.next] at hn
    split at hn
    · rename_i batch hselected
      cases hn
      exact ⟨h.assign hselected now, h.rowsLater_assign hselected now⟩
    · cases hn
  | result accepted rejected now =>
    simp only [Config.next] at hn
    split at hn
    · rename_i batch hsent
      split_ifs at hn with hnames
      cases hn
      have hpending := h.pending_of_result hsent hnames
      have he := evolves_applyResult accepted hpending cfg.maxEvents cfg.backoff now
      exact ⟨h.evolves he (prunes_applyResult accepted hpending _ _ now).1 trivial, he.rowsLater⟩
    · cases hn
  | failure code now =>
    simp only [Config.next] at hn
    split at hn
    · rename_i batch _ hsent
      cases hn
      have he := h.evolves_transportFailure hsent code now
      exact ⟨h.quiet he (.inr rfl), he.rowsLater⟩
    · rename_i rowIds _ hfailing
      cases hn
      have hphase := h.phase
      rw [PhaseSound, hfailing] at hphase
      have he : Evolves [] s.buffer
          (s.buffer.markTransportFailure rowIds code cfg.backoff now) := by
        refine evolves_markTransportFailure fun id hid r hr hrowId => ?_
        obtain ⟨r', hr', hid', hpending⟩ := hphase id hid
        rwa [eq_of_rowId hr hr' (hrowId.trans hid'.symm)]
      exact ⟨h.quiet he (.inr rfl), he.rowsLater⟩
    · cases hn
  | failurePending limit now =>
    simp only [Config.next] at hn
    split at hn
    · cases hn
      refine ⟨h.withPhase fun id hid => ?_, .refl _⟩
      obtain ⟨x, hx, rfl⟩ := mem_map.1 hid
      obtain ⟨r, hr, hrowId, -, -, hpending⟩ := current_of_pending hx
      exact ⟨r, hr, hrowId, hpending⟩
    · cases hn
  | stop =>
    cases hn
    exact ⟨h.withPhase trivial, .refl _⟩

omit h

/-! ## All runs -/

abbrev Config.Reachable (cfg : Config) (s : State) : Prop :=
  cfg.system.Reachable System.always s

theorem sound (h : cfg.Reachable s) : Sound cfg s := by
  refine System.Reachable.invariant ?_ (fun _ _ _ _ hs _ hn => (sound_step hs hn).1) h
  exact ⟨nofun, nofun, zero_le _, zero_le _, nofun, nofun, nofun, trivial⟩

theorem rowsLater (h : cfg.Reachable s) (hlater : cfg.system.Path System.always s s') :
    RowsLater s.buffer s'.buffer := by
  induction hlater with
  | refl => exact .refl _
  | step hp _ hn ih => exact ih.trans (sound_step (sound (h.path hp)) hn).2

/-- On both platforms, in every state that an agent gets to: an event that was enqueued is pending,
    until a result accepts it or rejects it for good; the pending rows are not too many; a result
    leaves not too many failed ones, and drops only the oldest of them; a row that is in a batch is
    in the same one in every later state; what is sent in a batch was sent in it first. -/
theorem buffer_sound (cfg : Config) {s : State} (h : cfg.Reachable s) :
    (∀ eventId ∈ s.enqueued, eventId ∉ s.settled →
      ∃ r ∈ s.buffer.rows, r.eventId = eventId ∧ r.status = .pending) ∧
    s.buffer.count .pending ≤ cfg.maxEvents ∧
    (∀ accepted rejected now s', cfg.next s (.result accepted rejected now) = some s' →
      Prunes cfg.maxEvents accepted rejected s.buffer s'.buffer) ∧
    (∀ s', cfg.system.Path System.always s s' → ∀ r ∈ s.buffer.rows, ∀ r' ∈ s'.buffer.rows,
      r'.rowId = r.rowId → ∀ batchId, r.batchId = some batchId → r'.batchId = some batchId) ∧
    ∀ x ∈ s.sent, ∃ first, s.sent.lookup x.1 = some first ∧ x.2 ⊆ first := by
  have hsound := sound h
  refine ⟨hsound.pending, hsound.count_pending, ?_, ?_, hsound.contained⟩
  · intro accepted rejected now s' hn
    simp only [Config.next] at hn
    split at hn
    · rename_i batch hsent
      split_ifs at hn with hnames
      cases hn
      exact prunes_applyResult accepted (hsound.pending_of_result hsent hnames) _ _ now
    · cases hn
  · intro s' hlater r hr r' hr' hid batchId hb
    obtain ⟨r₀, hr₀, hid₀, hbatch⟩ :=
      (rowsLater h hlater).origin r' hr' (hid ▸ s.buffer.lt_next r hr)
    cases eq_of_rowId hr hr₀ (hid.symm.trans hid₀.symm)
    exact hbatch batchId hb

end

/-! ## A run -/

def sampleConfig : Config where
  platform := .windows
  agentId := "agent-1"
  maxEvents := 2
  retryBaseSeconds := 5
  retryMaxSeconds := 60
  jsonEscape := id
  encode := fun _ => ""

def partlyAccepted : List Action :=
  [.enqueue (sampleEvent "e1") none 0, .enqueue (sampleEvent "e2") none 0,
    .pending 10 0, .select "b1" "t" 10 1000, .assign 0,
    .result ["e1"] [⟨"e2", "BUSY", true⟩] 0]

def sentAgain : List Action :=
  [.retryNow, .enqueue (sampleEvent "e3") none 1, .pending 10 1, .select "b2" "t" 10 1000,
    .assign 1, .result [] [⟨"e2", "INVALID", false⟩] 1]

/-- The second event is pending, and stays in its batch. -/
theorem buffer_sound_partlyAccepted : ∃ s s' : State,
    sampleConfig.system.run sampleConfig.system.init partlyAccepted = some s ∧
      sampleConfig.system.run s sentAgain = some s' ∧
      (∃ r ∈ s.buffer.rows, r.eventId = "e2" ∧ r.status = .pending) ∧
      (∃ r ∈ s'.buffer.rows, r.rowId = 2 ∧ r.batchId = some "b1" ∧ r.status = .failed) ∧
      s'.sent = [("b1", ["e1", "e2"]), ("b1", ["e2"])] ∧ s'.buffer.count .pending ≤ 2 := by
  have hruns : (sampleConfig.system.run sampleConfig.system.init partlyAccepted).any
      (fun s => decide ("e2" ∈ s.enqueued ∧ "e2" ∉ s.settled ∧
        (∃ r ∈ s.buffer.rows, r.rowId = 2 ∧ r.batchId = some "b1") ∧
        (sampleConfig.system.run s sentAgain).any (fun s' => decide
          ((∃ r ∈ s'.buffer.rows, r.rowId = 2 ∧ r.status = .failed) ∧
            s'.sent = [("b1", ["e1", "e2"]), ("b1", ["e2"])])) = true)) = true := by
    decide +kernel
  obtain ⟨s, hrun, hs⟩ := (Option.any_eq_true _ _).1 hruns
  obtain ⟨henqueued, hsettled, ⟨r, hr, hid, hb⟩, hruns'⟩ := of_decide_eq_true hs
  obtain ⟨s', hrun', hs'⟩ := (Option.any_eq_true _ _).1 hruns'
  obtain ⟨⟨r', hr', hid', hfailed⟩, hsent⟩ := of_decide_eq_true hs'
  have hpath := System.path_of_run hrun'
  obtain ⟨hpending, -, -, hbatch, -⟩ := buffer_sound sampleConfig (System.reachable_of_run hrun)
  refine ⟨s, s', hrun, hrun', hpending "e2" henqueued hsettled, ⟨r', hr', hid', ?_, hfailed⟩,
    hsent, ?_⟩
  · exact hbatch s' hpath r hr r' hr' (hid'.trans hid.symm) "b1" hb
  · exact (buffer_sound sampleConfig (System.reachable_of_run hrun |>.path hpath)).2.1

end Edr.Agent
