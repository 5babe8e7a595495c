import Edr.Buffer.Batches
import Edr.Buffer.Run

/-!
# A batch that cannot be sent

A turn of the loop of the senders whose batch is not answered: the rows are read, a batch is selected
of them and assigned, and the failure is noted in the buffer. It is meant to be noted in the rows of
the batch, and in no other ones.

* the Windows agent notes it in the rows of the batch. It uses the statements of a result for it,
  which also drop failed rows beyond the maximum;
* the macOS agent reads the pending rows again and notes it in all of these.
-/

namespace Edr.Agent

open List Function

open EventBuffer Prefixes

/-! ## What is left of the rows -/

section

variable {b : EventBuffer} {code : String} {backoff : Nat → Int} {now : Time}

/-- A row in which a failure is noted. -/
def noted (code : String) (backoff : Nat → Int) (now : Time) (r : BufferRow) : BufferRow :=
  { r with data := retried true (r.data.retryCount + 1) code backoff now r.data }

theorem noted_ne (r : BufferRow) : noted code backoff now r ≠ r := by
  intro h
  have hcount : r.data.retryCount + 1 = r.data.retryCount := congrArg (·.data.retryCount) h
  omega

/-- A failure is noted in the row with a key. -/
def note {κ : Type} [DecidableEq κ] (key : BufferRow → κ) (code : String) (backoff : Nat → Int)
    (now : Time) (b : EventBuffer) (k : κ) : EventBuffer :=
  b.update (fun r => decide (key r = k))
    (retried true (b.retryCountFor (fun r => decide (key r = k)) + 1) code backoff now)

theorem rows_note {κ : Type} [DecidableEq κ] {key : BufferRow → κ} (hkeys : (b.rows.map key).Nodup)
    (k : κ) : (note key code backoff now b k).rows =
      b.rows.map fun r => if key r = k then noted code backoff now r else r := by
  refine map_congr_left fun r hr => ?_
  by_cases hk : key r = k
  · have hcount : b.retryCountFor (fun r => decide (key r = k)) = r.data.retryCount := by
      rw [retryCountFor]
      cases hfind : b.rows.find? fun r => decide (key r = k) with
      | none => exact absurd hk (by simpa using find?_eq_none.1 hfind r hr)
      | some r' =>
        have hk' : key r' = k := by simpa using find?_some hfind
        rw [inj_on_of_nodup_map hkeys (mem_of_find?_eq_some hfind) hr (hk'.trans hk.symm)]
        rfl
    simp [hk, hcount, noted]
  · simp [hk]

theorem rows_foldl_note {κ : Type} [DecidableEq κ] {key : BufferRow → κ}
    (hkey : ∀ r, key (noted code backoff now r) = key r) (hkeys : (b.rows.map key).Nodup)
    {ks : List κ} (hks : ks.Nodup) :
    (ks.foldl (note key code backoff now) b).rows =
      b.rows.map fun r => if key r ∈ ks then noted code backoff now r else r := by
  induction ks generalizing b with
  | nil => simp
  | cons k ks ih =>
    have hkept (r : BufferRow) : key (if key r = k then noted code backoff now r else r) = key r := by
      split_ifs
      · exact hkey r
      · rfl
    have hrows : (note key code backoff now b k).rows = _ := rows_note hkeys k
    rw [nodup_cons] at hks
    rw [foldl_cons, ih _ hks.2, hrows, map_map]
    · refine map_congr_left fun r _ => ?_
      simp only [comp_apply, hkept, mem_cons]
      by_cases hk : key r = k
      · rw [if_neg (hk ▸ hks.1), if_pos hk, if_pos (.inl hk)]
      · by_cases hmem : key r ∈ ks <;> simp [hk, hmem]
    · rw [hrows, map_map]
      convert hkeys using 2
      funext r
      exact hkept r

theorem rows_markTransportFailure {rowIds : List Nat} (h : rowIds.Nodup) :
    (b.markTransportFailure rowIds code backoff now).rows =
      b.rows.map fun r => if r.rowId ∈ rowIds then noted code backoff now r else r :=
  rows_foldl_note (fun _ => rfl) b.nodup_rowIds h

theorem rows_reject {rows : List BufferedRow} (h : (rows.map (·.eventId)).Nodup) :
    ((rows.map fun row => (⟨row.eventId, code, true⟩ : Rejection)).foldl (reject backoff now)
        b).rows =
      b.rows.map fun r =>
        if r.eventId ∈ rows.map (·.eventId) then noted code backoff now r else r := by
  rw [← rows_foldl_note (fun _ => rfl) b.unique h, foldl_map, foldl_map]
  rfl

theorem rows_prune_eq_iff {maxEvents : Nat} :
    (b.prune maxEvents).rows = b.rows ↔ b.count .failed ≤ maxEvents := by
  constructor
  · intro h
    have hcount := count_prune maxEvents b
    rw [EventBuffer.count, h, ← EventBuffer.count] at hcount
    omega
  · intro h
    rw [prune, delete, Nat.sub_eq_zero_of_le h, take_zero]
    exact filter_eq_self.2 fun _ _ => rfl

theorem rowIds_pending {b' : EventBuffer} {f : BufferRow → BufferRow}
    (hrows : b'.rows = b.rows.map f) (hid : ∀ r, (f r).rowId = r.rowId)
    (hstatus : ∀ r, (f r).status = r.status)
    (hretry : ∀ r, (f r).data.nextRetryAt = r.data.nextRetryAt) (limit : Nat) :
    (b'.pending limit now).map (·.rowId) = (b.pending limit now).map (·.rowId) := by
  rw [pending, pending, hrows, filter_map, ← map_take, map_map, map_map,
    map_map]
  simp only [comp_def, hstatus, hretry, buffered, hid]

theorem pending_sublist (limit : Nat) : (b.pending limit now).Sublist (b.rows.map buffered) :=
  ((take_sublist _ _).trans filter_sublist).map _

section

variable {rows rows' : List BufferedRow} {r : BufferRow}

theorem nodup_buffered (b : EventBuffer) : ((b.rows.map buffered).map (·.rowId)).Nodup ∧
    ((b.rows.map buffered).map (·.eventId)).Nodup := by
  rw [map_map, map_map]
  exact ⟨b.nodup_rowIds, b.unique⟩

theorem mem_keys_iff {κ : Type} {key : BufferedRow → κ}
    (hkeys : ((b.rows.map buffered).map key).Nodup) (hrows : rows.Sublist (b.rows.map buffered))
    (hr : r ∈ b.rows) : key (buffered r) ∈ rows.map key ↔ buffered r ∈ rows := by
  refine ⟨fun hmem => ?_, fun hmem => mem_map_of_mem hmem⟩
  obtain ⟨x, hx, hkey⟩ := mem_map.1 hmem
  rwa [← inj_on_of_nodup_map hkeys (hrows.subset hx) (mem_map_of_mem hr) hkey]

theorem mem_rowIds_iff (hrows : rows.Sublist (b.rows.map buffered)) (hr : r ∈ b.rows) :
    r.rowId ∈ rows.map (·.rowId) ↔ buffered r ∈ rows :=
  mem_keys_iff (nodup_buffered b).1 hrows hr

theorem eq_iff_rowIds (hrows : rows.Sublist (b.rows.map buffered))
    (hrows' : rows'.Sublist (b.rows.map buffered)) :
    rows = rows' ↔ ∀ r ∈ b.rows, r.rowId ∈ rows.map (·.rowId) ↔ r.rowId ∈ rows'.map (·.rowId) := by
  refine ⟨fun h r _ => by rw [h], fun h => ?_⟩
  let before (x x' : BufferedRow) : Prop := x.rowId < x'.rowId
  have hsorted : (b.rows.map buffered).Pairwise before := pairwise_map.2 b.sorted
  have : Std.Irrefl before := ⟨fun _ => Nat.lt_irrefl _⟩
  have : Std.Antisymm before := ⟨fun _ _ h h' => absurd h' (Nat.lt_asymm h)⟩
  have hiff (r : BufferRow) (hr : r ∈ b.rows) : buffered r ∈ rows ↔ buffered r ∈ rows' := by
    rw [← mem_rowIds_iff hrows hr, ← mem_rowIds_iff hrows' hr]
    exact h r hr
  refine (hsorted.sublist hrows).eq_of_mem_iff (hsorted.sublist hrows') fun x => ?_
  constructor
  · intro hx
    obtain ⟨r, hr, rfl⟩ := mem_map.1 (hrows.subset hx)
    exact (hiff r hr).1 hx
  · intro hx
    obtain ⟨r, hr, rfl⟩ := mem_map.1 (hrows'.subset hx)
    exact (hiff r hr).2 hx

end

end

/-! ## The turn -/

/-- The rows that are read at once, and the events of a batch (`MicroBatcher.maxEvents`). -/
def batchLimit : Nat := 100

/-- `MicroBatcher.maxBodyBytes`. -/
def maxBodyBytes : Nat := 5 * 1024 * 1024

/-- The times of a turn: when the rows are read, when they are assigned to the batch, when they are
    read again, and when the failure is noted. -/
structure Clock where
  read : Time
  assigned : Time
  again : Time
  noted : Time

variable (cfg : Config) (sentAt generated code : String) (clock : Clock) (b : EventBuffer)

/-- A turn of the loop whose request fails: the batch, and the buffer after the failure is noted. -/
def failingTurn : Option (Batch × EventBuffer) :=
  match cfg.selectBatch sentAt generated batchLimit maxBodyBytes
      (b.pending batchLimit clock.read) with
  | .ok (some batch) =>
    let assigned := b.assignBatch batch clock.assigned
    match cfg.platform with
    | .windows => some (batch,
        assigned.transportFailure cfg.maxEvents batch.rows code cfg.backoff clock.noted)
    | .macOS =>
      let rows := assigned.pending batchLimit clock.again
      some (batch,
        assigned.markTransportFailure (rows.map (·.rowId)) code cfg.backoff clock.noted)
  | _ => none

/-- What is to become of a row: the failure is noted in it if it was sent. -/
def failedRow (batch : Batch) (r : BufferRow) : BufferRow :=
  if r.rowId ∈ batch.rows.map (·.rowId) then
    noted code cfg.backoff clock.noted
      { r with
        data :=
          { r.data with
            batchId := some batch.batchId
            updatedAt := clock.assigned } }
  else r

/-- On Windows, there are not too many failed rows. On macOS, the rows that are due when the failure
    is noted are the longest prefix of those that were read that share the batch of the first one and
    that one body holds. -/
def NothingElseDue : Prop :=
  match cfg.platform with
  | .windows => b.count .failed ≤ cfg.maxEvents
  | .macOS => ∃ first rest, b.pending batchLimit clock.read = first :: rest ∧
      IsLongest (Within batchLimit maxBodyBytes
          (MacOS.encodedBody cfg.encode cfg.agentId sentAt (first.batchId.getD generated)))
        (eligible first.batchId (first :: rest)) (b.pending batchLimit clock.again)

/-- The body of a batch with these rows. -/
def Config.encodedBody (batchId : String) : List BufferedRow → String :=
  match cfg.platform with
  | .windows => Windows.encodedBody (Windows.opening cfg.jsonEscape cfg.agentId batchId sentAt)
  | .macOS => MacOS.encodedBody cfg.encode cfg.agentId sentAt batchId

section

variable {cfg sentAt generated code clock b}

theorem isLongest_of_selectBatch (hencode : MacOS.JoinsEvents cfg.encode) {first : BufferedRow}
    {rest : List BufferedRow} {batch : Batch} (hids : ((first :: rest).map (·.eventId)).Nodup)
    (h : cfg.selectBatch sentAt generated batchLimit maxBodyBytes (first :: rest) =
      .ok (some batch)) :
    IsLongest (Within batchLimit maxBodyBytes
        (cfg.encodedBody sentAt (first.batchId.getD generated)))
      (eligible first.batchId (first :: rest)) batch.rows := by
  have hchooses : ChoosesLongest batchLimit maxBodyBytes
      (cfg.encodedBody sentAt (first.batchId.getD generated)) first.batchId (first :: rest)
      (cfg.selectBatch sentAt generated batchLimit maxBodyBytes (first :: rest)) := by
    unfold Config.selectBatch Config.encodedBody at *
    cases hplatform : cfg.platform with
    | windows =>
      rw [hplatform] at h
      exact Windows.isLongest_makeBatch rfl hids (Windows.fits_of_makeBatch rfl h (by decide))
    | macOS =>
      rw [hplatform] at h
      exact MacOS.isLongest_select rfl hids (hencode.grows cfg.agentId sentAt _)
        (MacOS.fits_of_select rfl hids h (by decide))
  obtain ⟨batch', hselect, hlongest⟩ := hchooses
  cases h.symm.trans hselect
  exact hlongest

/-- The batch is the one that is selected of the rows that are read. -/
structure Selected (cfg : Config) (sentAt generated : String) (clock : Clock) (b : EventBuffer)
    (batch : Batch) (first : BufferedRow) (rest : List BufferedRow) : Prop where
  read : b.pending batchLimit clock.read = first :: rest
  isLongest : IsLongest (Within batchLimit maxBodyBytes
      (cfg.encodedBody sentAt (first.batchId.getD generated)))
    (eligible first.batchId (first :: rest)) batch.rows

theorem exists_selected (hencode : MacOS.JoinsEvents cfg.encode) {batch : Batch}
    (h : cfg.selectBatch sentAt generated batchLimit maxBodyBytes
      (b.pending batchLimit clock.read) = .ok (some batch)) :
    ∃ first rest, Selected cfg sentAt generated clock b batch first rest := by
  have hids : ((b.pending batchLimit clock.read).map (·.eventId)).Nodup :=
    (nodup_buffered b).2.sublist ((pending_sublist batchLimit).map _)
  cases hread : b.pending batchLimit clock.read with
  | nil =>
    rw [hread, Config.selectBatch] at h
    cases hplatform : cfg.platform <;> rw [hplatform] at h <;> cases h
  | cons first rest =>
    rw [hread] at h hids
    exact ⟨first, rest, hread, isLongest_of_selectBatch hencode hids h⟩

namespace Selected

variable {batch : Batch} {first : BufferedRow} {rest : List BufferedRow} {r : BufferRow}
  (h : Selected cfg sentAt generated clock b batch first rest)

include h

theorem sublist_pending : batch.rows.Sublist (b.pending batchLimit clock.read) := by
  rw [h.read]
  exact h.isLongest.isPrefix.sublist.trans filter_sublist

theorem sublist : batch.rows.Sublist (b.rows.map buffered) :=
  h.sublist_pending.trans (pending_sublist batchLimit)

theorem mem_eventIds (hr : r ∈ b.rows) :
    r.eventId ∈ batch.rows.map (·.eventId) ↔ r.rowId ∈ batch.rows.map (·.rowId) :=
  (mem_keys_iff (nodup_buffered b).2 h.sublist hr).trans (mem_rowIds_iff h.sublist hr).symm

theorem pending_of_mem (hr : r ∈ b.rows) (hmem : r.rowId ∈ batch.rows.map (·.rowId)) :
    r.status = .pending := by
  obtain ⟨x, hx, hid⟩ := mem_map.1 hmem
  obtain ⟨r', hr', rfl, hpending⟩ := mem_pending (h.sublist_pending.subset hx)
  rwa [eq_of_rowId hr hr' hid.symm]

theorem rows_transportFailure_iff :
    ((b.assignBatch batch clock.assigned).transportFailure cfg.maxEvents batch.rows code
        cfg.backoff clock.noted).rows =
      b.rows.map (failedRow cfg code clock batch) ↔ b.count .failed ≤ cfg.maxEvents := by
  have hids : (batch.rows.map (·.eventId)).Nodup := (nodup_buffered b).2.sublist (h.sublist.map _)
  generalize hassigned : b.assignBatch batch clock.assigned = b'
  have hrejected : ((batch.rows.map fun row => (⟨row.eventId, code, true⟩ : Rejection)).foldl
      (reject cfg.backoff clock.noted) b').rows =
      b.rows.map (failedRow cfg code clock batch) := by
    rw [rows_reject hids, ← hassigned, (rows_assign _ _ _ b).2, map_map]
    refine map_congr_left fun r hr => ?_
    rw [failedRow, comp_apply, eventId_assigned, assigned]
    by_cases hmem : r.rowId ∈ batch.rows.map (·.rowId)
    · rw [if_pos ((h.mem_eventIds hr).2 hmem), if_pos hmem, if_pos hmem]
    · rw [if_neg (mt (h.mem_eventIds hr).1 hmem), if_neg hmem, if_neg hmem]
  -- the rows of the batch stay pending, so the failed rows are those before
  have hcount : ((batch.rows.map fun row => (⟨row.eventId, code, true⟩ : Rejection)).foldl
      (reject cfg.backoff clock.noted) b').count .failed = b.count .failed := by
    rw [EventBuffer.count, hrejected, countP_map, EventBuffer.count]
    refine countP_congr fun r hr => ?_
    rw [comp_apply, decide_eq_true_eq, decide_eq_true_eq, failedRow]
    split_ifs with hmem
    · rw [h.pending_of_mem hr hmem]
      exact .rfl
    · exact .rfl
  rw [← hcount, ← rows_prune_eq_iff, hrejected]
  rfl

theorem rows_markTransportFailure_iff :
    ((b.assignBatch batch clock.assigned).markTransportFailure
        (((b.assignBatch batch clock.assigned).pending batchLimit clock.again).map (·.rowId)) code
        cfg.backoff clock.noted).rows =
      b.rows.map (failedRow cfg code clock batch) ↔
    b.pending batchLimit clock.again = batch.rows := by
  have hids : ((b.assignBatch batch clock.assigned).pending batchLimit clock.again).map
      (·.rowId) = (b.pending batchLimit clock.again).map (·.rowId) := by
    refine rowIds_pending (rows_assign _ _ _ b).2 (fun _ => rowId_assigned)
      (fun _ => status_assigned) (fun r => ?_) batchLimit
    unfold assigned
    split_ifs <;> rfl
  have hnodup : ((b.pending batchLimit clock.again).map (·.rowId)).Nodup :=
    (nodup_buffered b).1.sublist ((pending_sublist batchLimit).map _)
  rw [hids, rows_markTransportFailure hnodup, (rows_assign _ _ _ b).2, map_map,
    eq_iff_rowIds (pending_sublist batchLimit) h.sublist, map_inj_left]
  refine forall₂_congr fun r _ => ?_
  rw [comp_apply, failedRow, rowId_assigned, assigned]
  by_cases hmem : r.rowId ∈ batch.rows.map (·.rowId)
  · by_cases hdue : r.rowId ∈ (b.pending batchLimit clock.again).map (·.rowId)
    · simp [hmem, hdue]
    · simp only [hmem, hdue, if_true, if_false, iff_true, iff_false]
      exact (noted_ne _).symm
  · by_cases hdue : r.rowId ∈ (b.pending batchLimit clock.again).map (·.rowId)
    · simp only [hmem, hdue, if_true, if_false, iff_false, not_true_eq_false]
      exact noted_ne r
    · simp [hmem, hdue]

end Selected

/-- A failure is noted in the rows of the batch, and every other row is left as it is, iff nothing
    else is due. -/
theorem rows_failingTurn_iff (hencode : MacOS.JoinsEvents cfg.encode) {batch : Batch}
    {b' : EventBuffer} (hturn : failingTurn cfg sentAt generated code clock b = some (batch, b')) :
    b'.rows = b.rows.map (failedRow cfg code clock batch) ↔
      NothingElseDue cfg sentAt generated clock b := by
  rw [failingTurn] at hturn
  split at hturn
  · rename_i selected hselect
    obtain ⟨first, rest, hselected⟩ := exists_selected hencode hselect
    cases hplatform : cfg.platform with
    | windows =>
      simp only [hplatform] at hturn
      cases hturn
      rw [hselected.rows_transportFailure_iff, NothingElseDue, hplatform]
    | macOS =>
      simp only [hplatform] at hturn
      cases hturn
      have hlongest := hselected.isLongest
      rw [Config.encodedBody, hplatform] at hlongest
      rw [hselected.rows_markTransportFailure_iff, NothingElseDue, hplatform]
      constructor
      · intro heq
        exact ⟨first, rest, hselected.read, heq ▸ hlongest⟩
      · rintro ⟨first', rest', hread, hlongest'⟩
        cases hselected.read.symm.trans hread
        exact hlongest'.unique hlongest
  · cases hturn

end

/-! ## Rows of two batches -/

def sampleMac : Config := ⟨.macOS, "agent-1", 5000, 1, 60, id, sampleEncode⟩

theorem joinsEvents_sampleEncode : MacOS.JoinsEvents sampleEncode :=
  ⟨(·.json), fun batchId agentId sentAt =>
    ⟨MacOS.opening agentId batchId, MacOS.closing sentAt, fun _ => rfl⟩⟩

def pendingRow (rowId : Nat) (digit : String) (batchId : Option String) : BufferRow :=
  let event := sampleEvent (sampleUuid digit)
  ⟨rowId, event.eventId, none, batchId, event, .pending, 0, none, none, 0, 0⟩

def twoBatches : EventBuffer :=
  ⟨[pendingRow 1 "1" (some (sampleUuid "b")), pendingRow 2 "2" none], 3, by decide, by decide,
    by decide⟩

def oneBatch : EventBuffer :=
  ⟨[pendingRow 1 "1" none, pendingRow 2 "2" none], 3, by decide, by decide, by decide⟩

def sampleTurn (b : EventBuffer) : Option (Batch × EventBuffer) :=
  failingTurn sampleMac sampleTime (sampleUuid "a") "NETWORK_ERROR" ⟨0, 0, 0, 0⟩ b

/-- The failure is also noted in a row that was not sent. -/
theorem failingTurn_twoBatches :
    ∃ batch b', sampleTurn twoBatches = some (batch, b') ∧ batch.rows.map (·.rowId) = [1] ∧
      b'.rows ≠ twoBatches.rows.map (failedRow sampleMac "NETWORK_ERROR" ⟨0, 0, 0, 0⟩ batch) ∧
      (b'.rows.map (·.data.retryCount)) = [1, 1] := by
  have h : (sampleTurn twoBatches).any (fun x => decide (x.1.rows.map (·.rowId) = [1] ∧
      x.2.rows ≠ twoBatches.rows.map (failedRow sampleMac "NETWORK_ERROR" ⟨0, 0, 0, 0⟩ x.1) ∧
      (x.2.rows.map (·.data.retryCount)) = [1, 1])) = true := by decide +kernel
  obtain ⟨x, hturn, hx⟩ := (Option.any_eq_true _ _).1 h
  exact ⟨x.1, x.2, hturn, of_decide_eq_true hx⟩

theorem rows_failingTurn_oneBatch :
    NothingElseDue sampleMac sampleTime (sampleUuid "a") ⟨0, 0, 0, 0⟩ oneBatch := by
  have h : (sampleTurn oneBatch).any (fun x => decide (x.2.rows =
      oneBatch.rows.map (failedRow sampleMac "NETWORK_ERROR" ⟨0, 0, 0, 0⟩ x.1))) = true := by
    decide +kernel
  obtain ⟨⟨batch, b'⟩, hturn, hrows⟩ := (Option.any_eq_true _ _).1 h
  exact (rows_failingTurn_iff joinsEvents_sampleEncode hturn).1 (of_decide_eq_true hrows)

end Edr.Agent
