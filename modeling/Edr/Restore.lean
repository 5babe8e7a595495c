import Edr.Catalog.Run
import Edr.Lib.Connection

/-!
# Starting a restore

`ArchiveService.start_restore`, in the handler of the API. It selects the archives of the request,
and for each of them that can be restored it requests the restore in the catalog and calls S3. Where
the call raises, the row is marked as failed and the exception is raised again.
-/

namespace Edr.ArchiveService

open List Client

structure S3Error where
  typeName : String
  message : String
  deriving DecidableEq

/-- The text that `mark_restore_failed` stores: `f"{type(error).__name__}: {error}"[:1000]`. -/
def S3Error.text (e : S3Error) : String :=
  .ofList ((e.typeName ++ ": " ++ e.message).toList.take 1000)

/-- A call of `restore_object`: the bucket that it is for, the key, and the exception if it
    raised. -/
structure RestoreCall where
  bucket : BucketKey
  objectKey : ObjectKey
  error : Option S3Error
  deriving DecidableEq

/-- The arguments of `start_restore`. -/
structure RestoreRequest where
  endpointIds : List Nat
  from_ : Time
  to_ : Time
  actorIdentifier : String
  requestId : String
  now : Time

/-- `ArchiveRestoreStartDto`, with the status code of the response. -/
structure RestoreStart where
  endpointIds : List Nat
  from_ : Time
  to_ : Time
  restoreDays : Nat := 7
  retrievalTier : String := "Standard"
  buckets : List ArchiveBucket
  statusCode : Nat

abbrev Restoring := Client Catalog (List RestoreCall) S3Error

variable (outcome : Nat → Option S3Error) (request : RestoreRequest)

/-- `restore_client.restore`, whose `n`-th call has the outcome `outcome n`. -/
def restoreObject (k : BucketKey) (objectKey : ObjectKey) : Restoring Unit :=
  .call fun calls =>
    match outcome calls.length with
    | none => (.ok (), calls ++ [⟨k, objectKey, none⟩])
    | some e => (.error e, calls ++ [⟨k, objectKey, some e⟩])

def requestRestore (k : BucketKey) : Restoring Bool :=
  .transaction (.execute
    (Catalog.requestRestore k request.actorIdentifier request.requestId request.now))

def markRestoreFailed (k : BucketKey) (error : String) : Restoring Bool :=
  .transaction (.execute (Catalog.markRestoreFailed k error))

def restoreBucket (k : BucketKey) : Restoring (Option ArchiveRow) :=
  .execute fun c => (c.restoreBucket k, c)

def dispatch (k : BucketKey) (row : ArchiveRow) : Restoring Unit :=
  (restoreObject outcome k row.storagePath).catchError fun error => do
    let _ ← markRestoreFailed k error.text
    raise error

def restoreRow (acc : List ArchiveBucket × Bool) (x : ArchiveBucket) :
    Restoring (List ArchiveBucket × Bool) := do
  let changed ← requestRestore request x.1
  if changed then
    dispatch outcome x.1 x.2
    return (acc.1 ++ [(x.1, Catalog.requestedRow request.now x.2)], true)
  else
    match ← restoreBucket x.1 with
    | some current =>
      return (acc.1 ++ [(x.1, current)], decide (current.storageStatus = .restoreRequested))
    | none => return (acc.1 ++ [x], acc.2)

/-- The loop of `start_restore`: the rows of the response and `accepted`, after a row. -/
def startRestoreRow (acc : List ArchiveBucket × Bool) (x : ArchiveBucket) :
    Restoring (List ArchiveBucket × Bool) :=
  match x.2.storageStatus with
  | .archived | .restoreFailed | .expired => restoreRow outcome request acc x
  | .restoreRequested => return (acc.1 ++ [x], true)
  | .restored => return (acc.1 ++ [x], acc.2)

def startRestore : Restoring RestoreStart := do
  let rows ← execute fun c =>
    (c.restoreBuckets request.endpointIds request.from_ request.to_, c)
  let (buckets, accepted) ← rows.foldlM (startRestoreRow outcome request) ([], false)
  return {
    endpointIds := request.endpointIds
    from_ := request.from_
    to_ := request.to_
    buckets
    statusCode := if accepted then 202 else 200 }

/-- The handler `restore_start`. -/
def restoreStart : Restoring RestoreStart := (startRestore outcome request).connect

/-! ## A row -/

structure Selected (c : Catalog) (x : ArchiveBucket) : Prop where
  row : c.archive.get? x.1 = some x.2
  isDelete : x.2.isDelete = false
  cold : c.liveHot x.1 = false

/-- The catalog says that the restore of the bucket is requested, and has the audit row of this
    request. -/
structure Requested (c : Catalog) (k : BucketKey) : Prop where
  status : c.statusOf k = some .restoreRequested
  audit : ⟨request.actorIdentifier, k, request.requestId, request.now⟩ ∈ c.auditLogs

variable {outcome request} {w : Catalog} {x : ArchiveBucket}
  {s : Session Catalog (List RestoreCall)} {acc : List ArchiveBucket × Bool}

theorem requestRestore_of_selected (hx : Selected w x)
    (hr : x.2.storageStatus.restorable = true) :
    ∃ w', w.requestRestore x.1 request.actorIdentifier request.requestId request.now = (true, w') ∧
      Requested request w' x.1 ∧ (∀ k, Requested request w k → Requested request w' k) ∧
      ∀ y, y.1 ≠ x.1 → Selected w y → Selected w' y := by
  have hres : w.restorable x.1 x.2 = true := by
    rw [Catalog.restorable, hr, hx.isDelete, hx.cold]
    rfl
  rcases Catalog.requestRestore_cases x.1 request.actorIdentifier request.requestId request.now w
    with h | ⟨-, -, -, w', h, hhot, hlogs, harch⟩
  · rw [Catalog.requestRestore, if_pos (by rw [hx.row]; exact hres)] at h
    cases h
  · have hstatus : w'.statusOf x.1 = some .restoreRequested := by
      rw [Catalog.statusOf, harch, hx.row, Option.map_some, if_pos rfl]
      rfl
    refine ⟨w', h, ⟨hstatus, ?_⟩, fun k hk => ⟨?_, ?_⟩, fun y hy hs => ⟨?_, hs.isDelete, ?_⟩⟩
    · rw [hlogs]
      exact mem_append_right _ (mem_singleton_self _)
    · by_cases hk' : k = x.1
      · rw [hk', hstatus]
      · rw [← hk.status, Catalog.statusOf, Catalog.statusOf, harch]
        simp [hk']
    · rw [hlogs]
      exact mem_append_left _ hk.audit
    · rw [harch, hs.row]
      simp [hy]
    · rw [← hs.cold, Catalog.liveHot, Catalog.liveHot, hhot]

theorem startRestoreRow_of_not_restorable (hr : x.2.storageStatus.restorable = false) :
    ∃ acc', startRestoreRow outcome request acc x s = (.ok acc', s) := by
  unfold startRestoreRow
  cases hs : x.2.storageStatus with
  | restoreRequested => exact ⟨_, rfl⟩
  | restored => exact ⟨_, rfl⟩
  | archived | restoreFailed | expired => simp [hs, ArchiveStatus.restorable] at hr

variable (outcome request acc) in
theorem startRestoreRow_of_restorable (hw : s.working = some w) (hx : Selected w x)
    (hr : x.2.storageStatus.restorable = true) :
    ∃ w', Requested request w' x.1 ∧ (∀ k, Requested request w k → Requested request w' k) ∧
      (∀ y, y.1 ≠ x.1 → Selected w y → Selected w' y) ∧
      match outcome s.world.length with
      | none => ∃ acc', startRestoreRow outcome request acc x s = (.ok acc', { s with
          working := some w', world := s.world ++ [⟨x.1, x.2.storagePath, none⟩] })
      | some e => startRestoreRow outcome request acc x s = (.error e, { s with
          working := some (w'.markRestoreFailed x.1 e.text).2
          world := s.world ++ [⟨x.1, x.2.storagePath, some e⟩] }) := by
  obtain ⟨w', hreq, hdone, hmono, hother⟩ : ∃ w', _ ∧ Requested request w' x.1 ∧ _ ∧ _ :=
    requestRestore_of_selected hx hr
  refine ⟨w', hdone, hmono, hother, ?_⟩
  have hrequest : requestRestore request x.1 s = (.ok true, { s with working := some w' }) := by
    refine transaction_of_ok hw ?_
    rw [execute, hw, Option.getD_some, hreq]
  have hrow : startRestoreRow outcome request acc x s = (dispatch outcome x.1 x.2 >>= fun _ =>
      pure (acc.1 ++ [(x.1, Catalog.requestedRow request.now x.2)], true))
        { s with working := some w' } := by
    unfold startRestoreRow
    cases hs : x.2.storageStatus with
    | archived | restoreFailed | expired => exact bind_of_ok hrequest
    | restoreRequested | restored => simp [hs, ArchiveStatus.restorable] at hr
  have hcall : restoreObject outcome x.1 x.2.storagePath { s with working := some w' } =
      match outcome s.world.length with
      | none => (.ok (), { s with
          working := some w', world := s.world ++ [⟨x.1, x.2.storagePath, none⟩] })
      | some e => (.error e, { s with
          working := some w', world := s.world ++ [⟨x.1, x.2.storagePath, some e⟩] }) := by
    unfold restoreObject call
    dsimp only
    cases outcome s.world.length <;> rfl
  rw [hrow]
  cases hout : outcome s.world.length with
  | none =>
    rw [hout] at hcall
    exact ⟨_, bind_of_ok (catchError_of_ok hcall)⟩
  | some e =>
    -- The row is marked as failed, and the exception is raised again.
    rw [hout] at hcall
    refine bind_of_error ((catchError_of_error hcall).trans ?_)
    exact bind_of_ok (transaction_of_ok rfl rfl)

/-! ## A request -/

variable (outcome) in
/-- The calls of S3 for these rows, from the `n`-th call on, and the exception that ends them. -/
def calls (n : Nat) : List ArchiveBucket → List RestoreCall × Option S3Error
  | [] => ([], none)
  | x :: rows =>
    match outcome n with
    | none => (⟨x.1, x.2.storagePath, none⟩ :: (calls (n + 1) rows).1, (calls (n + 1) rows).2)
    | some e => ([⟨x.1, x.2.storagePath, some e⟩], some e)

def restorableRows (rows : List ArchiveBucket) : List ArchiveBucket :=
  rows.filter fun x => x.2.storageStatus.restorable

variable {rows : List ArchiveBucket}

variable (outcome request acc s) in
theorem foldlM_startRestoreRow (hnodup : (rows.map Prod.fst).Nodup)
    (hrows : ∀ x ∈ rows, Selected w x) (hw : s.working = some w) :
    ∃ res w', rows.foldlM (startRestoreRow outcome request) acc s = (res, { s with
        working := some w'
        world := s.world ++ (calls outcome s.world.length (restorableRows rows)).1 }) ∧
      match (calls outcome s.world.length (restorableRows rows)).2 with
      | some e => res = .error e
      | none => (∃ acc', res = .ok acc') ∧
          (∀ x ∈ restorableRows rows, Requested request w' x.1) ∧
          ∀ k, Requested request w k → Requested request w' k := by
  induction rows generalizing acc s w with
  | nil =>
    refine ⟨.ok acc, w, ?_, ⟨acc, rfl⟩, fun x hx => (by cases hx), fun _ hk => hk⟩
    obtain ⟨c, _, l⟩ := s
    cases hw
    simp [restorableRows, calls]
    rfl
  | cons x rows ih =>
    rw [map_cons, nodup_cons] at hnodup
    have hne : ∀ y ∈ rows, y.1 ≠ x.1 := fun y hy he => hnodup.1 (he ▸ mem_map_of_mem hy)
    have hx := hrows x mem_cons_self
    cases hr : x.2.storageStatus.restorable with
    | false =>
      obtain ⟨acc', hrow⟩ : ∃ acc', startRestoreRow outcome request acc x s = (.ok acc', s) :=
        startRestoreRow_of_not_restorable hr
      have hskip : restorableRows (x :: rows) = restorableRows rows := by
        rw [restorableRows, filter_cons, hr]
        rfl
      rw [hskip, foldlM_cons, bind_of_ok hrow]
      exact ih s acc' hnodup.2 (fun y hy => hrows y (mem_cons_of_mem _ hy)) hw
    | true =>
      have hcons : restorableRows (x :: rows) = x :: restorableRows rows := by
        rw [restorableRows, filter_cons, hr]
        rfl
      obtain ⟨w₁, hdone, hmono, hother, hrow⟩ :=
        startRestoreRow_of_restorable outcome request acc hw hx hr
      rw [hcons, calls]
      cases hout : outcome s.world.length with
      | some e =>
        rw [hout] at hrow
        refine ⟨.error e, (w₁.markRestoreFailed x.1 e.text).2, ?_, rfl⟩
        exact bind_of_error hrow
      | none =>
        rw [hout] at hrow
        obtain ⟨acc', hrow⟩ := hrow
        rw [foldlM_cons, bind_of_ok hrow]
        have hsel : ∀ y ∈ rows, Selected w₁ y := fun y hy =>
          hother y (hne y hy) (hrows y (mem_cons_of_mem _ hy))
        obtain ⟨res, w', hrun, hres⟩ := ih { s with
          working := some w₁
          world := s.world ++ [⟨x.1, x.2.storagePath, none⟩] } acc' hnodup.2 hsel rfl
        refine ⟨res, w', ?_, ?_⟩
        · rw [hrun]
          simp
        · simp only [length_append, length_singleton] at hres
          dsimp only
          split
          · rename_i e he
            rw [he] at hres
            exact hres
          · rename_i he
            rw [he] at hres
            obtain ⟨hok, hall, hkeep⟩ := hres
            refine ⟨hok, ?_, fun k hk => hkeep k (hmono k hk)⟩
            exact forall_mem_cons.2 ⟨hkeep x.1 hdone, hall⟩

variable {n : Nat}

theorem calls_eq_none :
    (calls outcome n rows).2 = none ↔ ∀ i < rows.length, outcome (n + i) = none := by
  induction rows generalizing n with
  | nil => simp [calls]
  | cons x rows ih =>
    rw [length_cons, Nat.forall_lt_succ_left, calls]
    cases hout : outcome n with
    | some e => simp
    | none => simp [ih, Nat.add_assoc, Nat.add_comm 1]

theorem calls_of_none (h : (calls outcome n rows).2 = none) :
    (calls outcome n rows).1 = rows.map fun x => ⟨x.1, x.2.storagePath, none⟩ := by
  induction rows generalizing n with
  | nil => rfl
  | cons x rows ih =>
    rw [calls] at h ⊢
    cases hout : outcome n with
    | some e => simp [hout] at h
    | none =>
      rw [hout] at h
      rw [map_cons, ← ih h]

theorem calls_of_some {e : S3Error} (h : (calls outcome n rows).2 = some e) :
    ∃ pre x post, rows = pre ++ x :: post ∧ (∀ i < pre.length, outcome (n + i) = none) ∧
      outcome (n + pre.length) = some e ∧ (calls outcome n rows).1 =
        (pre.map fun x => ⟨x.1, x.2.storagePath, none⟩) ++ [⟨x.1, x.2.storagePath, some e⟩] := by
  induction rows generalizing n with
  | nil => cases h
  | cons x rows ih =>
    rw [calls] at h ⊢
    cases hout : outcome n with
    | some e' =>
      rw [hout] at h
      cases h
      exact ⟨[], x, rows, rfl, fun _ hi => absurd hi (Nat.not_lt_zero _), hout, rfl⟩
    | none =>
      rw [hout] at h
      obtain ⟨pre, y, post, rfl, hpre, hy, hcalls⟩ := ih h
      refine ⟨x :: pre, y, post, rfl, ?_, ?_, ?_⟩
      · rw [length_cons, Nat.forall_lt_succ_left]
        refine ⟨hout, fun i hi => ?_⟩
        rw [← hpre i hi, Nat.add_assoc, Nat.add_comm 1]
      · rw [← hy, length_cons, Nat.add_assoc, Nat.add_comm 1]
      · rw [map_cons, cons_append, ← hcalls]

theorem selected_of_mem {c : Catalog} {endpointIds : List Nat} {from_ to_ : Time}
    (hx : x ∈ c.restoreBuckets endpointIds from_ to_) : Selected c x := by
  have hx := Table.mem_select.1 ((perm_insertionSort _ _).mem_iff.1 hx)
  simp only [Bool.and_eq_true, Bool.not_eq_true'] at hx
  exact ⟨hx.1, hx.2.1.2, hx.2.2⟩

theorem restoreBuckets_nodup {c : Catalog} {endpointIds : List Nat} {from_ to_ : Time} :
    ((c.restoreBuckets endpointIds from_ to_).map Prod.fst).Nodup :=
  ((perm_insertionSort _ _).map _).nodup_iff.2 (Table.select_nodup _ _)

def requestedRows (request : RestoreRequest) (c : Catalog) : List ArchiveBucket :=
  restorableRows (c.restoreBuckets request.endpointIds request.from_ request.to_)

variable (outcome request) in
theorem restoreStart_spec (c : Catalog) :
    (restoreStart outcome request ⟨c, none, []⟩).2.world =
      (calls outcome 0 (requestedRows request c)).1 ∧
    match (calls outcome 0 (requestedRows request c)).2 with
    | some _ => (restoreStart outcome request ⟨c, none, []⟩).2.committed = c
    | none => ∀ x ∈ requestedRows request c,
        Requested request (restoreStart outcome request ⟨c, none, []⟩).2.committed x.1 := by
  have hsel : ∀ x ∈ c.restoreBuckets request.endpointIds request.from_ request.to_,
      Selected c x := fun x hx => selected_of_mem hx
  obtain ⟨res, w, hrun, hres⟩ := foldlM_startRestoreRow outcome request ⟨c, some c, []⟩
    ([], false) restoreBuckets_nodup hsel rfl
  rcases res with e | acc
  · -- An exception escapes, and takes back everything.
    have hbody : startRestore outcome request ⟨c, none, []⟩ = (.error e, _) :=
      (bind_of_ok rfl).trans (bind_of_error hrun)
    have hstart : restoreStart outcome request ⟨c, none, []⟩ = (.error e, _) :=
      connect_of_error hbody
    rw [hstart]
    refine ⟨rfl, ?_⟩
    split
    · rfl
    · rename_i he
      rw [length_nil] at hres
      simp only [requestedRows] at he
      rw [he] at hres
      obtain ⟨⟨acc', hok⟩, -⟩ := hres
      cases hok
  · have hbody : startRestore outcome request ⟨c, none, []⟩ = (.ok _, _) :=
      (bind_of_ok rfl).trans (bind_of_ok hrun)
    have hstart : restoreStart outcome request ⟨c, none, []⟩ = (.ok _, _) :=
      connect_of_ok hbody
    rw [hstart]
    refine ⟨rfl, ?_⟩
    split
    · rename_i e he
      simp only [requestedRows] at he
      rw [length_nil, he] at hres
      cases hres
    · rename_i he
      simp only [requestedRows] at he
      rw [length_nil, he] at hres
      exact hres.2.1

/-! ## What is durable -/

def RestoresDurable (request : RestoreRequest) (c : Catalog) (cs : List RestoreCall) : Prop :=
  ∀ call ∈ cs,
    match call.error with
    | none => Requested request c call.bucket
    | some e => ∃ row, c.archive.get? call.bucket = some row ∧
        row.storageStatus = .restoreFailed ∧ row.lastError = some e.text

/-- After the handler the catalog says of every call what became of it iff no call has failed, or
    it is the first one that has, and the row said so already, with the same error. -/
theorem restoresDurable_iff (outcome : Nat → Option S3Error) (request : RestoreRequest)
    (c : Catalog) :
    RestoresDurable request (restoreStart outcome request ⟨c, none, []⟩).2.committed
        (restoreStart outcome request ⟨c, none, []⟩).2.world ↔
      (∀ i < (requestedRows request c).length, outcome i = none) ∨
      ∃ x e, (requestedRows request c).head? = some x ∧ outcome 0 = some e ∧
        x.2.storageStatus = .restoreFailed ∧ x.2.lastError = some e.text := by
  obtain ⟨hworld, hcommitted⟩ := restoreStart_spec outcome request c
  have hsel : ∀ x ∈ requestedRows request c, Selected c x ∧ x.2.storageStatus.restorable = true :=
    fun x hx => ⟨selected_of_mem (mem_of_mem_filter hx), (mem_filter.1 hx).2⟩
  rw [hworld]
  rcases hcalls : (calls outcome 0 (requestedRows request c)).2 with _ | e
  · -- No call has failed.
    rw [hcalls] at hcommitted
    have hnone := calls_eq_none.1 hcalls
    simp only [Nat.zero_add] at hnone
    refine iff_of_true ?_ (.inl hnone)
    intro call hcall
    rw [calls_of_none hcalls, mem_map] at hcall
    obtain ⟨x, hx, rfl⟩ := hcall
    exact hcommitted x hx
  · rw [hcalls] at hcommitted
    rw [hcommitted]
    obtain ⟨pre, x, post, hrows, hpre, hx, hcs⟩ := calls_of_some hcalls
    simp only [Nat.zero_add] at hpre hx
    rw [hcs, hrows]
    rw [hrows] at hsel
    constructor
    · intro hd
      -- The requests before the call that failed are taken back, so there are none.
      cases pre with
      | cons y pre =>
        have hreq : Requested request c y.1 := hd _ mem_cons_self
        obtain ⟨hy, hres⟩ := hsel y mem_cons_self
        have hstatus := hreq.status
        rw [Catalog.statusOf, hy.row, Option.map_some, Option.some.injEq] at hstatus
        rw [hstatus] at hres
        cases hres
      | nil =>
        obtain ⟨row, hrow, hst, herr⟩ := hd _ (mem_singleton_self _)
        have hxr := (hsel x mem_cons_self).1.row
        cases hxr.symm.trans hrow
        exact .inr ⟨x, e, rfl, hx, hst, herr⟩
    · rintro (hnone | ⟨x', e', hhead, hx', hst, herr⟩)
      · rw [hnone pre.length (by simp)] at hx
        cases hx
      · cases pre with
        | cons y pre =>
          rw [hpre 0 (by simp)] at hx'
          cases hx'
        | nil =>
          cases hhead
          cases hx.symm.trans hx'
          intro call hcall
          rw [mem_singleton.1 hcall]
          exact ⟨x.2, (hsel x mem_cons_self).1.row, hst, herr⟩

/-! ## A call that fails -/

def archivedDay : Catalog :=
  [Catalog.Op.hotIngest ⟨7, 20635⟩, .hotIngest ⟨8, 20635⟩,
    .record ⟨7, 20635⟩ ⟨20635, 7⟩ 1 512 "checksum-7" (dayStart 20636),
    .record ⟨8, 20635⟩ ⟨20635, 8⟩ 1 512 "checksum-8" (dayStart 20636),
    .claimPartitionDeletion 20635 (dayStart 20640)].foldl Catalog.perform .empty

def sampleRequest : RestoreRequest where
  endpointIds := [7, 8]
  from_ := dayStart 20635
  to_ := dayEnd 20635
  actorIdentifier := "analyst"
  requestId := "request-1"
  now := dayStart 20650

def secondFails : Nat → Option S3Error
  | 1 => some ⟨"ClientError", "SlowDown"⟩
  | _ => none

/-- The first bucket is dispatched, and the catalog says that it is archived, without an audit row;
    the second one has failed, and the catalog says the same of it. -/
theorem restores_lost :
    let t := (restoreStart secondFails sampleRequest ⟨archivedDay, none, []⟩).2
    t.world = [⟨⟨7, 20635⟩, ⟨20635, 7⟩, none⟩,
      ⟨⟨8, 20635⟩, ⟨20635, 8⟩, some ⟨"ClientError", "SlowDown"⟩⟩] ∧
    t.committed.statusOf ⟨7, 20635⟩ = some .archived ∧
    t.committed.statusOf ⟨8, 20635⟩ = some .archived ∧ t.committed.auditLogs = [] ∧
    ¬RestoresDurable sampleRequest t.committed t.world := by
  refine ⟨by decide, by decide, by decide, by decide, fun hd => ?_⟩
  have hreq : Requested sampleRequest _ ⟨7, 20635⟩ :=
    hd ⟨⟨7, 20635⟩, ⟨20635, 7⟩, none⟩ (by decide)
  exact absurd hreq.audit (by decide)

end Edr.ArchiveService
