import Edr.Lib.Fold
import Edr.Restore

/-!
# The status code of a restore request

`start_restore` answers 202 when it has accepted something. Other requests and the lifecycle worker
change the rows meanwhile: `request_restore` then switches nothing, and `restore_bucket` reads what
has become of the row.
-/

namespace Edr.ArchiveService

open List Function Catalog

/-- What `start_restore` calls: the repository, and the client of S3. -/
structure Services (m : Type → Type) where
  restoreBuckets : List Nat → Time → Time → m (List ArchiveBucket)
  requestRestore : BucketKey → m Bool
  restoreBucket : BucketKey → m (Option ArchiveRow)
  /-- `restore_client.restore`; where it raises, `mark_restore_failed`, and the exception again. -/
  dispatch : BucketKey → ArchiveRow → m Unit

namespace Services

variable {m : Type → Type} [Monad m] (services : Services m) (request : RestoreRequest)

def restoreRow (acc : List ArchiveBucket × Bool) (x : ArchiveBucket) :
    m (List ArchiveBucket × Bool) := do
  let changed ← services.requestRestore x.1
  if changed then
    services.dispatch x.1 x.2
    return (acc.1 ++ [(x.1, requestedRow request.now x.2)], true)
  else
    match ← services.restoreBucket x.1 with
    | some current =>
      return (acc.1 ++ [(x.1, current)], decide (current.storageStatus = .restoreRequested))
    | none => return (acc.1 ++ [x], acc.2)

/-- The loop: the rows of the response and `accepted`, after a row. -/
def startRestoreRow (acc : List ArchiveBucket × Bool) (x : ArchiveBucket) :
    m (List ArchiveBucket × Bool) :=
  match x.2.storageStatus with
  | .archived | .restoreFailed | .expired => services.restoreRow request acc x
  | .restoreRequested => return (acc.1 ++ [x], true)
  | .restored => return (acc.1 ++ [x], acc.2)

/-- `ArchiveService.start_restore`, over its services. -/
def startRestore : m RestoreStart := do
  let rows ← services.restoreBuckets request.endpointIds request.from_ request.to_
  let (buckets, accepted) ← rows.foldlM (services.startRestoreRow request) ([], false)
  return {
    endpointIds := request.endpointIds
    from_ := request.from_
    to_ := request.to_
    buckets
    statusCode := if accepted then 202 else 200 }

end Services

/-! ## The services -/

def client (outcome : Nat → Option S3Error) (request : RestoreRequest) : Services Restoring where
  restoreBuckets endpointIds from_ to_ :=
    Client.execute fun c => (c.restoreBuckets endpointIds from_ to_, c)
  requestRestore k := ArchiveService.requestRestore request k
  restoreBucket k := ArchiveService.restoreBucket k
  dispatch k row := ArchiveService.dispatch outcome k row

theorem startRestore_client (outcome : Nat → Option S3Error) (request : RestoreRequest) :
    (client outcome request).startRestore request = ArchiveService.startRestore outcome request :=
  rfl

/-- The catalog, with the transactions that others commit before each of the next statements. -/
structure Race where
  catalog : Catalog
  others : List (List Catalog.Op)

abbrev Racing := StateT Race (Except S3Error)

def statement {α : Type} (f : Catalog → α × Catalog) : Racing α := fun s =>
  let c := (s.others.headD []).foldl perform s.catalog
  .ok ((f c).1, ⟨(f c).2, s.others.tail⟩)

/-- The services among the transactions of others. The call of S3 for a bucket raises
    `outcome k`, if that is an exception. -/
def racing (outcome : BucketKey → Option S3Error) (request : RestoreRequest) : Services Racing where
  restoreBuckets endpointIds from_ to_ :=
    statement fun c => (c.restoreBuckets endpointIds from_ to_, c)
  requestRestore k :=
    statement (Catalog.requestRestore k request.actorIdentifier request.requestId request.now)
  restoreBucket k := statement fun c => (c.restoreBucket k, c)
  dispatch k _ :=
    match outcome k with
    | none => pure ()
    | some error => do
      let _ ← statement (Catalog.markRestoreFailed k error.text)
      throw error

structure Answer where
  requestRestore : Bool := false
  restoreBucket : Option ArchiveRow := none
  restore : Option S3Error := none

def answering (rows : List ArchiveBucket) (answers : BucketKey → Answer) :
    Services (Except S3Error) where
  restoreBuckets _ _ _ := .ok rows
  requestRestore k := .ok (answers k).requestRestore
  restoreBucket k := .ok (answers k).restoreBucket
  dispatch k _ :=
    match (answers k).restore with
    | none => .ok ()
    | some error => .error error

/-! ## What the loop returns -/

section

variable (answers : BucketKey → Answer) (request : RestoreRequest)

def Switched (x : ArchiveBucket) : Prop :=
  x.2.storageStatus.restorable = true ∧ (answers x.1).requestRestore = true

def returned (x : ArchiveBucket) : ArchiveBucket :=
  if x.2.storageStatus.restorable then
    if (answers x.1).requestRestore then (x.1, requestedRow request.now x.2)
    else (x.1, (answers x.1).restoreBucket.getD x.2)
  else x

/-- The bucket is `RESTORE_REQUESTED` in the response. -/
def Accepted (x : ArchiveBucket) : Prop :=
  (returned answers request x).2.storageStatus = .restoreRequested

/-- The row could be restored when it was selected, and has since come to a status that is not
    `RESTORE_REQUESTED`, so that nothing is switched. -/
def Lost (x : ArchiveBucket) : Prop :=
  x.2.storageStatus.restorable = true ∧ (answers x.1).requestRestore = false ∧
    ∃ current ∈ (answers x.1).restoreBucket, current.storageStatus ≠ .restoreRequested

instance (x : ArchiveBucket) : Decidable (Accepted answers request x) :=
  inferInstanceAs (Decidable (_ = _))

instance (x : ArchiveBucket) : Decidable (Lost answers x) :=
  inferInstanceAs (Decidable (_ ∧ _ ∧ ∃ current ∈ _, _))

/-- `accepted` after a row. -/
def accept (accepted : Bool) (x : ArchiveBucket) : Bool :=
  if Accepted answers request x then true else if Lost answers x then false else accepted

variable {answers request} {rows : List ArchiveBucket} {x : ArchiveBucket}

theorem accept_of_accepted (h : Accepted answers request x) (b : Bool) :
    accept answers request b x = true := by
  rw [accept, if_pos h]

theorem Lost.not_accepted (h : Lost answers x) : ¬Accepted answers request x := by
  obtain ⟨hrestorable, hchanged, current, hcurrent, hstatus⟩ := h
  rw [Accepted, returned, if_pos hrestorable, hchanged, if_neg Bool.false_ne_true, hcurrent]
  exact hstatus

theorem accept_of_lost (h : Lost answers x) (b : Bool) : accept answers request b x = false := by
  rw [accept, if_neg h.not_accepted, if_pos h]

theorem accept_of_neither (h : ¬Accepted answers request x) (h' : ¬Lost answers x) (b : Bool) :
    accept answers request b x = b := by
  rw [accept, if_neg h, if_neg h']

variable {acc acc' : List ArchiveBucket × Bool}

theorem restoreRow_answering (hs : x.2.storageStatus.restorable = true)
    (h : (answering rows answers).restoreRow request acc x = .ok acc') :
    acc' = (acc.1 ++ [returned answers request x], accept answers request acc.2 x) := by
  unfold Services.restoreRow at h
  cases hchanged : (answers x.1).requestRestore with
  | true =>
    have hx : returned answers request x = (x.1, requestedRow request.now x.2) := by
      rw [returned, if_pos hs, if_pos hchanged]
    have haccepted : Accepted answers request x := by
      rw [Accepted, hx]
      rfl
    rw [hx, accept_of_accepted haccepted]
    simp only [answering, hchanged] at h
    cases hrestore : (answers x.1).restore with
    | none =>
      rw [hrestore] at h
      exact (Except.ok.inj h).symm
    | some error =>
      rw [hrestore] at h
      cases h
  | false =>
    have hx : returned answers request x = (x.1, (answers x.1).restoreBucket.getD x.2) := by
      rw [returned, if_pos hs, hchanged, if_neg Bool.false_ne_true]
    simp only [answering, hchanged] at h
    cases hcurrent : (answers x.1).restoreBucket with
    | none =>
      rw [hcurrent] at h
      rw [hx, hcurrent, accept_of_neither]
      · exact (Except.ok.inj h).symm
      · rw [Accepted, hx, hcurrent, Option.getD_none]
        intro hstatus
        rw [hstatus] at hs
        cases hs
      · rintro ⟨-, -, current, hmem, -⟩
        rw [hcurrent] at hmem
        cases hmem
    | some current =>
      rw [hcurrent] at h
      rw [hx, hcurrent, Option.getD_some]
      have hacc := (Except.ok.inj h).symm
      by_cases hstatus : current.storageStatus = .restoreRequested
      · rw [accept_of_accepted (by rw [Accepted, hx, hcurrent]; exact hstatus)]
        rwa [decide_eq_true hstatus] at hacc
      · rw [accept_of_lost ⟨hs, hchanged, current, hcurrent, hstatus⟩]
        rwa [decide_eq_false hstatus] at hacc

theorem startRestoreRow_answering
    (h : (answering rows answers).startRestoreRow request acc x = .ok acc') :
    acc' = (acc.1 ++ [returned answers request x], accept answers request acc.2 x) := by
  unfold Services.startRestoreRow at h
  cases hs : x.2.storageStatus <;> rw [hs] at h <;> dsimp only at h
  case archived => exact restoreRow_answering (by rw [hs]; rfl) h
  case restoreFailed => exact restoreRow_answering (by rw [hs]; rfl) h
  case expired => exact restoreRow_answering (by rw [hs]; rfl) h
  case restoreRequested =>
    have hx : returned answers request x = x := by rw [returned, hs]; rfl
    cases h
    rw [hx, accept_of_accepted (by rw [Accepted, hx, hs])]
  case restored =>
    have hx : returned answers request x = x := by rw [returned, hs]; rfl
    cases h
    rw [hx, accept_of_neither]
    · rw [Accepted, hx, hs]
      decide
    · intro hlost
      have := hlost.1
      rw [hs] at this
      cases this

theorem foldlM_startRestoreRow_answering {rows' : List ArchiveBucket}
    (h : rows'.foldlM ((answering rows answers).startRestoreRow request) acc = .ok acc') :
    acc' = (acc.1 ++ rows'.map (returned answers request),
      rows'.foldl (accept answers request) acc.2) := by
  induction rows' generalizing acc with
  | nil =>
    cases h
    rw [map_nil, append_nil, foldl_nil]
  | cons x rows' ih =>
    rw [foldlM_cons] at h
    obtain ⟨acc₁, hx, h⟩ := bind_eq_ok.1 h
    rw [ih h, startRestoreRow_answering hx, map_cons, foldl_cons, append_assoc, singleton_append]

end

/-! ## The status code -/

section

variable {answers : BucketKey → Answer} {request : RestoreRequest}
  {rows : List ArchiveBucket} {r : RestoreStart}

structure Reported (answers : BucketKey → Answer) (rows : List ArchiveBucket)
    (r : RestoreStart) : Prop where
  statusCode : r.statusCode = 202 ↔ ∃ b ∈ r.buckets, b.2.storageStatus = .restoreRequested
  switched : ∀ x ∈ rows, Switched answers x →
    ∃ b ∈ r.buckets, b.1 = x.1 ∧ b.2.storageStatus = .restoreRequested

def LateLoss (answers : BucketKey → Answer) (request : RestoreRequest)
    (rows : List ArchiveBucket) : Prop :=
  ∃ before x after, rows = before ++ x :: after ∧ Lost answers x ∧
    (∃ y ∈ before, Accepted answers request y) ∧ ∀ y ∈ after, ¬Accepted answers request y

theorem foldl_accept_eq_self {b : Bool} (h : ∀ y ∈ rows, accept answers request b y = b) :
    rows.foldl (accept answers request) b = b := by
  induction rows with
  | nil => rfl
  | cons x rows ih =>
    rw [foldl_cons, h x mem_cons_self]
    exact ih fun y hy => h y (mem_cons_of_mem x hy)

theorem foldl_accept_of_none (h : ∀ y ∈ rows, ¬Accepted answers request y) :
    rows.foldl (accept answers request) false = false :=
  foldl_accept_eq_self fun y hy => by rw [accept, if_neg (h y hy), ite_self]

theorem foldl_accept_of_no_loss (h : ∀ y ∈ rows, ¬Lost answers y) :
    rows.foldl (accept answers request) true = true :=
  foldl_accept_eq_self fun y hy => by rw [accept, if_neg (h y hy), ite_self]

theorem exists_last_accepted (h : ∃ y ∈ rows, Accepted answers request y) :
    ∃ before y after, rows = before ++ y :: after ∧ Accepted answers request y ∧
      ∀ z ∈ after, ¬Accepted answers request z := by
  induction rows with
  | nil => simp at h
  | cons x rows ih =>
    by_cases hrows : ∃ y ∈ rows, Accepted answers request y
    · obtain ⟨before, y, after, rfl, hy⟩ := ih hrows
      exact ⟨x :: before, y, after, rfl, hy⟩
    · obtain ⟨y, hy, haccepted⟩ := h
      rcases mem_cons.1 hy with rfl | hy
      · exact ⟨[], y, rows, rfl, haccepted, fun z hz hz' => hrows ⟨z, hz, hz'⟩⟩
      · exact absurd ⟨y, hy, haccepted⟩ hrows

theorem lateLoss_iff : LateLoss answers request rows ↔
    rows.foldl (accept answers request) false = false ∧ ∃ y ∈ rows, Accepted answers request y := by
  constructor
  · rintro ⟨before, x, after, rfl, hlost, ⟨y, hy, haccepted⟩, hafter⟩
    refine ⟨?_, y, mem_append_left _ hy, haccepted⟩
    rw [foldl_append, foldl_cons, accept_of_lost hlost]
    exact foldl_accept_of_none hafter
  · rintro ⟨hfalse, haccepted⟩
    obtain ⟨before, y, after, rfl, hy, hafter⟩ := exists_last_accepted haccepted
    rw [foldl_append, foldl_cons, accept_of_accepted hy] at hfalse
    -- From the last accepted row on only a loss can clear the flag.
    have hlost : ∃ x ∈ after, Lost answers x := by
      by_contra hnone
      rw [foldl_accept_of_no_loss fun x hx hlost => hnone ⟨x, hx, hlost⟩] at hfalse
      cases hfalse
    obtain ⟨x, hx, hlost⟩ := hlost
    obtain ⟨middle, after', rfl⟩ := append_of_mem hx
    refine ⟨before ++ y :: middle, x, after', by simp, hlost, ⟨y, by simp, hy⟩, fun z hz => ?_⟩
    exact hafter z (by simp [hz])

theorem startRestore_answering (h : (answering rows answers).startRestore request = .ok r) :
    r.buckets = rows.map (returned answers request) ∧
      r.statusCode = if rows.foldl (accept answers request) false then 202 else 200 := by
  obtain ⟨_, hrows, h⟩ := bind_eq_ok.1 h
  cases hrows
  obtain ⟨acc, hacc, h⟩ := bind_eq_ok.1 h
  cases h
  rw [foldlM_startRestoreRow_answering hacc]
  exact ⟨rfl, rfl⟩

theorem Switched.accepted {x : ArchiveBucket} (h : Switched answers x) :
    returned answers request x = (x.1, requestedRow request.now x.2) := by
  rw [returned, if_pos h.1, if_pos h.2]

/-- **The status code of a restore request.** When `start_restore` returns, it answers 202 exactly
    if a bucket of the response is `RESTORE_REQUESTED`, and every bucket that it has switched is, if
    and only if no row is lost after the last accepted one. -/
theorem startRestore_reported_iff
    (h : (answering rows answers).startRestore request = .ok r) :
    Reported answers rows r ↔ ¬LateLoss answers request rows := by
  obtain ⟨hbuckets, hcode⟩ := startRestore_answering h
  have hexists : (∃ b ∈ r.buckets, b.2.storageStatus = .restoreRequested) ↔
      ∃ y ∈ rows, Accepted answers request y := by
    simp only [hbuckets, mem_map, exists_exists_and_eq_and]
    rfl
  have hcode' : r.statusCode = 202 ↔ rows.foldl (accept answers request) false = true := by
    rw [hcode]
    split_ifs <;> simp_all
  have hswitched : ∀ x ∈ rows, Switched answers x →
      ∃ b ∈ r.buckets, b.1 = x.1 ∧ b.2.storageStatus = .restoreRequested := by
    intro x hx hsw
    rw [hbuckets]
    exact ⟨_, mem_map_of_mem hx, by rw [hsw.accepted], by rw [hsw.accepted]; rfl⟩
  rw [lateLoss_iff]
  constructor
  · rintro hr ⟨hfalse, haccepted⟩
    have := hcode'.1 (hr.statusCode.2 (hexists.2 haccepted))
    rw [hfalse] at this
    cases this
  · intro hno
    refine ⟨?_, hswitched⟩
    rw [hcode', hexists]
    constructor
    · intro htrue
      by_contra hnone
      rw [foldl_accept_of_none fun y hy hy' => hnone ⟨y, hy, hy'⟩] at htrue
      cases htrue
    · intro haccepted
      by_contra hfalse
      exact hno ⟨Bool.eq_false_iff.2 hfalse, haccepted⟩

end

/-! ## Among other transactions -/

section

variable (rows : List ArchiveBucket) {outcome : BucketKey → Option S3Error}
  {request : RestoreRequest} {x : ArchiveBucket}
  {acc acc' : List ArchiveBucket × Bool} {s s' : Race}

/-- A row that can be restored sees an answer of `request_restore` and, if nothing is switched, one
    of `restore_bucket`. -/
theorem restoreRow_racing
    (h : (racing outcome request).restoreRow request acc x s = .ok (acc', s')) :
    ∃ answer, ∀ answers : BucketKey → Answer, answers x.1 = answer →
      (answering rows answers).restoreRow request acc x = .ok acc' := by
  unfold Services.restoreRow at h
  obtain ⟨changed, s₁, hchanged⟩ : ∃ changed s₁,
    (racing outcome request).requestRestore x.1 s = .ok (changed, s₁) := ⟨_, _, rfl⟩
  simp only [bind, StateT.bind, Except.bind, hchanged] at h
  cases changed with
  | true =>
    refine ⟨{ requestRestore := true }, fun answers hx => ?_⟩
    rw [if_pos rfl] at h
    simp only [racing] at h
    cases houtcome : outcome x.1 with
    | none =>
      rw [houtcome] at h
      cases h
      simp [Services.restoreRow, answering, hx, bind, Except.bind, pure, Except.pure]
    | some error =>
      rw [houtcome] at h
      cases h
  | false =>
    obtain ⟨current, s₂, hcurrent⟩ : ∃ current s₂,
      (racing outcome request).restoreBucket x.1 s₁ = .ok (current, s₂) := ⟨_, _, rfl⟩
    refine ⟨{ restoreBucket := current }, fun answers hx => ?_⟩
    rw [if_neg Bool.false_ne_true] at h
    replace h : ((match current with
      | some current => pure
          (acc.1 ++ [(x.1, current)], decide (current.storageStatus = .restoreRequested))
      | none => pure (acc.1 ++ [x], acc.2)) : Racing _) s₂ = .ok (acc', s') := by
      simpa only [StateT.bind, bind, Except.bind, hcurrent] using h
    cases current <;> cases h <;>
      simp [Services.restoreRow, answering, hx, bind, Except.bind, pure, Except.pure]

theorem startRestoreRow_racing
    (h : (racing outcome request).startRestoreRow request acc x s = .ok (acc', s')) :
    ∃ answer, ∀ answers : BucketKey → Answer, answers x.1 = answer →
      (answering rows answers).startRestoreRow request acc x = .ok acc' := by
  unfold Services.startRestoreRow at h ⊢
  cases hs : x.2.storageStatus <;> rw [hs] at h <;> dsimp only at h ⊢
  case archived => exact restoreRow_racing rows h
  case restoreFailed => exact restoreRow_racing rows h
  case expired => exact restoreRow_racing rows h
  case restoreRequested =>
    cases h
    exact ⟨{}, fun _ _ => rfl⟩
  case restored =>
    cases h
    exact ⟨{}, fun _ _ => rfl⟩

theorem foldlM_startRestoreRow_racing {rows' : List ArchiveBucket}
    (hnodup : (rows'.map Prod.fst).Nodup)
    (h : rows'.foldlM ((racing outcome request).startRestoreRow request) acc s = .ok (acc', s')) :
    ∃ answers : BucketKey → Answer, ∀ answers' : BucketKey → Answer,
      (∀ x ∈ rows', answers' x.1 = answers x.1) →
        rows'.foldlM ((answering rows answers').startRestoreRow request) acc = .ok acc' := by
  induction rows' generalizing acc s with
  | nil =>
    cases h
    exact ⟨fun _ => {}, fun _ _ => rfl⟩
  | cons x rows' ih =>
    obtain ⟨hx, hnodup⟩ := nodup_cons.1 hnodup
    rw [foldlM_cons] at h
    obtain ⟨⟨acc₁, s₁⟩, hrow, h⟩ := bind_eq_ok.1 h
    obtain ⟨answer, hanswer⟩ := startRestoreRow_racing rows hrow
    obtain ⟨answers, hanswers⟩ := ih hnodup h
    refine ⟨update answers x.1 answer, fun answers' hagree => ?_⟩
    rw [foldlM_cons, hanswer answers' (by rw [hagree x mem_cons_self]; simp)]
    refine hanswers answers' fun y hy => ?_
    have hne : y.1 ≠ x.1 := fun heq => hx (heq ▸ mem_map_of_mem hy)
    rw [hagree y (mem_cons_of_mem x hy), update_of_ne hne]

theorem startRestore_racing {r : RestoreStart}
    (h : (racing outcome request).startRestore request s = .ok (r, s')) :
    ∃ answers, (answering (((s.others.headD []).foldl Catalog.perform s.catalog).restoreBuckets
      request.endpointIds request.from_ request.to_) answers).startRestore request = .ok r := by
  -- The selection itself does not raise.
  obtain ⟨⟨acc, s₂⟩, hloop, h⟩ := bind_eq_ok.1 h
  cases h
  obtain ⟨answers, hanswers⟩ := foldlM_startRestoreRow_racing _ restoreBuckets_nodup hloop
  exact ⟨answers, bind_eq_ok.2 ⟨_, rfl, bind_eq_ok.2 ⟨acc, hanswers answers fun _ _ => rfl, rfl⟩⟩⟩

end

/-! ## A request that is forgotten -/

def dayRows : List ArchiveBucket :=
  archivedDay.restoreBuckets [7, 8] (dayStart 20635) (dayEnd 20635)

/-- The first bucket has been restored by others, the second one is switched. -/
def firstLost (k : BucketKey) : Answer :=
  if k.endpointId = 7 then
    { restoreBucket := (archivedDay.restoreBucket k).map fun row =>
        { row with storageStatus := .restored } }
  else { requestRestore := true }

theorem startRestore_reported_iff_switched :
    ∃ r, (answering dayRows firstLost).startRestore sampleRequest = .ok r ∧
      r.statusCode = 202 ∧ Reported firstLost dayRows r := by
  obtain ⟨r, hr, hcode⟩ : ∃ r, (answering dayRows firstLost).startRestore sampleRequest =
    .ok r ∧ r.statusCode = 202 := ⟨_, rfl, rfl⟩
  refine ⟨r, hr, hcode, (startRestore_reported_iff hr).2 ?_⟩
  rw [lateLoss_iff]
  decide +kernel

def restoredMeanwhile : List (List Catalog.Op) := [[], [], [
  .requestRestore ⟨8, 20635⟩ "operator" "request-2" (dayStart 20650),
  .markRestored ⟨8, 20635⟩ (dayStart 20650) (dayStart 20657)]]

/-- The first bucket is switched to `RESTORE_REQUESTED` and returned so, and the status code is
    200. The branch of a lost row assigns `accepted`, where the others only ever set it. -/
theorem accepted_forgotten :
    ∃ r s, (racing (fun _ => none) sampleRequest).startRestore sampleRequest
        ⟨archivedDay, restoredMeanwhile⟩ = .ok (r, s) ∧
      r.buckets.map (fun b => (b.1, b.2.storageStatus)) =
        [(⟨7, 20635⟩, .restoreRequested), (⟨8, 20635⟩, .restored)] ∧
      r.statusCode = 200 ∧ s.catalog.statusOf ⟨7, 20635⟩ = some .restoreRequested ∧
      ¬(r.statusCode = 202 ↔ ∃ b ∈ r.buckets, b.2.storageStatus = .restoreRequested) := by
  exact ⟨_, _, rfl, by decide +kernel, by decide +kernel, by decide +kernel, by decide +kernel⟩

/-- What the two rows saw of the others are the answers for it. -/
theorem startRestore_racing_meanwhile :
    ∃ answers r, (answering dayRows answers).startRestore sampleRequest = .ok r ∧
      r.statusCode = 200 := by
  have h : (racing (fun _ => none) sampleRequest).startRestore sampleRequest
    ⟨archivedDay, restoredMeanwhile⟩ = .ok (_, _) := rfl
  obtain ⟨answers, hr⟩ := startRestore_racing h
  exact ⟨answers, _, hr, by decide +kernel⟩

end Edr.ArchiveService
