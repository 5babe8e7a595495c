import Edr.Catalog
import Edr.Lib.Waits

/-!
# No deadlock

The transactions of the storage workers, of the rollup synchronizers and of the lifecycle worker in
PostgreSQL, as far as they wait for each other: each is the list of the locks that it asks for, in
their order. What it finds in the tables decides which of them it needs, and is left open here.

The advisory locks are known by numbers, the hash values of their names, of which nothing is assumed.

`no_deadlock`: in no reachable state do transactions wait for each other in a circle. The registry
comes before the advisory locks, these before the rows of the hot storage, and these before the rows
of the archive. Two kinds of transactions take several resources of one sort in whatever order. For
the dates of a rollup this does no harm since it holds the rollup lock, so that it is the only one,
and for the rows of the lifecycle worker since there is only one such worker. So the order (`rank`)
depends on the state: what these hold comes before what they do not hold.
-/

namespace Edr.Deadlock

open List Transaction Bool

/-! ## Resources -/

/-- The two rows of `ingest_metadata` that a bucket has. -/
inductive MetadataRow
  /-- `CLICKHOUSE`, `HOT`. -/
  | hot
  /-- `S3`, `GLACIER_FLEXIBLE_RETRIEVAL`. -/
  | archive
  deriving DecidableEq

inductive Resource
  /-- A key of `event_ingest_registry`. -/
  | registry (eventId : UUID)
  | advisory (key : Int)
  /-- A row of `ingest_metadata`, or its key before there is a row. -/
  | metadata (row : MetadataRow) (bucket : BucketKey)
  deriving DecidableEq

/-- `hashtext` of the names of the advisory locks. -/
structure LockKeys where
  /-- The one of `edr_events:` with the date. -/
  date : Day → Int
  /-- The one of `ROLLUP_NAME`. -/
  rollup : Int

def exclusive (r : Resource) : LockRequest Resource := ⟨r, .exclusive, true⟩

def shared (r : Resource) : LockRequest Resource := ⟨r, .shared, true⟩

/-! ## Transactions -/

section

variable (keys : LockKeys)

/-- `claim`: the insert waits for a transaction that inserts the same id. If this is committed,
    nothing is inserted (`created`). -/
def claim (eventId : UUID) (created : Bool) (body : List (LockRequest Resource)) :
    List (LockRequest Resource) :=
  ⟨.registry eventId, .exclusive, created⟩ :: body

/-- `hot_ingest_guard`: nothing is locked on a day that is `frozen`, and only the row where that is
    deleted; the archive is updated if it is verified. -/
def hotIngestGuard (bucket : BucketKey) (frozen isDelete verified : Bool) :
    List (LockRequest Resource) :=
  shared (.advisory (keys.date bucket.bucketStartAt)) ::
    if frozen then []
    else exclusive (.metadata .hot bucket) ::
      if isDelete then []
      else if verified then [exclusive (.metadata .archive bucket)]
      else []

/-- `EventStorageWorker._process`: only an event that is new to the registry, and not `existing` in
    ClickHouse, is guarded. -/
def process (eventId : UUID) (bucket : BucketKey)
    (created existing frozen isDelete verified : Bool) : List (LockRequest Resource) :=
  claim eventId created
    (if created && !existing then hotIngestGuard keys bucket frozen isDelete verified else [])

/-- `DashboardEventRollupRepository._lock`. -/
def rollupLock : LockRequest Resource := exclusive (.advisory keys.rollup)

def writerGuard (bucketDates : Finset Day) (body : List (LockRequest Resource)) :
    List (LockRequest Resource) :=
  rollupLock keys ::
    (bucketDates.sort (· ≤ ·)).map (fun d => shared (.advisory (keys.date d))) ++ body

/-- `refresh_range`: every segment is replaced on its own. -/
def refreshRange (bucketDates : Finset Day) (segments : Nat) : List (LockRequest Resource) :=
  writerGuard keys bucketDates (.replicate segments (rollupLock keys))

/-- `refresh_buckets`: there may be nothing to replace. -/
def refreshBuckets (bucketDates : Finset Day) (refreshable : Bool) : List (LockRequest Resource) :=
  writerGuard keys bucketDates (if refreshable then [rollupLock keys] else [])

/-- `record_verified_archive`: an update of the hot row, if it is still there, and an upsert. -/
def recordVerifiedArchive (bucket : BucketKey) (hot : Bool) : List (LockRequest Resource) :=
  (if hot then [exclusive (.metadata .hot bucket)] else []) ++
    [exclusive (.metadata .archive bucket)]

/-- `archive_guard` of a candidate, with what is done under it: nothing if the hot row is not found,
    or if the events have changed. -/
def archiveCandidate (bucket : BucketKey) (found unchanged hot : Bool) :
    List (LockRequest Resource) :=
  exclusive (.advisory (keys.date bucket.bucketStartAt)) ::
    if found then
      exclusive (.metadata .hot bucket) ::
        if unchanged then recordVerifiedArchive bucket hot else []
    else []

/-- `claim_partition_deletion`: the hot rows of the endpoints are updated in whatever order, unless
    the partition has been claimed, or may not be. -/
def claimPartitionDeletion (bucketStartAt : Day) (eligible : Bool) (endpoints : List Nat) :
    List (LockRequest Resource) :=
  exclusive (.advisory (keys.date bucketStartAt)) ::
    if eligible then endpoints.map fun e => exclusive (.metadata .hot ⟨e, bucketStartAt⟩) else []

def markPartitionDeleted (bucketStartAt : Day) (endpoints : List Nat) :
    List (LockRequest Resource) :=
  endpoints.map fun e => exclusive (.metadata .hot ⟨e, bucketStartAt⟩)

/-- `mark_restored`, `mark_restore_failed` (of one bucket) and `expire_restores` (of any). -/
def updateArchives (buckets : List BucketKey) : List (LockRequest Resource) :=
  buckets.map fun b => exclusive (.metadata .archive b)

end

/-- Any number of storage workers and of rollup synchronizers, and one lifecycle worker. -/
inductive Party (W S : Type*)
  | storage (w : W)
  | rollup (s : S)
  | lifecycle
  deriving DecidableEq

instance {W S : Type*} [Fintype W] [Fintype S] : Fintype (Party W S) :=
  .ofEquiv (W ⊕ S ⊕ Unit) {
    toFun := Sum.elim .storage (Sum.elim .rollup fun _ => .lifecycle)
    invFun := fun
      | .storage w => .inl w
      | .rollup s => .inr (.inl s)
      | .lifecycle => .inr (.inr ())
    left_inv := by rintro (_ | _ | _) <;> rfl
    right_inv := by rintro (_ | _ | _) <;> rfl }

section

variable {W S : Type*} (keys : LockKeys)

inductive Runs : Party W S → List (LockRequest Resource) → Prop
  | process (w : W) (eventId : UUID) (bucket : BucketKey)
      (created existing frozen isDelete verified : Bool) :
    Runs (.storage w) (process keys eventId bucket created existing frozen isDelete verified)
  | refreshRange (s : S) (bucketDates : Finset Day) (segments : Nat) :
    Runs (.rollup s) (refreshRange keys bucketDates segments)
  | refreshBuckets (s : S) (bucketDates : Finset Day) (refreshable : Bool) :
    Runs (.rollup s) (refreshBuckets keys bucketDates refreshable)
  | archiveCandidate (bucket : BucketKey) (found unchanged hot : Bool) :
    Runs .lifecycle (archiveCandidate keys bucket found unchanged hot)
  | claimPartitionDeletion (bucketStartAt : Day) (eligible : Bool) (endpoints : List Nat) :
    Runs .lifecycle (claimPartitionDeletion keys bucketStartAt eligible endpoints)
  | markPartitionDeleted (bucketStartAt : Day) (endpoints : List Nat) :
    Runs .lifecycle (markPartitionDeleted bucketStartAt endpoints)
  | updateArchives (buckets : List BucketKey) : Runs .lifecycle (updateArchives buckets)

end

/-! ## The order of the resources -/

def Resource.level : Resource → Nat
  | .registry _ => 0
  | .advisory _ => 1
  | .metadata .hot _ => 2
  | .metadata .archive _ => 3

def Party.takesMany {W S : Type*} : Party W S → Resource → Bool
  | .rollup _, .advisory _ => true
  | .lifecycle, .metadata _ _ => true
  | _, _ => false

section

variable {W S : Type*} {keys : LockKeys} {s : Locking (Party W S) Resource} {r : Resource}

def First (s : Locking (Party W S) Resource) (r : Resource) : Prop :=
  ∃ p : Party W S, p.takesMany r ∧ ∃ l ∈ (s.txn p).held, l.resource = r

open Classical in
noncomputable def rank (s : Locking (Party W S) Resource) (r : Resource) : Nat :=
  2 * r.level + if First s r then 0 else 1

theorem rank_lt_of_level {r' : Resource} (h : r.level < r'.level) : rank s r < rank s r' := by
  rw [rank, rank]
  split_ifs <;> omega

theorem rank_lt_of_first {r' : Resource} (hlevel : r.level = r'.level) (h : First s r)
    (h' : ¬ First s r') : rank s r < rank s r' := by
  rw [rank, rank, hlevel, if_pos h, if_neg h']
  omega

/-! ## What the transactions ask for -/

variable {plan : List (LockRequest Resource)}

theorem Runs.pairwise_storage {w : W} (h : Runs keys (.storage w : Party W S) plan) :
    plan.Pairwise fun l q => l.resource.level < q.resource.level := by
  cases h with
  | process _ eventId bucket created existing frozen isDelete verified =>
    rw [Deadlock.process, claim, hotIngestGuard]
    cases created <;> cases existing <;> cases frozen <;> cases isDelete <;> cases verified <;>
      simp [shared, exclusive, Resource.level]

def Climbs (l q : LockRequest Resource) : Prop :=
  l.resource.level < q.resource.level ∨
    ∃ row bucket bucket', l.resource = .metadata row bucket ∧ q.resource = .metadata row bucket'

theorem pairwise_climbs_map {α : Type*} (row : MetadataRow) (f : α → BucketKey) (l : List α) :
    (l.map fun a => exclusive (.metadata row (f a))).Pairwise Climbs :=
  pairwise_map.2 (pairwise_of_forall fun _ _ => .inr ⟨row, _, _, rfl, rfl⟩)

theorem Runs.pairwise_climbs (h : Runs keys (.lifecycle : Party W S) plan) :
    plan.Pairwise Climbs := by
  cases h with
  | archiveCandidate bucket found unchanged hot =>
    rw [Deadlock.archiveCandidate, recordVerifiedArchive]
    cases found <;> cases unchanged <;> cases hot <;>
      simp [exclusive, Climbs, Resource.level]
  | claimPartitionDeletion bucketStartAt eligible endpoints =>
    refine pairwise_cons.2 ⟨fun q hq => ?_, ?_⟩ <;> cases eligible
    · exact absurd hq not_mem_nil
    · obtain ⟨e, -, rfl⟩ := mem_map.1 hq
      exact .inl Nat.one_lt_two
    · exact .nil
    · exact pairwise_climbs_map .hot _ endpoints
  | markPartitionDeleted bucketStartAt endpoints => exact pairwise_climbs_map .hot _ endpoints
  | updateArchives buckets => exact pairwise_climbs_map .archive id buckets

theorem Runs.exclusive_of_lifecycle (h : Runs keys (.lifecycle : Party W S) plan) :
    ∀ q ∈ plan, q.mode = .exclusive := by
  have hmap {α : Type} (f : α → Resource) (l : List α) :
      ∀ q ∈ l.map fun a => exclusive (f a), q.mode = .exclusive :=
    forall_mem_map.2 fun _ _ => rfl
  cases h with
  | archiveCandidate bucket found unchanged hot =>
    rw [Deadlock.archiveCandidate, recordVerifiedArchive]
    cases found <;> cases unchanged <;> cases hot <;> simp [exclusive]
  | claimPartitionDeletion bucketStartAt eligible endpoints =>
    refine forall_mem_cons.2 ⟨rfl, ?_⟩
    cases eligible
    · exact nofun
    · exact hmap _ endpoints
  | markPartitionDeleted bucketStartAt endpoints => exact hmap _ endpoints
  | updateArchives buckets => exact hmap _ buckets

theorem writerGuard_spec (bucketDates : Finset Day) {body : List (LockRequest Resource)}
    (hbody : ∀ q ∈ body, q = rollupLock keys) :
    ∃ rest, writerGuard keys bucketDates body = rollupLock keys :: rest ∧
      ∀ q ∈ rest, q = rollupLock keys ∨ ∃ d, q = shared (.advisory (keys.date d)) := by
  refine ⟨_, rfl, forall_mem_append.2 ⟨forall_mem_map.2 fun d _ => .inr ⟨d, rfl⟩, ?_⟩⟩
  exact fun q hq => .inl (hbody q hq)

variable {σ : S}

theorem Runs.exists_rollup (h : Runs keys (.rollup σ : Party W S) plan) :
    ∃ rest, plan = rollupLock keys :: rest ∧
      ∀ q ∈ rest, q = rollupLock keys ∨ ∃ d, q = shared (.advisory (keys.date d)) := by
  cases h with
  | refreshRange _ bucketDates segments =>
    exact writerGuard_spec bucketDates fun q hq => eq_of_mem_replicate hq
  | refreshBuckets _ bucketDates refreshable =>
    refine writerGuard_spec bucketDates fun q hq => ?_
    cases refreshable
    · exact absurd hq not_mem_nil
    · exact mem_singleton.1 hq

/-! ## Who waits holds what comes before -/

variable {q l : LockRequest Resource} {n : Nat}

theorem not_covered {p : Party W S} (h : s.Sound (Runs keys))
    (hq : (s.txn p).awaits = some (q, n)) (hl : l ∈ (s.txn p).held)
    (hr : l.resource = q.resource) : l.mode.covers q.mode = false := by
  have huncovered := h.uncovered p q n hq
  rw [covered, any_eq_false] at huncovered
  exact eq_false_iff.2 fun hcovers =>
    huncovered l hl (decide_eq_true ⟨hr, hcovers⟩)

theorem rank_lt_of_storage {w : W} (h : s.Sound (Runs keys))
    (hq : (s.txn (.storage w)).awaits = some (q, n)) (hl : l ∈ (s.txn (.storage w)).held) :
    rank s l.resource < rank s q.resource := by
  have hwanted := (awaits_eq_some.1 hq).2
  rcases h.plan (.storage w) with hplan | hplan
  · exact absurd (hplan ▸ mem_plan_of_held hl) not_mem_nil
  · exact rank_lt_of_level (rel_of_pairwise hplan.pairwise_storage hl hwanted)

theorem rank_lt_of_lifecycle (h : s.Sound (Runs keys))
    (hq : (s.txn .lifecycle).awaits = some (q, n)) (hl : l ∈ (s.txn .lifecycle).held) :
    rank s l.resource < rank s q.resource := by
  have hwanted := (awaits_eq_some.1 hq).2
  rcases h.plan .lifecycle with hplan | hplan
  · exact absurd (hplan ▸ mem_plan_of_held hl) not_mem_nil
  have hexclusive := hplan.exclusive_of_lifecycle
  rcases rel_of_pairwise hplan.pairwise_climbs hl hwanted with
    hlevel | ⟨row, bucket, bucket', hrow, hrow'⟩
  · exact rank_lt_of_level hlevel
  · have hfirst : First s l.resource := ⟨.lifecycle, by rw [hrow]; rfl, l, hl, rfl⟩
    refine rank_lt_of_first (by rw [hrow, hrow']; cases row <;> rfl) hfirst ?_
    rintro ⟨p, hp, l', hl', hr⟩
    -- the other resource is a row as well, so that it is this worker who would hold it
    rw [hrow'] at hp
    cases p with
    | storage | rollup => exact false_ne_true hp
    | lifecycle =>
      have hcovers := not_covered h hq hl' hr
      rw [hexclusive l' (mem_plan_of_held hl')] at hcovers
      cases hcovers

theorem rollupLock_mem_held (h : s.Sound (Runs keys)) (hl : l ∈ (s.txn (.rollup σ)).held) :
    rollupLock keys ∈ (s.txn (.rollup σ)).held := by
  rcases h.plan (.rollup σ) with hplan | hplan
  · exact absurd (hplan ▸ mem_plan_of_held hl) not_mem_nil
  · obtain ⟨rest, hrest, -⟩ := hplan.exists_rollup
    exact mem_held_of_head hl hrest rfl

theorem eq_of_rollups_hold {σ' : S} {l' : LockRequest Resource} (h : s.Sound (Runs keys))
    (hl : l ∈ (s.txn (.rollup σ)).held) (hl' : l' ∈ (s.txn (.rollup σ')).held) : σ' = σ := by
  by_contra hne
  have hcompatible := h.compatible (.rollup σ') (.rollup σ) (fun heq => hne (Party.rollup.inj heq))
    _ (rollupLock_mem_held h hl') _ (rollupLock_mem_held h hl) rfl
  cases hcompatible

theorem rank_lt_of_rollup (h : s.Sound (Runs keys)) (hq : (s.txn (.rollup σ)).awaits = some (q, n))
    (hl : l ∈ (s.txn (.rollup σ)).held) : rank s l.resource < rank s q.resource := by
  have hwanted := (awaits_eq_some.1 hq).2
  rcases h.plan (.rollup σ) with hplan | hplan
  · exact absurd (hplan ▸ mem_plan_of_held hl) not_mem_nil
  obtain ⟨rest, hrest, hothers⟩ := hplan.exists_rollup
  have hmember (q : LockRequest Resource) (hq : q ∈ (s.txn (.rollup σ)).plan) :
      q = rollupLock keys ∨ ∃ d, q = shared (.advisory (keys.date d)) := by
    rw [hrest, mem_cons] at hq
    exact hq.elim .inl (hothers q)
  have hadvisory (q : LockRequest Resource) (hq : q ∈ (s.txn (.rollup σ)).plan) :
      ∃ key, q.resource = .advisory key := by
    rcases hmember q hq with rfl | ⟨d, rfl⟩
    · exact ⟨_, rfl⟩
    · exact ⟨_, rfl⟩
  obtain ⟨key, hkey⟩ := hadvisory l (mem_plan_of_held hl)
  obtain ⟨key', hkey'⟩ := hadvisory q (mem_plan_of_wanted hwanted)
  have hfirst : First s l.resource := ⟨.rollup σ, by rw [hkey]; rfl, l, hl, rfl⟩
  refine rank_lt_of_first (by rw [hkey, hkey']; rfl) hfirst ?_
  rintro ⟨p, hp, l', hl', hr⟩
  rw [hkey'] at hp
  cases p with
  | storage | lifecycle => exact false_ne_true hp
  | rollup σ' =>
    obtain rfl := eq_of_rollups_hold h hl hl'
    -- the rollup lock is held, and a shared lock is covered by any other on the resource
    rcases hmember q (mem_plan_of_wanted hwanted) with rfl | ⟨d, rfl⟩
    · have hcovers := not_covered h hq (rollupLock_mem_held h hl) rfl
      cases hcovers
    · have hcovers := not_covered h hq hl' hr
      rcases hmode : l'.mode <;> rw [hmode] at hcovers <;> cases hcovers

end

/-- For any number of storage workers and of rollup synchronizers, and one lifecycle worker: in no
    reachable state do their transactions wait for each other in a circle. -/
theorem no_deadlock {W S : Type*} [Fintype W] [DecidableEq W] [Fintype S] [DecidableEq S]
    (keys : LockKeys) {s : Locking (Party W S) Resource}
    (h : (Locking.system (Party W S) Resource).Reachable (Locking.Follows (Runs keys)) s)
    (p : Party W S) : ¬ Relation.TransGen s.WaitsFor p p := by
  have hsound := Locking.sound_of_reachable h
  refine Locking.acyclic_of_rank (rank s) (fun p q n hq l hl => ?_) p
  cases p with
  | storage w => exact rank_lt_of_storage hsound hq hl
  | rollup σ => exact rank_lt_of_rollup hsound hq hl
  | lifecycle => exact rank_lt_of_lifecycle hsound hq hl

def sampleKeys : LockKeys := ⟨fun d => d, -1⟩

def sampleProcess (eventId : UUID) : List (LockRequest Resource) :=
  process sampleKeys eventId ⟨7, 0⟩ true false false false false

def sampleLabels : List (LockLabel (Party (Fin 2) (Fin 1)) Resource) :=
  [.start (.storage 0) (sampleProcess 10), .request (.storage 0), .request (.storage 0),
    .start .lifecycle (archiveCandidate sampleKeys ⟨7, 0⟩ true true true), .request .lifecycle,
    .start (.storage 1) (sampleProcess 11), .request (.storage 1), .request (.storage 1),
    .start (.rollup 0) (refreshRange sampleKeys {0} 1), .request (.rollup 0), .request (.rollup 0)]

theorem follows_sampleLabels : ∀ a ∈ sampleLabels, ∀ s, Locking.Follows (Runs sampleKeys) s a := by
  simp only [sampleLabels, forall_mem_cons]
  exact ⟨fun _ => .process .., fun _ => trivial, fun _ => trivial, fun _ => .archiveCandidate ..,
    fun _ => trivial, fun _ => .process .., fun _ => trivial, fun _ => trivial,
    fun _ => .refreshRange .., fun _ => trivial, fun _ => trivial,
    nofun⟩

/-- All of them wait, and there is no circle. -/
theorem no_deadlock_queue : ∃ s : Locking (Party (Fin 2) (Fin 1)) Resource,
    (s.WaitsFor (.rollup 0) .lifecycle ∧ s.WaitsFor (.storage 1) .lifecycle ∧
      s.WaitsFor .lifecycle (.storage 0)) ∧ ∀ p, ¬ Relation.TransGen s.WaitsFor p p := by
  have hrun : ((Locking.system (Party (Fin 2) (Fin 1)) Resource).run
      (Locking.system _ _).init sampleLabels).any fun s =>
        s.WaitsFor (.rollup 0) .lifecycle ∧ s.WaitsFor (.storage 1) .lifecycle ∧
          s.WaitsFor .lifecycle (.storage 0) := by decide +kernel
  rcases hs : (Locking.system (Party (Fin 2) (Fin 1)) Resource).run (Locking.system _ _).init
    sampleLabels with _ | s
  · rw [hs] at hrun
    cases hrun
  · rw [hs, Option.any_some, decide_eq_true_eq] at hrun
    exact ⟨s, hrun, no_deadlock sampleKeys (System.path_of_run_of_forall follows_sampleLabels hs)⟩

end Edr.Deadlock
