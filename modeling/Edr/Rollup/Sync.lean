import Edr.Catalog.Run
import Edr.Lib.Lock
import Edr.Lib.Replica
import Edr.Rollup.Projection

/-!
# Synchronizers

Any number of synchronizers keep the rollup in PostgreSQL up to date with the events in ClickHouse,
which no transaction spans: the worker with the dirty buckets of the messages it has consumed, and
backfill, reconciliation and the lifecycle barrier with ranges. The system interleaves them with each
other, with inserts and dropped partitions, and with the transactions of the catalog, cut where
another one can see the difference:

* `writer_guard` takes the lock of the rollup, which is exclusive, then the shared locks of the dates
  one by one; all are held until the transaction ends;
* the lookup of the frozen dates sees what is committed at that time, and gives the statements that
  are left: two queries to ClickHouse for each range, and the replacement of the rows;
* a query sees ClickHouse as it is when it is made, and the replaced rows are seen by others at the
  commit only;
* a message is published after its event is inserted, and is delivered at any time, to any worker,
  and any number of times. A worker commits the messages of a batch one by one, after the refresh
  of its buckets is committed.

The field `shown` of a `Mirror` is a ghost: it says from which snapshot the activity of a bucket was
taken, and no step reads it.
-/

namespace Edr.Rollup

open Replica Function MinuteKey

/-! ## Transactions -/

/-- The tables of the rollup, with the snapshot that each bucket was last taken from. -/
structure Mirror where
  tables : Projection
  shown : MinuteKey → Option Snapshot

namespace Mirror

def empty : Mirror := ⟨.empty, fun _ => none⟩

def snapshotOf (reads : List Read) (key : MinuteKey) : Option Snapshot :=
  (reads.find? fun x => x.range.hasKey key).map (·.snapshot)

/-- `replace_buckets`, with what was read. -/
def replaceBuckets (keys : List MinuteKey) (activity dimensions : List Read) (now : Time)
    (m : Mirror) : Mirror where
  tables := m.tables.replaceBuckets keys (keys.map dimensionKey)
    (filteredActivityRows keys activity) (filteredDimensionRows keys dimensions) now
  shown key := if key ∈ keys then snapshotOf activity key else m.shown key

/-- `replace_range`, with what was read. -/
def replaceRange (q : Range) (activity dimensions : List Read) (now : Time) (m : Mirror) :
    Except String Mirror := do
  let tables ← m.tables.replaceRange q (activity.flatMap Read.activityRows)
    (dimensions.flatMap Read.dimensionRows) now
  return ⟨tables, fun key => if q.hasKey key then snapshotOf activity key else m.shown key⟩

end Mirror

/-- What a refresh is asked for: `refresh_buckets` or `refresh_range`. -/
inductive Job
  | buckets (bucketKeys : List MinuteKey)
  | range (q : Range)
  deriving DecidableEq

inductive Statement
  | selectActivity (q : Range)
  | selectDimensions (q : Range)
  | replaceBuckets (keys : List MinuteKey)
  | replaceRange (q : Range)

/-- `dashboard_rollup_rows`. -/
def selects (q : Range) : List Statement := [.selectActivity q, .selectDimensions q]

def normalizedKeys (bucketKeys : List MinuteKey) : List MinuteKey :=
  (bucketKeys.map normalize).dedup

namespace Job

def accepted : Job → Bool
  | buckets bucketKeys => !(normalizedKeys bucketKeys).isEmpty
  | range q => decide (q.from_ < q.to_) && decide q.Aligned

/-- `sorted(set(bucket_dates))`. -/
def bucketDates : Job → List Day
  | buckets bucketKeys => ((normalizedKeys bucketKeys).map date).dedup.insertionSort (· ≤ ·)
  | range q => bucketDatesForRange q

/-- The keys that `refresh_buckets` refreshes. -/
def refreshableKeys (frozen : Day → Bool) (bucketKeys : List MinuteKey) : List MinuteKey :=
  (normalizedKeys bucketKeys).filter fun k => !frozen k.date

def statements (frozen : Day → Bool) : Job → List Statement
  | buckets bucketKeys =>
    let keys := refreshableKeys frozen bucketKeys
    if keys.isEmpty then []
    else (queryWindows keys).flatMap selects ++ [.replaceBuckets keys]
  | range q => (refreshableRangeSegments frozen q).flatMap fun s => selects s ++ [.replaceRange s]

end Job

/-- A refresh whose frozen dates are known: the statements left, what was read for the next
    replacement, and the tables as its transaction sees them. -/
structure Refresh where
  flushing : Bool
  locked : List Day
  todo : List Statement
  activity : List Read
  dimensions : List Read
  working : Mirror

/-- Where a synchronizer is. A worker that refreshes its dirty buckets is `flushing`. -/
inductive Phase
  | idle
  /-- In `writer_guard`: the locks of the dates that are held, and those left. -/
  | guarding (flushing : Bool) (job : Job) (locked left : List Day)
  | refreshing (x : Refresh)
  | flushed

namespace Phase

def writer : Phase → Option Unit
  | guarding .. | refreshing _ => some ()
  | idle | flushed => none

def lockedDates : Phase → List Day
  | guarding _ _ locked _ => locked
  | refreshing x => x.locked
  | idle | flushed => []

end Phase

structure Synchronizer where
  phase : Phase
  dirtyBuckets : List MinuteKey
  pendingMessages : List EventRecord

namespace Synchronizer

def fresh : Synchronizer := ⟨.idle, [], []⟩

/-- `run_once` has a message: its bucket is dirty. -/
def consume (r : EventRecord) (x : Synchronizer) : Synchronizer :=
  { x with
    dirtyBuckets := ⟨r.endpointId, startOfMinute r.occurredAt⟩ :: x.dirtyBuckets
    pendingMessages := x.pendingMessages ++ [r] }

end Synchronizer

/-- A statement is executed at the time `now`, on the source as it is. -/
def Refresh.execute (log : Snapshot) (now : Time) (x : Refresh) : Option Refresh :=
  match x.todo with
  | [] => none
  | .selectActivity q :: todo => some { x with todo, activity := x.activity ++ [⟨q, log⟩] }
  | .selectDimensions q :: todo => some { x with todo, dimensions := x.dimensions ++ [⟨q, log⟩] }
  | .replaceBuckets keys :: todo =>
    some { x with
      todo, activity := [], dimensions := []
      working := x.working.replaceBuckets keys x.activity x.dimensions now }
  | .replaceRange q :: todo =>
    match x.working.replaceRange q x.activity x.dimensions now with
    | .ok working => some { x with todo, activity := [], dimensions := [], working }
    | .error _ => none

/-! ## The system -/

/-- The state: the changes of ClickHouse, the messages of the validated topic, the catalog, the
    rollup as it is committed, the synchronizers, and the messages whose offset was committed. -/
structure Sync (W : Type) where
  log : Snapshot
  published : List EventRecord
  catalog : Catalog
  mirror : Mirror
  synchronizers : W → Synchronizer
  committed : List EventRecord

inductive SyncLabel (W : Type)
  | insert (r : EventRecord)
  | publish (r : EventRecord)
  | catalog (op : Catalog.Op)
  | drop (d : Day)
  | deliver (w : W) (r : EventRecord)
  | begin (w : W) (job : Job)
  | flush (w : W)
  | lockDate (w : W)
  /-- `frozen_bucket_dates`. -/
  | lookUp (w : W)
  | execute (w : W) (now : Time)
  | commit (w : W)
  | rollback (w : W)
  | commitOffset (w : W) (r : EventRecord)
  | finish (w : W)
  | abandon (w : W)
  | crash (w : W)

def SyncLabel.owner {W : Type} : SyncLabel W → Option W
  | insert _ | publish _ | catalog _ | drop _ => none
  | deliver w _ | begin w _ | flush w | lockDate w | lookUp w | execute w _ | commit w | rollback w
  | commitOffset w _ | finish w | abandon w | crash w => some w

def lockedDate : Catalog.Op → Option Day
  | .record k .. => some k.bucketStartAt
  | .claimPartitionDeletion d _ => some d
  | _ => none

namespace Sync

variable {W : Type} [Fintype W] [DecidableEq W]

def writerFree (s : Sync W) : Prop := ∀ w, (s.synchronizers w).phase.writer = none

instance (s : Sync W) : Decidable s.writerFree := inferInstanceAs (Decidable (∀ _, _ = none))

def dateFree (s : Sync W) (d : Day) : Prop := ∀ w, d ∉ (s.synchronizers w).phase.lockedDates

instance (s : Sync W) (d : Day) : Decidable (s.dateFree d) :=
  inferInstanceAs (Decidable (∀ _, d ∉ _))

/-- The synchronizer `w` becomes `x`. -/
def put (s : Sync W) (w : W) (x : Synchronizer) : Sync W :=
  { s with synchronizers := update s.synchronizers w x }

/-- The phase of the synchronizer `w` becomes `phase`. -/
def move (s : Sync W) (w : W) (phase : Phase) : Sync W :=
  s.put w { s.synchronizers w with phase }

def init : Sync W := ⟨[], [], .empty, .empty, fun _ => .fresh, []⟩

def next (s : Sync W) : SyncLabel W → Option (Sync W)
  | .insert r => some { s with log := .insert r :: s.log }
  | .publish r =>
    if .insert r ∈ s.log then some { s with published := r :: s.published } else none
  | .catalog op =>
    if ∀ d ∈ lockedDate op, s.dateFree d then some { s with catalog := s.catalog.perform op }
    else none
  | .drop d =>
    if s.catalog.frozen d then some { s with log := .drop d :: s.log } else none
  | .deliver w r =>
    match (s.synchronizers w).phase with
    | .idle => if r ∈ s.published then some (s.put w ((s.synchronizers w).consume r)) else none
    | _ => none
  | .begin w job =>
    match (s.synchronizers w).phase with
    | .idle =>
      if job.accepted = true ∧ s.writerFree then
        some (s.move w (.guarding false job [] job.bucketDates))
      else none
    | _ => none
  | .flush w =>
    match (s.synchronizers w).phase with
    | .idle =>
      let job := .buckets (s.synchronizers w).dirtyBuckets
      if job.accepted = true ∧ s.writerFree then
        some (s.move w (.guarding true job [] job.bucketDates))
      else none
    | _ => none
  | .lockDate w =>
    match (s.synchronizers w).phase with
    | .guarding flushing job locked (d :: left) =>
      some (s.move w (.guarding flushing job (d :: locked) left))
    | _ => none
  | .lookUp w =>
    match (s.synchronizers w).phase with
    | .guarding flushing job locked [] =>
      some (s.move w
        (.refreshing ⟨flushing, locked, job.statements s.catalog.frozen, [], [], s.mirror⟩))
    | _ => none
  | .execute w now =>
    match (s.synchronizers w).phase with
    | .refreshing x => (x.execute s.log now).map fun x' => s.move w (.refreshing x')
    | _ => none
  | .commit w =>
    match (s.synchronizers w).phase with
    | .refreshing x =>
      if x.todo = [] then
        some { s.move w (if x.flushing then .flushed else .idle) with mirror := x.working }
      else none
    | _ => none
  | .rollback w =>
    match (s.synchronizers w).phase with
    | .guarding .. | .refreshing _ => some (s.move w .idle)
    | _ => none
  | .commitOffset w r =>
    match (s.synchronizers w).phase with
    | .flushed =>
      if r ∈ (s.synchronizers w).pendingMessages then some { s with committed := r :: s.committed }
      else none
    | _ => none
  | .finish w =>
    match (s.synchronizers w).phase with
    | .flushed => some (s.put w .fresh)
    | _ => none
  | .abandon w =>
    match (s.synchronizers w).phase with
    | .flushed => some (s.move w .idle)
    | _ => none
  | .crash w => some (s.put w .fresh)

/-! ## What a step can do -/

inductive Step (s : Sync W) : SyncLabel W → Sync W → Prop
  | insert {r} : Step s (.insert r) { s with log := .insert r :: s.log }
  | publish {r} : .insert r ∈ s.log →
      Step s (.publish r) { s with published := r :: s.published }
  | catalog {op} : (∀ d ∈ lockedDate op, s.dateFree d) →
      Step s (.catalog op) { s with catalog := s.catalog.perform op }
  | drop {d} : s.catalog.frozen d = true →
      Step s (.drop d) { s with log := .drop d :: s.log }
  | deliver {w r} : (s.synchronizers w).phase = .idle → r ∈ s.published →
      Step s (.deliver w r) (s.put w ((s.synchronizers w).consume r))
  | begin {w job} : (s.synchronizers w).phase = .idle → job.accepted = true →
      s.writerFree → Step s (.begin w job) (s.move w (.guarding false job [] job.bucketDates))
  | flush {w job} : (s.synchronizers w).phase = .idle →
      job = .buckets (s.synchronizers w).dirtyBuckets → job.accepted = true → s.writerFree →
      Step s (.flush w) (s.move w (.guarding true job [] job.bucketDates))
  | lockDate {w flushing job locked d left} :
      (s.synchronizers w).phase = .guarding flushing job locked (d :: left) →
      Step s (.lockDate w) (s.move w (.guarding flushing job (d :: locked) left))
  | lookUp {w flushing job locked} : (s.synchronizers w).phase = .guarding flushing job locked [] →
      Step s (.lookUp w) (s.move w
        (.refreshing ⟨flushing, locked, job.statements s.catalog.frozen, [], [], s.mirror⟩))
  | execute {w now y y'} : (s.synchronizers w).phase = .refreshing y →
      y.execute s.log now = some y' → Step s (.execute w now) (s.move w (.refreshing y'))
  | commit {w y} : (s.synchronizers w).phase = .refreshing y → y.todo = [] →
      Step s (.commit w)
        { s.move w (if y.flushing then .flushed else .idle) with mirror := y.working }
  | rollback {w} : (s.synchronizers w).phase.writer = some () →
      Step s (.rollback w) (s.move w .idle)
  | commitOffset {w r} : (s.synchronizers w).phase = .flushed →
      r ∈ (s.synchronizers w).pendingMessages →
      Step s (.commitOffset w r) { s with committed := r :: s.committed }
  | finish {w} : (s.synchronizers w).phase = .flushed → Step s (.finish w) (s.put w .fresh)
  | abandon {w} : (s.synchronizers w).phase = .flushed → Step s (.abandon w) (s.move w .idle)
  | crash {w} : Step s (.crash w) (s.put w .fresh)

theorem next_cases {s t : Sync W} {a : SyncLabel W} (h : s.next a = some t) : s.Step a t := by
  fun_cases next s a <;> simp only [next, *] at h <;> try cases h
  all_goals grind [Step, Phase.writer, Option.map_eq_some_iff]

omit [Fintype W] in
theorem Step.synchronizers_of_ne {s t : Sync W} {a : SyncLabel W} {w : W} (h : s.Step a t)
    (hw : a.owner ≠ some w) : t.synchronizers w = s.synchronizers w := by
  have hne {w' : W} (ha : a.owner = some w') : w ≠ w' := by
    rintro rfl
    exact hw ha
  cases h with
  | insert | publish | catalog | drop | commitOffset => rfl
  | deliver | begin | flush | lockDate | lookUp | execute | commit | rollback | finish | abandon
  | crash => exact update_of_ne (hne rfl) _ _

end Sync

/-- The rollup and its synchronizers `W`. -/
def syncSystem (W : Type) [Fintype W] [DecidableEq W] : System (Sync W) (SyncLabel W) where
  init := .init
  next := Sync.next

end Edr.Rollup
