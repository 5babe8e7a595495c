import Edr.Rollup.Sync

/-!
# Freshness of the rollup

What a refresh writes was read while it held the lock of the rollup, so after everything that the
committed rollup shows was read. From this the two properties of every run follow:

* a bucket never goes back to an earlier snapshot of the source (`Replica.Advances`);
* a message whose offset is committed was inserted before the snapshot of its bucket, unless its date
  is frozen, and a bucket shows the counts of its snapshot (`Mirrors`).
-/

namespace Edr.Rollup

open List Function

open Replica

/-! ## Statements -/

/-- The replacements find what they need, if the ranges `reads` were read so far. -/
def Prepared (reads : List Range) : List Statement → Prop
  | [] => True
  | .selectActivity q :: todo => Prepared (reads ++ [q]) todo
  | .selectDimensions _ :: todo => Prepared reads todo
  | .replaceBuckets keys :: todo =>
    AlignedKeys keys ∧ reads = queryWindows keys ∧ Prepared [] todo
  | .replaceRange q :: todo => reads = [q] ∧ Prepared [] todo

theorem prepared_selects {reads ranges : List Range} {todo : List Statement}
    (h : Prepared (reads ++ ranges) todo) : Prepared reads (ranges.flatMap selects ++ todo) := by
  induction ranges generalizing reads with
  | nil =>
    rw [append_nil] at h
    exact h
  | cons q ranges ih =>
    refine ih ?_
    rw [append_assoc]
    exact h

theorem prepared_segments (segments : List Range) :
    Prepared [] (segments.flatMap fun s => selects s ++ [.replaceRange s]) := by
  induction segments with
  | nil => exact trivial
  | cons s segments ih => exact ⟨rfl, ih⟩

theorem normalize_aligned (key : MinuteKey) : key.normalize.bucketStartAt % minuteLength = 0 := by
  rw [MinuteKey.normalize, startOfMinute]
  exact Int.mul_emod_left _ _

variable {bucketKeys : List MinuteKey}

theorem mem_normalizedKeys {key : MinuteKey} :
    key ∈ normalizedKeys bucketKeys ↔ ∃ k ∈ bucketKeys, k.normalize = key := by
  rw [normalizedKeys, mem_dedup, mem_map]

variable {frozen : Day → Bool}

theorem mem_refreshableKeys {key : MinuteKey} :
    key ∈ Job.refreshableKeys frozen bucketKeys ↔
      key ∈ normalizedKeys bucketKeys ∧ frozen key.date = false := by
  rw [Job.refreshableKeys, mem_filter, Bool.not_eq_true']

theorem alignedKeys_refreshableKeys (frozen : Day → Bool) (bucketKeys : List MinuteKey) :
    AlignedKeys (Job.refreshableKeys frozen bucketKeys) := by
  intro key hk
  obtain ⟨k, _, rfl⟩ := mem_normalizedKeys.1 (mem_refreshableKeys.1 hk).1
  exact normalize_aligned k

theorem prepared_statements (frozen : Day → Bool) (job : Job) :
    Prepared [] (job.statements frozen) := by
  cases job with
  | buckets bucketKeys =>
    rw [Job.statements]
    split_ifs
    · exact trivial
    · exact prepared_selects ⟨alignedKeys_refreshableKeys frozen bucketKeys, rfl, trivial⟩
  | range q => exact prepared_segments _

theorem replaceBuckets_mem_statements {k : MinuteKey}
    (hk : k ∈ Job.refreshableKeys frozen bucketKeys) :
    .replaceBuckets (Job.refreshableKeys frozen bucketKeys) ∈
      (Job.buckets bucketKeys).statements frozen := by
  have hne : (Job.refreshableKeys frozen bucketKeys).isEmpty = false := by
    rw [isEmpty_eq_false_iff]
    exact ne_nil_of_mem hk
  simp only [Job.statements, hne, Bool.false_eq_true, if_false]
  exact mem_append_right _ mem_cons_self

/-! ## Replacements -/

namespace Mirror

variable {m m' : Mirror} {log log' : Snapshot} {keys : List MinuteKey} {key : MinuteKey}
  {activity dimensions : List Read} {now : Time} {q : Range} {y : Read}

structure Sound (log : Snapshot) (m : Mirror) : Prop where
  within : Within log m.shown
  mirrors : ∀ key σ, m.shown key = some σ → Mirrors m.tables.activity key (content σ)

theorem Sound.mono (h : m.Sound log) (hlog : log <:+ log') : m.Sound log' :=
  ⟨h.within.mono hlog, h.mirrors⟩

theorem sound_empty (log : Snapshot) : empty.Sound log := ⟨nofun, nofun⟩

theorem exists_snapshotOf (hy : y ∈ activity) (hk : y.range.hasKey key = true) :
    ∃ z ∈ activity, z.range.hasKey key = true ∧ snapshotOf activity key = some z.snapshot := by
  have hfind : (activity.find? fun x => x.range.hasKey key).isSome = true :=
    find?_isSome.2 ⟨y, hy, hk⟩
  obtain ⟨z, hz⟩ := Option.isSome_iff_exists.1 hfind
  have hzk : z.range.hasKey key = true := by simpa using find?_some hz
  exact ⟨z, mem_of_find?_eq_some hz, hzk, congrArg (Option.map _) hz⟩

/-- `replace_buckets`: each of the buckets shows what a read of it has found, and the others are as
    before. -/
theorem shown_replaceBuckets (m : Mirror) (dimensions : List Read) (now : Time)
    (hkeys : AlignedKeys keys) (hreads : activity.map (·.range) = queryWindows keys)
    (key : MinuteKey) :
    (key ∉ keys ∧ (m.replaceBuckets keys activity dimensions now).shown key = m.shown key) ∨
      ∃ z ∈ activity, key ∈ keys ∧ z.range.hasKey key = true ∧
        (m.replaceBuckets keys activity dimensions now).shown key = some z.snapshot := by
  by_cases hk : key ∈ keys
  · obtain ⟨y, ⟨hy, hyk⟩, _⟩ := existsUnique_read hkeys hreads hk
    obtain ⟨z, hz, hzk, hsnap⟩ := exists_snapshotOf hy hyk
    exact .inr ⟨z, hz, hk, hzk, (if_pos hk).trans hsnap⟩
  · exact .inl ⟨hk, if_neg hk⟩

theorem tables_replaceRange (h : m.replaceRange q activity dimensions now = .ok m') :
    m.tables.replaceRange q (activity.flatMap Read.activityRows)
      (dimensions.flatMap Read.dimensionRows) now = .ok m'.tables ∧
    m'.shown = fun key => if q.hasKey key then snapshotOf activity key else m.shown key := by
  unfold replaceRange at h
  rcases ht : m.tables.replaceRange q (activity.flatMap Read.activityRows)
    (dimensions.flatMap Read.dimensionRows) now with e | tables
  · rw [ht] at h
    cases h
  · rw [ht] at h
    cases h
    exact ⟨rfl, rfl⟩

theorem shown_replaceRange (h : m.replaceRange q [y] dimensions now = .ok m') (hy : y.range = q)
    (key : MinuteKey) :
    (q.hasKey key = false ∧ m'.shown key = m.shown key) ∨
      (q.hasKey key = true ∧ m'.shown key = some y.snapshot) := by
  rw [(tables_replaceRange h).2]
  rcases hk : q.hasKey key with _ | _
  · exact .inl ⟨rfl, if_neg (by simp [hk])⟩
  · refine .inr ⟨rfl, (if_pos hk).trans ?_⟩
    simp [snapshotOf, hy, hk]

theorem mirrors_shown_replaceBuckets (hm : m.Sound log) (hkeys : AlignedKeys keys)
    (hreads : activity.map (·.range) = queryWindows keys) {σ : Snapshot}
    (hσ : (m.replaceBuckets keys activity dimensions now).shown key = some σ) :
    Mirrors (m.replaceBuckets keys activity dimensions now).tables.activity key (content σ) := by
  rcases shown_replaceBuckets m dimensions now hkeys hreads key with
    ⟨hk, hs⟩ | ⟨z, hz, hk, hzk, hs⟩
  · exact (hm.mirrors key σ (hs.symm.trans hσ)).congr (get?_replaceBuckets hk)
  · cases hs.symm.trans hσ
    exact mirrors_replaceBuckets hkeys hreads hk hz hzk

theorem mirrors_shown_replaceRange (hm : m.Sound log)
    (h : m.replaceRange q [y] dimensions now = .ok m') (hy : y.range = q) {σ : Snapshot}
    (hσ : m'.shown key = some σ) : Mirrors m'.tables.activity key (content σ) := by
  have ht := (tables_replaceRange h).1
  rw [flatMap_singleton, Read.activityRows, hy] at ht
  rcases shown_replaceRange h hy key with ⟨hk, hs⟩ | ⟨hk, hs⟩
  · exact (hm.mirrors key σ (hs.symm.trans hσ)).congr (get?_replaceRange ht hk)
  · cases hs.symm.trans hσ
    exact mirrors_replaceRange ht hk

end Mirror

/-! ## A refresh -/

namespace Refresh

variable {x x' : Refresh} {log log' : Snapshot} {m m' : Mirror} {now : Time}

/-- What was read for the next replacement is not before what the transaction sees, which is not
    before what is committed. -/
structure Ok (log : Snapshot) (m : Mirror) (x : Refresh) : Prop where
  sound : x.working.Sound log
  advances : Advances m.shown x.working.shown
  within : ∀ y ∈ x.activity, y.snapshot <:+ log
  current : ∀ y ∈ x.activity, ∀ key σ, x.working.shown key = some σ → σ <:+ y.snapshot
  prepared : Prepared (x.activity.map (·.range)) x.todo

theorem Ok.mono (h : x.Ok log m) (hlog : log <:+ log') : x.Ok log' m :=
  { h with
    sound := h.sound.mono hlog
    within := fun y hy => (h.within y hy).trans hlog }

theorem Ok.replace {working : Mirror} {todo : List Statement} (h : x.Ok log m)
    (hshown : ∀ key, working.shown key = x.working.shown key ∨
      ∃ z ∈ x.activity, working.shown key = some z.snapshot)
    (hmirrors : ∀ key σ, working.shown key = some σ →
      Mirrors working.tables.activity key (content σ))
    (hprepared : Prepared [] todo) :
    Refresh.Ok log m { x with todo, activity := [], dimensions := [], working } where
  sound := by
    refine ⟨within_overwrite h.sound.within fun key => ?_, hmirrors⟩
    exact (hshown key).imp_right fun ⟨z, hz, hs⟩ => ⟨z.snapshot, hs, h.within z hz⟩
  advances := by
    refine h.advances.trans (advances_overwrite fun key => ?_)
    exact (hshown key).imp_right fun ⟨z, hz, hs⟩ => ⟨z.snapshot, hs, h.current z hz key⟩
  within := nofun
  current := nofun
  prepared := hprepared

theorem Ok.execute (h : x.Ok log m) (hx : x.execute log now = some x') : x'.Ok log m := by
  obtain ⟨flushing, locked, todo, activity, dimensions, working⟩ := x
  have hprep := h.prepared
  cases todo with
  | nil => cases hx
  | cons statement todo =>
    cases statement with
    | selectActivity q =>
      cases hx
      -- The new read is of the source as it is, which nothing that is shown is after.
      refine ⟨h.sound, h.advances, fun y hy => ?_, fun y hy key σ hσ => ?_, ?_⟩
      · rcases mem_append.1 hy with hy | hy
        · exact h.within y hy
        · cases mem_singleton.1 hy
          exact suffix_refl log
      · rcases mem_append.1 hy with hy | hy
        · exact h.current y hy key σ hσ
        · cases mem_singleton.1 hy
          exact h.sound.within key σ hσ
      · rw [map_append]
        exact hprep
    | selectDimensions q =>
      cases hx
      exact ⟨h.sound, h.advances, h.within, h.current, hprep⟩
    | replaceBuckets keys =>
      cases hx
      obtain ⟨hkeys, hreads, hprep⟩ := hprep
      refine h.replace (fun key => ?_) (fun key σ => ?_) hprep
      · exact (Mirror.shown_replaceBuckets _ dimensions now hkeys hreads key).imp And.right
          fun ⟨z, hz, _, _, hs⟩ => ⟨z, hz, hs⟩
      · exact Mirror.mirrors_shown_replaceBuckets h.sound hkeys hreads
    | replaceRange q =>
      obtain ⟨hreads, hprep⟩ := hprep
      obtain ⟨y, rfl, hy⟩ := map_eq_singleton_iff.1 hreads
      rcases hm : working.replaceRange q [y] dimensions now with e | working'
      · simp only [Refresh.execute, hm] at hx
        cases hx
      · simp only [Refresh.execute, hm] at hx
        cases hx
        refine h.replace (fun key => ?_) (fun key σ => ?_) hprep
        · exact (Mirror.shown_replaceRange hm hy key).imp And.right
            fun ⟨_, hs⟩ => ⟨y, mem_singleton_self y, hs⟩
        · exact Mirror.mirrors_shown_replaceRange h.sound hm hy

theorem frame_execute (hx : x.execute log now = some x') :
    x'.flushing = x.flushing ∧ x'.locked = x.locked := by
  unfold Refresh.execute at hx
  split at hx
  case h_5 =>
    split at hx
    · cases hx
      exact ⟨rfl, rfl⟩
    · cases hx
  case h_1 => cases hx
  all_goals
    cases hx
    exact ⟨rfl, rfl⟩

theorem Ok.advances_execute (h : x.Ok log m) (hx : x.execute log now = some x') :
    Advances x.working.shown x'.working.shown :=
  (Ok.execute { h with advances := .refl _ } hx).advances

/-- The events are in every read, and the bucket of each is, or will be, taken from one of these,
    unless its date is frozen. -/
structure Covers (frozen : Day → Bool) (pending : List EventRecord) (x : Refresh) : Prop where
  reads : ∀ y ∈ x.activity, ∀ r ∈ pending, .insert r ∈ y.snapshot
  pending : ∀ r ∈ pending, frozen r.day = true ∨
    Shows x.working.shown (eventKey r) (.insert r) ∨
    ∃ keys, .replaceBuckets keys ∈ x.todo ∧ eventKey r ∈ keys

theorem Covers.mono {frozen' : Day → Bool} {pending : List EventRecord}
    (h : x.Covers frozen pending) (hfrozen : ∀ d, frozen d = true → frozen' d = true) :
    x.Covers frozen' pending :=
  ⟨h.reads, fun r hr => (h.pending r hr).imp_left (hfrozen r.day)⟩

theorem Covers.execute {pending : List EventRecord} (h : x.Covers frozen pending) (hok : x.Ok log m)
    (hlog : ∀ r ∈ pending, .insert r ∈ log) (hx : x.execute log now = some x') :
    x'.Covers frozen pending := by
  have hadvances := hok.advances_execute hx
  have hprep := hok.prepared
  obtain ⟨flushing, locked, todo, activity, dimensions, working⟩ := x
  -- A message whose bucket is shown remains so: only those left to replace are of interest.
  have hpending : (∀ r ∈ pending, ∀ keys, .replaceBuckets keys ∈ todo → eventKey r ∈ keys →
      Shows x'.working.shown (eventKey r) (.insert r) ∨
        ∃ keys, .replaceBuckets keys ∈ x'.todo ∧ eventKey r ∈ keys) →
      ∀ r ∈ pending, frozen r.day = true ∨ Shows x'.working.shown (eventKey r) (.insert r) ∨
        ∃ keys, .replaceBuckets keys ∈ x'.todo ∧ eventKey r ∈ keys := by
    intro hleft r hr
    rcases h.pending r hr with hf | hs | ⟨keys, hmem, hk⟩
    · exact .inl hf
    · exact .inr (.inl (hs.advances hadvances))
    · exact .inr (hleft r hr keys hmem hk)
  cases todo with
  | nil => cases hx
  | cons statement todo =>
    cases statement with
    | selectActivity q =>
      cases hx
      refine ⟨fun y hy r hr => ?_, hpending fun r hr keys hmem hk => .inr ⟨keys, ?_, hk⟩⟩
      · rcases mem_append.1 hy with hy | hy
        · exact h.reads y hy r hr
        · cases mem_singleton.1 hy
          exact hlog r hr
      · exact (mem_cons.1 hmem).resolve_left nofun
    | selectDimensions q =>
      cases hx
      refine ⟨h.reads, hpending fun r hr keys hmem hk => .inr ⟨keys, ?_, hk⟩⟩
      exact (mem_cons.1 hmem).resolve_left nofun
    | replaceBuckets keys =>
      cases hx
      refine ⟨nofun, hpending fun r hr keys' hmem hk => ?_⟩
      rcases mem_cons.1 hmem with heq | hmem
      · cases heq
        -- This is the replacement that the bucket has waited for.
        rcases Mirror.shown_replaceBuckets working dimensions now hprep.1 hprep.2.1 (eventKey r) with
          ⟨hnot, _⟩ | ⟨z, hz, _, _, hs⟩
        · exact absurd hk hnot
        · exact .inl ⟨z.snapshot, hs, h.reads z hz r hr⟩
      · exact .inr ⟨keys', hmem, hk⟩
    | replaceRange q =>
      rcases hm : working.replaceRange q activity dimensions now with e | working'
      · simp only [Refresh.execute, hm] at hx
        cases hx
      · simp only [Refresh.execute, hm] at hx
        cases hx
        refine ⟨nofun, hpending fun r hr keys hmem hk => .inr ⟨keys, ?_, hk⟩⟩
        exact (mem_cons.1 hmem).resolve_left nofun

end Refresh

/-! ## The invariant -/

def Accounted (frozen : Day → Bool) (m : Mirror) (r : EventRecord) : Prop :=
  frozen r.day = true ∨ Shows m.shown (eventKey r) (.insert r)

theorem Accounted.mono {frozen' : Day → Bool} {m m' : Mirror} {r : EventRecord}
    (h : Accounted frozen m r) (hfrozen : ∀ d, frozen d = true → frozen' d = true)
    (hm : Advances m.shown m'.shown) : Accounted frozen' m' r :=
  h.imp (hfrozen r.day) fun hs => hs.advances hm

namespace Synchronizer

variable {log log' : Snapshot} {frozen frozen' : Day → Bool} {m m' : Mirror} {x : Synchronizer}

def PhaseOk (log : Snapshot) (frozen : Day → Bool) (m : Mirror) (x : Synchronizer) : Prop :=
  match x.phase with
  | .idle => True
  | .guarding flushing job _ _ => flushing = true → job = .buckets x.dirtyBuckets
  | .refreshing y => y.Ok log m ∧ (y.flushing = true → y.Covers frozen x.pendingMessages)
  | .flushed => ∀ r ∈ x.pendingMessages, Accounted frozen m r

structure Ok (log : Snapshot) (frozen : Day → Bool) (m : Mirror) (x : Synchronizer) : Prop where
  inserted : ∀ r ∈ x.pendingMessages, .insert r ∈ log
  dirty : ∀ r ∈ x.pendingMessages, eventKey r ∈ x.dirtyBuckets
  phase : x.PhaseOk log frozen m

theorem ok_fresh (log : Snapshot) (frozen : Day → Bool) (m : Mirror) : fresh.Ok log frozen m :=
  ⟨fun _ hr => absurd hr not_mem_nil, fun _ hr => absurd hr not_mem_nil, trivial⟩

theorem Ok.mono (h : x.Ok log frozen m) (hlog : log <:+ log')
    (hfrozen : ∀ d, frozen d = true → frozen' d = true) (hm : Advances m.shown m'.shown)
    (hwriter : x.phase.writer = some () → m' = m) : x.Ok log' frozen' m' := by
  obtain ⟨phase, dirtyBuckets, pendingMessages⟩ := x
  obtain ⟨hinserted, hdirty, hphase⟩ := h
  refine ⟨fun r hr => hlog.subset (hinserted r hr), hdirty, ?_⟩
  cases phase with
  | idle => trivial
  | guarding flushing job locked left => exact hphase
  | refreshing y =>
    cases hwriter rfl
    exact ⟨hphase.1.mono hlog, fun hf => (hphase.2 hf).mono hfrozen⟩
  | flushed => exact fun r hr => (hphase r hr).mono hfrozen hm

theorem Ok.consume {r : EventRecord} (h : x.Ok log frozen m) (hr : .insert r ∈ log)
    (hidle : x.phase = .idle) : (x.consume r).Ok log frozen m := by
  refine ⟨fun r' hr' => ?_, fun r' hr' => ?_, ?_⟩
  · rcases mem_append.1 hr' with hr' | hr'
    · exact h.inserted r' hr'
    · cases mem_singleton.1 hr'
      exact hr
  · rcases mem_append.1 hr' with hr' | hr'
    · exact mem_cons_of_mem _ (h.dirty r' hr')
    · cases mem_singleton.1 hr'
      exact mem_cons_self
  · rw [PhaseOk, Synchronizer.consume, hidle]
    trivial

theorem Ok.move {phase : Phase} (h : x.Ok log frozen m)
    (hphase : PhaseOk log frozen m { x with phase }) : Ok log frozen m { x with phase } :=
  ⟨h.inserted, h.dirty, hphase⟩

theorem Ok.lookUp {flushing : Bool} {job : Job} {locked : List Day} (h : x.Ok log frozen m)
    (hphase : x.phase = .guarding flushing job locked []) (hm : m.Sound log) :
    Ok log frozen m { x with
      phase := .refreshing ⟨flushing, locked, job.statements frozen, [], [], m⟩ } := by
  have hjob := h.phase
  rw [PhaseOk, hphase] at hjob
  refine h.move ⟨⟨hm, .refl _, nofun, nofun, prepared_statements frozen job⟩, fun hf => ⟨nofun, ?_⟩⟩
  intro r hr
  cases hjob hf
  rcases hd : frozen r.day with _ | _
  · refine .inr (.inr ⟨_, replaceBuckets_mem_statements (k := eventKey r) ?_, ?_⟩)
    all_goals
      refine mem_refreshableKeys.2 ⟨mem_normalizedKeys.2 ⟨_, h.dirty r hr, normalize_eventKey r⟩, ?_⟩
      rw [date_eventKey, hd]
  · exact .inl rfl

end Synchronizer

namespace Sync

variable {W : Type} {before : MinuteKey → Option Snapshot}

/-- The invariant, of a run in which the rollup has shown `before`. -/
structure Inv (before : MinuteKey → Option Snapshot) (s : Sync W) : Prop where
  exclusive : Exclusive (fun x : Synchronizer => x.phase.writer) s.synchronizers
  published : ∀ r ∈ s.published, .insert r ∈ s.log
  dropped : ∀ d, .drop d ∈ s.log → s.catalog.frozen d = true
  sound : s.mirror.Sound s.log
  advances : Advances before s.mirror.shown
  synchronizers : ∀ w, (s.synchronizers w).Ok s.log s.catalog.frozen s.mirror
  committed : ∀ r ∈ s.committed, Accounted s.catalog.frozen s.mirror r

theorem Inv.change {s : Sync W} (h : s.Inv before) {log : Snapshot} {catalog : Catalog}
    (hlog : s.log <:+ log) (hfrozen : ∀ d, s.catalog.frozen d = true → catalog.frozen d = true)
    (hdropped : ∀ d, .drop d ∈ log → catalog.frozen d = true) :
    Inv before { s with log, catalog } where
  exclusive := h.exclusive
  published r hr := hlog.subset (h.published r hr)
  dropped := hdropped
  sound := h.sound.mono hlog
  advances := h.advances
  synchronizers w := (h.synchronizers w).mono hlog hfrozen (.refl _) fun _ => rfl
  committed r hr := (h.committed r hr).mono hfrozen (.refl _)

theorem writer_ne_of_writerFree {s : Sync W} (h : s.writerFree) (w : W) :
    (s.synchronizers w).phase.writer ≠ some () :=
  fun hw => absurd ((h w).symm.trans hw) nofun

variable [DecidableEq W] {s t : Sync W} {w : W} {x : Synchronizer}

theorem Inv.put (h : s.Inv before) (hx : x.Ok s.log s.catalog.frozen s.mirror)
    (hwriter : x.phase.writer = some () →
      ∀ w', w' ≠ w → (s.synchronizers w').phase.writer ≠ some ()) : (s.put w x).Inv before where
  exclusive := h.exclusive.update fun _ => hwriter
  published := h.published
  dropped := h.dropped
  sound := h.sound
  advances := h.advances
  synchronizers := by
    rw [Sync.put, forall_update_iff s.synchronizers fun _ y =>
      y.Ok s.log s.catalog.frozen s.mirror]
    exact ⟨hx, fun w' _ => h.synchronizers w'⟩
  committed := h.committed

theorem Inv.move {phase : Phase} (h : s.Inv before)
    (hphase : Synchronizer.PhaseOk s.log s.catalog.frozen s.mirror
      { s.synchronizers w with phase })
    (hwriter : phase.writer = some () → (s.synchronizers w).phase.writer = some ()) :
    (s.move w phase).Inv before :=
  h.put ((h.synchronizers w).move hphase) fun hp => h.exclusive.others_ne (hwriter hp)

theorem Inv.commit {y : Refresh} (h : s.Inv before) (hy : (s.synchronizers w).phase = .refreshing y)
    (htodo : y.todo = []) :
    Inv before { s.move w (if y.flushing then .flushed else .idle) with mirror := y.working } := by
  have hok := h.synchronizers w
  obtain ⟨hrefresh, hcovers⟩ : y.Ok s.log s.mirror ∧
      (y.flushing = true → y.Covers s.catalog.frozen (s.synchronizers w).pendingMessages) := by
    have hphase := hok.phase
    rwa [Synchronizer.PhaseOk, hy] at hphase
  have hwriter : (s.synchronizers w).phase.writer = some () := by rw [hy]; rfl
  refine ⟨?_, h.published, h.dropped, hrefresh.sound, h.advances.trans hrefresh.advances, ?_,
    fun r hr => ?_⟩
  · refine h.exclusive.update fun k hk => ?_
    exfalso
    cases hf : y.flushing <;> rw [hf] at hk <;> cases hk
  · rw [Sync.move, Sync.put, forall_update_iff s.synchronizers fun _ y' =>
      y'.Ok s.log s.catalog.frozen y.working]
    refine ⟨⟨hok.inserted, hok.dirty, ?_⟩, fun w' hw' => ?_⟩
    · rcases hf : y.flushing with _ | _
      · exact trivial
      · -- No statement is left, so the messages of a flush are all accounted for.
        intro r hr
        refine ((hcovers hf).pending r hr).imp_right fun hs => hs.resolve_right ?_
        rintro ⟨keys, hmem, _⟩
        rw [htodo] at hmem
        cases hmem
    · exact (h.synchronizers w').mono (suffix_refl _) (fun _ hd => hd) hrefresh.advances
        fun hw => absurd hw (h.exclusive.others_ne hwriter w' hw')
  · exact (h.committed r hr).mono (fun _ hd => hd) hrefresh.advances

variable [Fintype W]

omit [Fintype W] in
theorem Inv.step {a : SyncLabel W} (h : s.Inv before) (hstep : s.Step a t) : t.Inv before := by
  cases hstep with
  | insert =>
    refine h.change (suffix_cons _ _) (fun _ hd => hd) fun d hd => h.dropped d ?_
    exact (mem_cons.1 hd).resolve_left nofun
  | publish hr =>
    refine { h with published := fun r' hr' => ?_ }
    rcases mem_cons.1 hr' with rfl | hr'
    · exact hr
    · exact h.published r' hr'
  | @catalog op _ =>
    have hfrozen : ∀ d, s.catalog.frozen d = true → (s.catalog.perform op).frozen d = true :=
      fun d hd => Catalog.frozen_perform hd op
    exact h.change (suffix_refl _) hfrozen fun d hd => hfrozen d (h.dropped d hd)
  | drop hd =>
    refine h.change (suffix_cons _ _) (fun _ hd => hd) fun d' hd' => ?_
    rcases mem_cons.1 hd' with heq | hd'
    · cases heq
      exact hd
    · exact h.dropped d' hd'
  | @deliver w r hphase hr =>
    refine h.put ((h.synchronizers w).consume (h.published r hr) hphase) fun hw => ?_
    rw [Synchronizer.consume, hphase] at hw
    cases hw
  | @begin w job _ _ hfree =>
    exact h.put ((h.synchronizers w).move nofun) fun _ w' _ => writer_ne_of_writerFree hfree w'
  | @flush w job _ hjob _ hfree =>
    exact h.put ((h.synchronizers w).move fun _ => hjob) fun _ w' _ =>
      writer_ne_of_writerFree hfree w'
  | @lockDate w flushing job locked d left hphase =>
    have hok := (h.synchronizers w).phase
    rw [Synchronizer.PhaseOk, hphase] at hok
    exact h.move hok fun _ => by rw [hphase]; rfl
  | @lookUp w flushing job locked hphase =>
    refine h.put ((h.synchronizers w).lookUp hphase h.sound) fun _ => h.exclusive.others_ne ?_
    rw [hphase]
    rfl
  | @execute w now y y' hphase hy =>
    have hok := (h.synchronizers w).phase
    rw [Synchronizer.PhaseOk, hphase] at hok
    refine h.move ⟨hok.1.execute hy, fun hf => ?_⟩ fun _ => by rw [hphase]; rfl
    have hflushing : y'.flushing = y.flushing := (Refresh.frame_execute hy).1
    exact (hok.2 (hflushing ▸ hf)).execute hok.1 (h.synchronizers w).inserted hy
  | commit hphase htodo => exact h.commit hphase htodo
  | rollback _ => exact h.move trivial nofun
  | @commitOffset w r hphase hr =>
    refine { h with committed := fun r' hr' => ?_ }
    rcases mem_cons.1 hr' with rfl | hr'
    · have hok := (h.synchronizers w).phase
      rw [Synchronizer.PhaseOk, hphase] at hok
      exact hok r' hr
    · exact h.committed r' hr'
  | finish _ => exact h.put (Synchronizer.ok_fresh _ _ _) nofun
  | abandon _ => exact h.move trivial nofun
  | crash => exact h.put (Synchronizer.ok_fresh _ _ _) nofun

end Sync

section

theorem inv_init {W : Type} : (.init : Sync W).Inv fun _ => none where
  exclusive _ _ _ hi := absurd hi nofun
  published _ hr := absurd hr not_mem_nil
  dropped _ hd := absurd hd not_mem_nil
  sound := Mirror.sound_empty _
  advances := .refl _
  synchronizers _ := Synchronizer.ok_fresh _ _ _
  committed _ hr := absurd hr not_mem_nil

variable {W : Type} [Fintype W] [DecidableEq W] {s t : Sync W}

theorem inv_of_reachable (h : (syncSystem W).Reachable System.always s) :
    s.Inv fun _ => none :=
  h.invariant inv_init fun _ _ _ _ hs _ hn => hs.step (Sync.next_cases hn)

theorem inv_of_path (hs : (syncSystem W).Reachable System.always s)
    (h : (syncSystem W).Path System.always s t) : t.Inv s.mirror.shown :=
  h.stable (fun _ _ _ hs _ hn => hs.step (Sync.next_cases hn))
    { inv_of_reachable hs with advances := .refl _ }

/-- In every run, the activity of a bucket whose message is committed, and whose date is not frozen,
    is that of a snapshot of the source that has the event; and the snapshot that a bucket shows never
    moves backwards. -/
theorem rollup_fresh (hs : (syncSystem W).Reachable System.always s) :
    (∀ r ∈ s.committed, s.catalog.frozen r.day = false →
      ∃ σ, σ <:+ s.log ∧ r ∈ content σ ∧ s.mirror.shown (eventKey r) = some σ ∧
        Mirrors s.mirror.tables.activity (eventKey r) (content σ)) ∧
    ∀ t, (syncSystem W).Path System.always s t → ∀ key σ, s.mirror.shown key = some σ →
      Mirrors s.mirror.tables.activity key (content σ) ∧
      ∃ σ', σ <:+ σ' ∧ t.mirror.shown key = some σ' ∧
        Mirrors t.mirror.tables.activity key (content σ') := by
  have h := inv_of_reachable hs
  refine ⟨fun r hr hfrozen => ?_, fun t ht key σ hσ => ⟨h.sound.mirrors key σ hσ, ?_⟩⟩
  · rcases h.committed r hr with hf | ⟨σ, hσ, hmem⟩
    · rw [hfrozen] at hf
      cases hf
    have hle := h.sound.within _ σ hσ
    -- The partition was never dropped, since its date is not frozen.
    have hdrop : .drop r.day ∉ σ := by
      intro hd
      have hf := h.dropped r.day (hle.subset hd)
      rw [hfrozen] at hf
      cases hf
    exact ⟨σ, hle, mem_content hmem hdrop, hσ, h.sound.mirrors _ σ hσ⟩
  · have h' := inv_of_path hs ht
    obtain ⟨σ', hσ', hle⟩ := h'.advances key σ hσ
    exact ⟨σ', hle, hσ', h'.sound.mirrors key σ' hσ'⟩

def flushRun : List (SyncLabel Bool) :=
  [.insert (processEvent 1), .publish (processEvent 1), .deliver false (processEvent 1),
    .flush false, .lockDate false, .lookUp false, .execute false 0, .insert (processEvent 2),
    .execute false 0, .execute false 0, .commit false, .commitOffset false (processEvent 1),
    .finish false]

def rangeRun : List (SyncLabel Bool) :=
  [.begin true (.range ⟨dayStart 20635, dayStart 20635 + hourLength, none⟩), .lockDate true,
    .lookUp true, .execute true 1, .execute true 1, .execute true 1, .commit true]

theorem rollup_fresh_flushRun :
    ∃ s t, (syncSystem Bool).run Sync.init flushRun = some s ∧
      (syncSystem Bool).run s rangeRun = some t ∧
      s.committed = [processEvent 1] ∧ s.log.length = 2 ∧
      (∃ σ, σ <:+ s.log ∧ processEvent 1 ∈ content σ ∧
        s.mirror.shown (eventKey (processEvent 1)) = some σ ∧
        Mirrors s.mirror.tables.activity (eventKey (processEvent 1)) (content σ)) ∧
      ∃ σ', [.insert (processEvent 1)] <:+ σ' ∧
        t.mirror.shown (eventKey (processEvent 1)) = some σ' ∧
        Mirrors t.mirror.tables.activity (eventKey (processEvent 1)) (content σ') :=
  have hs : (syncSystem Bool).run Sync.init flushRun = some _ := rfl
  have ht : (syncSystem Bool).run _ rangeRun = some _ := rfl
  have h := rollup_fresh (System.reachable_of_run hs)
  ⟨_, _, hs, ht, rfl, rfl, h.1 _ mem_cons_self rfl,
    (h.2 _ (System.path_of_run ht) _ _ rfl).2⟩

end

end Edr.Rollup
