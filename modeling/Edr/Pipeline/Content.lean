import Edr.Pipeline.Archive

/-!
# What the archives contain

The final count of an archived bucket, under the date's lock, is compared with the number of the
rows that were exported, and nothing else is. This is enough, as long as the object is the one that
the sweep has uploaded: as many rows of the bucket as there are now are all of them
(`mem_of_archiveCount_eq`).
-/

namespace Edr

open List Option Function Catalog

namespace Sweep

def upload : Sweep → Option (BucketKey × ArchiveObject)
  | uploaded _ b o _ | headed _ b o _ => some (b.key, o)
  | idle | archiving .. | counted .. | exported .. | deleting .. | claimed .. | dropped .. => none

def file : Sweep → Option (BucketKey × ArchiveObject)
  | exported _ b o _ | uploaded _ b o _ | headed _ b o _ => some (b.key, o)
  | idle | archiving .. | counted .. | deleting .. | claimed .. | dropped .. => none

def claimedDay : Sweep → Option Day
  | claimed _ d _ | dropped _ d _ => some d
  | idle | archiving .. | counted .. | exported .. | uploaded .. | headed .. | deleting .. => none

end Sweep

def Label.message? {W L : Type*} : Label W L → Option RawMessage
  | .work _ (.receive raw) => some raw
  | _ => none

namespace Pipeline

variable {W L : Type*} [DecidableEq W] [DecidableEq L] {cfg : Config}
  {s t : State W L} {a : Label W L} {M : Set RawMessage}

/-! ## The rows come from messages -/

/-- The messages that are received are in `M`. -/
def Receives (M : Set RawMessage) (_ : State W L) (a : Label W L) : Prop :=
  ∀ raw ∈ a.message?, raw ∈ M

instance [DecidablePred (· ∈ M)] (s : State W L) (a : Label W L) : Decidable (Receives M s a) :=
  inferInstanceAs (Decidable (∀ raw ∈ a.message?, raw ∈ M))

omit [DecidableEq W] [DecidableEq L] in
theorem receives_univ (s : State W L) (a : Label W L) : Receives Set.univ s a :=
  fun _ _ => trivial

structure RecordInv (codec : Codec) (M : Set RawMessage) (s : State W L) : Prop where
  worker : ∀ w r, (s.worker w).record? = some r → NormalizedFrom codec M r
  stored : ∀ r ∈ s.stored, NormalizedFrom codec M r
  processed : ∀ r ∈ s.processed, NormalizedFrom codec M r

variable {r : EventRecord}

omit [DecidableEq W] [DecidableEq L] in
theorem WorkerStep.record {w : W} {ws ws' : WorkerState} {mv : WorkerMove}
    (h : WorkerStep cfg s w ws mv ws') (hr : ws'.record? = some r) :
    ws.record? = some r ∨ ∃ raw, mv = .receive raw ∧ normalizeEvent cfg.codec raw = some r := by
  cases h with
  | receive hn =>
    cases hr
    exact .inr ⟨_, rfl, hn⟩
  | create | reclaim | absent | preexisting | registered | guard => exact .inl hr
  | fail | abort => cases hr

theorem RecordInv.step (h : RecordInv cfg.codec M s) (hstep : Step cfg s a t)
    (ha : Receives M s a) : RecordInv cfg.codec M t := by
  have hupd {w : W} {ws : WorkerState}
      (hws : ∀ r, ws.record? = some r → NormalizedFrom cfg.codec M r) :
      ∀ w' r, (update s.worker w ws w').record? = some r →
        NormalizedFrom cfg.codec M r := by
    rw [forall_update_iff s.worker fun _ ws =>
      ∀ r, ws.record? = some r → NormalizedFrom cfg.codec M r]
    exact ⟨hws, fun w' _ => h.worker w'⟩
  have happ {l : List EventRecord} {r : EventRecord} (hl : ∀ r ∈ l, NormalizedFrom cfg.codec M r)
      (hr : NormalizedFrom cfg.codec M r) : ∀ r' ∈ l ++ [r], NormalizedFrom cfg.codec M r' := by
    intro r' hr'
    rcases mem_append.1 hr' with hr' | hr'
    · exact hl r' hr'
    · rwa [mem_singleton.1 hr']
  cases hstep with
  | @work w mv ws hw =>
    refine ⟨hupd fun r hr => ?_, h.stored, h.processed⟩
    rcases hw.record hr with hr | ⟨raw, rfl, hn⟩
    · exact h.worker w r hr
    · exact ⟨raw, ha raw rfl, hn⟩
  | @insert w r g hw =>
    have hr := h.worker w r (by rw [hw]; rfl)
    exact ⟨hupd fun r' hr' => by cases hr'; exact hr, happ h.stored hr, h.processed⟩
  | @commit w r g hw =>
    have hr := h.worker w r (by rw [hw]; rfl)
    exact ⟨hupd fun r' hr' => by cases hr'; exact hr, h.stored, h.processed⟩
  | @commitReady w r created hw =>
    have hr := h.worker w r (by rw [hw]; rfl)
    exact ⟨hupd fun r' hr' => by cases hr'; exact hr, h.stored, h.processed⟩
  | @publish w r delivered acked hw =>
    have hr := h.worker w r (by rw [hw]; rfl)
    refine ⟨hupd fun r' hr' => (by cases hr'), h.stored, ?_⟩
    dsimp only
    split_ifs
    · exact happ h.processed hr
    · exact h.processed
  | sweep | put | record | recordStale | claimDeletion | claimRefused | drop | mark | restore =>
    exact ⟨h.worker, h.stored, h.processed⟩

variable {P : State W L → Label W L → Prop}

theorem recordInv_of_reachable [Fintype W] (hP : ∀ s a, P s a → Receives M s a)
    (h : (pipeline cfg).Reachable P s) : RecordInv cfg.codec M s :=
  h.invariant ⟨fun _ _ hr => (by cases hr), fun _ hr => (by cases hr), fun _ hr => (by cases hr)⟩
    fun _ _ _ _ hs ha hn => hs.step (next_cases hn) (hP _ _ ha)

/-! ## What is stored -/

theorem Step.frozen_mono (hstep : Step cfg s a t) (hg : GuardInv s) {d : Day}
    (h : s.catalog.frozen d = true) : t.catalog.frozen d = true := by
  rcases hstep.catalog_cases hg.worker with he | ⟨op, he, -⟩
  · rwa [he]
  · rw [he]
    exact frozen_perform h op

variable {k : BucketKey}

theorem Step.hot_mono (hstep : Step cfg s a t) (hg : GuardInv s)
    (h : ∃ r, s.catalog.hot.get? k = some r) : ∃ r, t.catalog.hot.get? k = some r := by
  obtain ⟨r, hr⟩ := h
  rcases hstep.catalog_cases hg.worker with he | ⟨op, he, -⟩
  · exact ⟨r, by rw [he, hr]⟩
  · obtain ⟨r', hr', -⟩ := hot_perform hr op
    exact ⟨r', by rw [he, hr']⟩

theorem Step.stored_mono (hstep : Step cfg s a t) (h : r ∈ s.stored) : r ∈ t.stored := by
  cases hstep with
  | insert => exact mem_append_left _ h
  | _ => exact h

variable {o : ArchiveObject}

omit [DecidableEq W] [DecidableEq L] in
theorem SweepStep.file {sw sw' : Sweep} {mv : SweepMove} (h : SweepStep cfg s sw mv sw')
    (hf : sw'.file = some (k, o)) : sw.file = some (k, o) ∨ o.rows = archiveRows s.events k := by
  cases h with
  | exportRows ho =>
    cases hf
    exact .inr ho
  | head => exact .inl hf
  | begin | count | empty | skipCounted | skipExported | skipUploaded | skipHeaded | beginDelete
  | skipDay | crash => cases hf

/-- The rows of an object or of a file for a bucket: stored events of the bucket, each one once. -/
def RowsOf (s : State W L) (k : BucketKey) (o : ArchiveObject) : Prop :=
  o.rows.Nodup ∧ ∀ r ∈ o.rows, r ∈ s.stored ∧ inBucket k r = true

/-- What is known of the stored events, and of where they are. -/
structure StoreInv (s : State W L) : Prop where
  present : ∀ r ∈ s.stored, r ∈ s.events ∨ s.catalog.frozen r.day = true
  events : ∀ r ∈ s.events, r ∈ s.stored
  inserted : ∀ w r g, s.worker w = .inserted r g → r ∈ s.stored
  /-- An event that is ingested is stored, and its bucket has a `HOT` row. -/
  ingested : ∀ r ∈ s.ingested, r ∈ s.stored ∧ ∃ h, s.catalog.hot.get? r.bucketKey = some h
  claimed : ∀ l d, (s.sweep l).claimedDay = some d → s.catalog.frozen d = true
  file : ∀ l k o, (s.sweep l).file = some (k, o) → RowsOf s k o
  object : ∀ k o, s.objects (archiveKey k) = some o → RowsOf s k o

theorem Step.rowsOf_mono (hstep : Step cfg s a t) (h : RowsOf s k o) : RowsOf t k o :=
  ⟨h.1, fun r hr => ⟨hstep.stored_mono (h.2 r hr).1, (h.2 r hr).2⟩⟩

omit [DecidableEq W] [DecidableEq L] in
theorem StoreInv.initial : StoreInv (initial : State W L) where
  present _ h := by cases h
  events _ h := by cases h
  inserted _ _ _ h := by cases h
  ingested _ h := by cases h
  claimed _ _ h := by cases h
  file _ _ _ h := by cases h
  object _ _ h := by cases h

section

variable (h : StoreInv s) (hg : GuardInv s) (hstep : Step cfg s a t)

include h hstep

theorem StoreInv.file_step (hr : RegistryInv s) :
    ∀ l k o, (t.sweep l).file = some (k, o) → RowsOf t k o := by
  have hold (l : L) (k : BucketKey) (o : ArchiveObject) (ho : (s.sweep l).file = some (k, o)) :
      RowsOf t k o := hstep.rowsOf_mono (h.file l k o ho)
  have hupd {l : L} {sw : Sweep} (hsw : ∀ k o, sw.file = some (k, o) → RowsOf t k o) :
      ∀ l' k o, (update s.sweep l sw l').file = some (k, o) → RowsOf t k o := by
    rw [forall_update_iff s.sweep fun _ sw => ∀ k o, sw.file = some (k, o) → RowsOf t k o]
    exact ⟨hsw, fun l' _ => hold l'⟩
  cases hstep with
  | work | insert | commit | commitReady | publish | restore => exact hold
  | @sweep l mv sw hsw =>
    refine hupd fun k o ho => ?_
    rcases hsw.file ho with ho | ho
    · exact h.file l k o ho
    · rw [RowsOf, ho]
      refine ⟨?_, fun r hr => ?_⟩
      · exact archiveRows_perm.nodup_iff.2 (hr.nodup.of_map.filter _)
      · exact ⟨h.events r (mem_archiveRows.1 hr).1, (mem_archiveRows.1 hr).2⟩
  | @put l now b o todo hl =>
    refine hupd fun k o' ho => h.file l k o' ?_
    rw [hl]
    exact ho
  | record | recordStale | claimDeletion | claimRefused | drop | mark =>
    exact hupd nofun

theorem StoreInv.object_step (hp : PathInv s) :
    ∀ k o, t.objects (archiveKey k) = some o → RowsOf t k o := by
  intro k o ho
  -- The object is the one that was there, or the file of the sweep that puts it.
  refine hstep.rowsOf_mono ?_
  rcases hstep.objects hp k with he | ⟨l, now, b, o', todo, -, hl, rfl, ho'⟩
  · exact h.object k o (he.symm.trans ho)
  · cases ho'.symm.trans ho
    exact h.file l b.key o (by rw [hl]; rfl)

include hg

theorem StoreInv.present_step :
    ∀ r ∈ t.stored, r ∈ t.events ∨ t.catalog.frozen r.day = true := by
  have hf {d : Day} (hd : s.catalog.frozen d = true) : t.catalog.frozen d = true :=
    hstep.frozen_mono hg hd
  intro r hr
  cases hstep with
  | insert =>
    rcases mem_append.1 hr with hr | hr
    · exact (h.present r hr).imp (mem_append_left _) id
    · exact .inl (mem_append_right _ hr)
  | @drop l now d days hl =>
    -- The partition that is dropped is that of a claimed day.
    rcases h.present r hr with he | he
    · by_cases hd : r.day = d
      · rw [hd]
        exact .inr (h.claimed l d (by rw [hl]; rfl))
      · exact .inl (mem_dropPartition.2 ⟨he, hd⟩)
    · exact .inr he
  | _ => exact (h.present r hr).imp id hf

theorem StoreInv.claimed_step :
    ∀ l d, (t.sweep l).claimedDay = some d → t.catalog.frozen d = true := by
  have hf {d : Day} (hd : s.catalog.frozen d = true) : t.catalog.frozen d = true :=
    hstep.frozen_mono hg hd
  have hupd {l : L} {sw : Sweep}
      (hsw : ∀ d, sw.claimedDay = some d → t.catalog.frozen d = true) :
      ∀ l' d, (update s.sweep l sw l').claimedDay = some d →
        t.catalog.frozen d = true := by
    rw [forall_update_iff s.sweep fun _ sw =>
      ∀ d, sw.claimedDay = some d → t.catalog.frozen d = true]
    exact ⟨hsw, fun l' _ d hd => hf (h.claimed l' d hd)⟩
  cases hstep with
  | work | insert | commit | commitReady | publish | restore =>
    exact fun l d hd => hf (h.claimed l d hd)
  | @sweep l mv sw hsw =>
    refine hupd fun d hd => ?_
    generalize s.sweep l = sw₀ at hsw
    cases hsw <;> cases hd
  | claimDeletion _ _ hc =>
    refine hupd fun d hd => ?_
    cases hd
    exact frozen_of_claim hc
  | @drop l now d days hl =>
    refine hupd fun d' hd => h.claimed l d' ?_
    rw [hl]
    exact hd
  | put | record | recordStale | claimRefused | mark => exact hupd nofun

theorem StoreInv.ingested_step :
    ∀ r ∈ t.ingested, r ∈ t.stored ∧ ∃ h, t.catalog.hot.get? r.bucketKey = some h := by
  have hold {r : EventRecord} (hr : r ∈ s.ingested) :
      r ∈ t.stored ∧ ∃ h, t.catalog.hot.get? r.bucketKey = some h :=
    ⟨hstep.stored_mono (h.ingested r hr).1, hstep.hot_mono hg (h.ingested r hr).2⟩
  intro r hr
  cases hstep with
  | @commit w r' g hw =>
    rcases mem_append.1 hr with hr | hr
    · exact hold hr
    · -- The guard has found the row of the bucket, or inserts it.
      rw [mem_singleton.1 hr]
      refine ⟨h.inserted w r' g hw, ?_⟩
      have hok := hg.worker w
      rw [hw] at hok
      rw [hot_applyGuard, (hotIngestGuard_eq_ok.1 hok).2.2]
      rcases hh : s.catalog.hot.get? r'.bucketKey with _ | row
      · exact ⟨_, if_pos ⟨rfl, rfl⟩⟩
      · exact ⟨row, if_neg fun hi => by cases hi.1⟩
  | _ => exact hold hr

theorem StoreInv.step (hr : RegistryInv s) (hp : PathInv s) : StoreInv t where
  present := h.present_step hg hstep
  claimed := h.claimed_step hg hstep
  file := h.file_step hstep hr
  object := h.object_step hstep hp
  ingested := h.ingested_step hg hstep
  events r hr := by
    cases hstep with
    | insert =>
      rcases mem_append.1 hr with hr | hr
      · exact mem_append_left _ (h.events r hr)
      · exact mem_append_right _ hr
    | drop => exact h.events r (mem_dropPartition.1 hr).1
    | _ => exact h.events r hr
  inserted w r g hw := by
    have hupd {w' : W} {ws : WorkerState} (hws : ws ≠ .inserted r g)
        (hw : update s.worker w' ws w = .inserted r g) : r ∈ s.stored := by
      rw [update_apply] at hw
      split_ifs at hw
      · exact absurd hw hws
      · exact h.inserted w r g hw
    cases hstep with
    | @work w' mv ws hstep =>
      refine hupd ?_ hw
      rintro rfl
      generalize s.worker w' = ws₀ at hstep
      cases hstep
    | insert =>
      dsimp only at hw
      rw [update_apply] at hw
      split_ifs at hw
      · cases hw
        exact mem_append_right _ (mem_singleton_self r)
      · exact mem_append_left _ (h.inserted w r g hw)
    | commit | commitReady | publish => exact hupd (fun he => by cases he) hw
    | sweep | put | record | recordStale | claimDeletion | claimRefused | drop | mark | restore =>
      exact h.inserted w r g hw

end

theorem storeInv_of_reachable [Fintype W] (h : (pipeline cfg).Reachable P s) : StoreInv s :=
  h.invariant .initial fun _ _ _ hr hs _ hn =>
    hs.step (guardInv_of_reachable hr) (next_cases hn) (registryInv_of_reachable hr)
      (pathInv_of_reachable hr)

/-! ## What the verified archives contain -/

def uploadExclusive [Fintype L] (s : State W L) : Label W L → Bool
  | .put l =>
    match s.sweep l with
    | .exported _ b _ _ => !s.catalog.verified b.key &&
        decide (∀ l', l' ≠ l → ((s.sweep l').upload.map Prod.fst) ≠ some b.key)
    | _ => true
  | _ => true

def UploadExclusive [Fintype L] (s : State W L) (a : Label W L) : Prop :=
  uploadExclusive s a = true

instance [Fintype L] (s : State W L) (a : Label W L) : Decidable (UploadExclusive s a) :=
  inferInstanceAs (Decidable (uploadExclusive s a = true))

/-- A verified archive contains every ingested event of its bucket, and the object that a sweep
    may record is the one that it has uploaded. -/
structure ContentInv (s : State W L) : Prop where
  verified : ∀ k, s.catalog.verified k = true → ∃ o, s.objects (archiveKey k) = some o ∧
    ∀ r ∈ s.ingested, r.bucketKey = k → r ∈ o.rows
  upload : ∀ l k o, (s.sweep l).upload = some (k, o) → s.objects (archiveKey k) = some o

theorem Step.upload (hstep : Step cfg s a t) (hp : PathInv s) {l : L}
    (hl : (t.sweep l).upload = some (k, o)) :
    (s.sweep l).upload = some (k, o) ∨ t.objects (archiveKey k) = some o := by
  cases hstep with
  | work | insert | commit | commitReady | publish | restore => exact .inl hl
  | @sweep l' mv sw hsw =>
    dsimp only at hl
    rw [update_apply] at hl
    split_ifs at hl with he
    · subst he
      left
      generalize s.sweep l = sw₀ at hsw
      cases hsw with
      | head => exact hl
      | _ => cases hl
    · exact .inl hl
  | @put l' now b o' todo hl' =>
    dsimp only at hl
    rw [update_apply] at hl
    split_ifs at hl with he
    · cases hl
      refine .inr ?_
      rw [← hp.candidate l' b (by rw [hl']; exact mem_cons_self)]
      exact update_self _ _ _
    · exact .inl hl
  | record | recordStale | claimDeletion | claimRefused | drop | mark =>
    dsimp only at hl
    rw [update_apply] at hl
    split_ifs at hl
    · cases hl
    · exact .inl hl

/-- A step ingests nothing, or it is the commit of an insert, and the archive of the bucket is not
    verified after it: the guard has withdrawn its verification. -/
theorem Step.ingested (hstep : Step cfg s a t) (hg : GuardInv s) : t.ingested = s.ingested ∨
    ∃ r, t.ingested = s.ingested ++ [r] ∧ t.catalog.verified r.bucketKey = false := by
  cases hstep with
  | @commit w r g hw =>
    refine .inr ⟨r, rfl, ?_⟩
    have hok := hg.worker w
    rw [hw] at hok
    obtain ⟨-, -, rfl⟩ := hotIngestGuard_eq_ok.1 hok
    rw [verified, archive_applyGuard]
    rcases hr : s.catalog.archive.get? r.bucketKey with _ | row
    · simp
    · have hd := (hg.inv.archive_wellFormed hr).isDelete
      by_cases hv : row.archiveVerifiedAt.isSome = true <;> simp [hd, hv, ArchiveRow.unverify]
  | _ => exact .inl rfl

omit [DecidableEq W] [DecidableEq L] in
/-- The final count: a sweep that records a bucket has exported all its rows, as they are as many
    as the rows that are there now. -/
theorem mem_of_record (hi : s.catalog.Inv) (hr : RegistryInv s) (hs : StoreInv s) {l : L}
    {hot : HotRow} (hfile : (s.sweep l).file = some (k, o))
    (hhot : s.catalog.archiveGuard k = some hot) (hcount : archiveCount s.events k = o.eventCount)
    (hrs : r ∈ s.stored) (hk : inBucket k r = true) : r ∈ o.rows := by
  obtain ⟨hhot, hlive⟩ := archiveGuard_eq_some.1 hhot
  -- The bucket is live, so its rows are all in ClickHouse.
  have hf : s.catalog.frozen k.bucketStartAt = false := (hi.isDelete_eq_frozen hhot).symm.trans hlive
  have hpresent {r : EventRecord} (hr : r ∈ s.stored) (hk : inBucket k r = true) :
      r ∈ s.events := by
    rcases hs.present r hr with he | he
    · exact he
    · have hd : r.day = k.bucketStartAt := congrArg BucketKey.bucketStartAt (inBucket_iff.1 hk).1
      rw [hd, hf] at he
      cases he
  obtain ⟨hnodup, hrows⟩ := hs.file l k o hfile
  exact mem_of_archiveCount_eq hr.nodup hnodup
    (fun r hr => ⟨hpresent (hrows r hr).1 (hrows r hr).2, (hrows r hr).2⟩) hcount
    (hpresent hrs hk) hk

variable [Fintype L]

/-- An upload that meets the condition is not of a bucket that is verified, or that a sweep has
    uploaded. -/
theorem objects_of_uploadExclusive (hp : PathInv s) (hstep : Step cfg s a t)
    (hu : UploadExclusive s a)
    (hk : s.catalog.verified k = true ∨ ∃ l o, (s.sweep l).upload = some (k, o)) :
    t.objects (archiveKey k) = s.objects (archiveKey k) := by
  rcases hstep.objects hp k with he | ⟨l, now, b, o, todo, rfl, hl, rfl, -⟩
  · exact he
  · simp only [UploadExclusive, uploadExclusive, hl, Bool.and_eq_true, Bool.not_eq_true',
      decide_eq_true_eq] at hu
    obtain ⟨hv, hh⟩ := hu
    rcases hk with hk | ⟨l', o', hl'⟩
    · rw [hv] at hk
      cases hk
    · refine absurd (by rw [hl']; rfl) (hh l' ?_)
      rintro rfl
      rw [hl] at hl'
      cases hl'

theorem ContentInv.step (h : ContentInv s) (hg : GuardInv s) (hr : RegistryInv s) (hp : PathInv s)
    (hs : StoreInv s) (hd : ∀ r ∈ s.stored, r.isDelete = false) (hstep : Step cfg s a t)
    (hu : UploadExclusive s a) : ContentInv t where
  verified k hv := by
    obtain ⟨row', hrow', hrv⟩ := (any_eq_true _ _).1 hv
    rcases hstep.archive_row hrow' with ⟨row, hrow, hsame⟩ | ⟨row, -, rfl⟩ |
      ⟨l, now, b, o, todo, hot, rfl, hl, rfl, hhot, hcount, -⟩
    · -- The archive was verified before the step, which leaves its object.
      have hv₀ : s.catalog.verified k = true := by
        rw [Catalog.verified, hrow, any_some, ← hsame.verifiedAt, hrv]
      obtain ⟨o, ho, hin⟩ := h.verified k hv₀
      refine ⟨o, (objects_of_uploadExclusive hp hstep hu (.inl hv₀)).trans ho, ?_⟩
      rcases hstep.ingested hg with he | ⟨r₀, he, hr₀⟩
      · rwa [he]
      · intro r hr hk
        rw [he] at hr
        rcases mem_append.1 hr with hr | hr
        · exact hin r hr hk
        · rw [← hk, mem_singleton.1 hr, hr₀] at hv
          cases hv
    · cases hrv
    · -- The archive is recorded in this step.
      have hkeep : t.ingested = s.ingested ∧ t.objects = s.objects := by
        cases hstep <;> exact ⟨rfl, rfl⟩
      refine ⟨o, ?_, fun r hr' hk => ?_⟩
      · rw [hkeep.2]
        exact h.upload l b.key o (by rw [hl]; rfl)
      · rw [hkeep.1] at hr'
        have hrs := (hs.ingested r hr').1
        exact mem_of_record hg.inv hr hs (by rw [hl]; rfl) hhot hcount hrs
          (inBucket_iff.2 ⟨hk, hd r hrs⟩)
  upload l k o hl := by
    rcases hstep.upload hp hl with hl₀ | ho
    · rw [objects_of_uploadExclusive hp hstep hu (.inr ⟨l, o, hl₀⟩)]
      exact h.upload l k o hl₀
    · exact ho

/-- In such a run, a verified archive contains every event of its bucket that was ingested. -/
theorem contentInv_of_reachable [Fintype W] (hP : ∀ s a, P s a → UploadExclusive s a)
    (h : (pipeline cfg).Reachable P s) : ContentInv s := by
  refine h.invariant ⟨fun _ hv => (by cases hv), fun _ _ _ hl => (by cases hl)⟩ ?_
  intro s a t hr hs ha hn
  have hrec : RecordInv cfg.codec Set.univ s :=
    recordInv_of_reachable (fun s a _ => receives_univ s a) hr
  exact hs.step (guardInv_of_reachable hr) (registryInv_of_reachable hr) (pathInv_of_reachable hr)
    (storeInv_of_reachable hr) (fun r hr => (hrec.stored r hr).not_isDelete) (next_cases hn)
    (hP s a ha)

end Pipeline

end Edr
