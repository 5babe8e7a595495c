import Edr.Catalog
import Edr.Lib.System

/-!
# Runs of the catalog

The transactions of the catalog, in any order and on any buckets, from the empty
table (`catalogSystem`). What the rows of a bucket can be is a small life cycle
(`BucketInv`): nothing; a live `HOT` row; a live `HOT` row with an `ARCHIVED` S3 row; and,
once the day is claimed for deletion, a deleted `HOT` row with a verified S3 row of
any status. The days are claimed as a whole (`Inv.day`).
-/

namespace Edr

open Option Catalog

/-- A `HOT` row ends with its day, and only a claimed row is marked as deleted. -/
structure HotRow.WellFormed (k : BucketKey) (h : HotRow) : Prop where
  bucketEndAt : h.bucketEndAt = dayEnd k.bucketStartAt
  isDelete : h.partitionDeletedAt.isSome = true → h.isDelete = true

/-- An S3 row ends with its day, is never deleted, and has a checksum as long as it is
    verified. -/
structure ArchiveRow.WellFormed (k : BucketKey) (r : ArchiveRow) : Prop where
  bucketEndAt : r.bucketEndAt = dayEnd k.bucketStartAt
  isDelete : r.isDelete = false
  checksum : r.archiveVerifiedAt.isSome = r.checksumSha256.isSome

/-- The moves of the status of an S3 row: a restore is requested, ends, and expires. -/
inductive ArchiveStatus.Moves : ArchiveStatus → ArchiveStatus → Prop
  | request_archived : Moves .archived .restoreRequested
  | request_failed : Moves .restoreFailed .restoreRequested
  | request_expired : Moves .expired .restoreRequested
  | complete : Moves .restoreRequested .restored
  | fail : Moves .restoreRequested .restoreFailed
  | expire : Moves .restored .expired

/-- The rows say the same about the archived object, and differ in its restore only. -/
structure ArchiveRow.SameObject (r r' : ArchiveRow) : Prop where
  bucketEndAt : r'.bucketEndAt = r.bucketEndAt
  storagePath : r'.storagePath = r.storagePath
  eventCount : r'.eventCount = r.eventCount
  checksum : r'.checksumSha256 = r.checksumSha256
  verifiedAt : r'.archiveVerifiedAt = r.archiveVerifiedAt
  isDelete : r'.isDelete = r.isDelete

theorem ArchiveRow.SameObject.refl (r : ArchiveRow) : r.SameObject r :=
  ⟨rfl, rfl, rfl, rfl, rfl, rfl⟩

namespace Catalog

inductive Op
  | hotIngest (k : BucketKey)
  /-- `archive_guard`, and `record_verified_archive` unless it finds no row. -/
  | record (k : BucketKey) (storagePath : ObjectKey) (eventCount sizeBytes : Nat)
      (checksumSha256 : String) (verifiedAt : Time)
  | claimPartitionDeletion (d : Day) (verifiedBefore : Time)
  | markPartitionDeleted (d : Day) (deletedAt : Time)
  | requestRestore (k : BucketKey) (actorIdentifier requestId : String) (requestedAt : Time)
  | markRestored (k : BucketKey) (restoredAt restoreExpiresAt : Time)
  | markRestoreFailed (k : BucketKey) (error : String)
  | expireRestores (now : Time)

def Op.isRestore : Op → Bool
  | .requestRestore .. | .markRestored .. | .markRestoreFailed .. | .expireRestores .. => true
  | .hotIngest .. | .record .. | .claimPartitionDeletion .. | .markPartitionDeleted .. => false

def perform (c : Catalog) : Op → Catalog
  | .hotIngest k =>
    match hotIngestGuard k c with
    | .ok g => c.applyGuard g
    | .error _ => c
  | .record k path n size checksum now =>
    match c.archiveGuard k with
    | some hot => c.recordVerifiedArchive ⟨k, hot.bucketEndAt, path, n, size, checksum, now⟩
    | none => c
  | .claimPartitionDeletion d verifiedBefore => (c.claimPartitionDeletion d verifiedBefore).2
  | .markPartitionDeleted d deletedAt => c.markPartitionDeleted d deletedAt
  | .requestRestore k actor request t => (c.requestRestore k actor request t).2
  | .markRestored k t e => (c.markRestored k t e).2
  | .markRestoreFailed k error => (c.markRestoreFailed k error).2
  | .expireRestores now => c.expireRestores now

def catalogSystem : System Catalog Op where
  init := .empty
  next c op := some (c.perform op)

/-! ## The life cycle of a bucket -/

inductive BucketInv (k : BucketKey) : Option HotRow → Option ArchiveRow → Prop
  | absent : BucketInv k none none
  | hot {h : HotRow} : h.WellFormed k → h.isDelete = false → BucketInv k (some h) none
  | archived {h : HotRow} {r : ArchiveRow} : h.WellFormed k → r.WellFormed k →
      r.eventCount = h.eventCount → h.isDelete = false → r.storageStatus = .archived →
      BucketInv k (some h) (some r)
  | cold {h : HotRow} {r : ArchiveRow} : h.WellFormed k → r.WellFormed k →
      r.eventCount = h.eventCount → h.isDelete = true → r.archiveVerifiedAt.isSome = true →
      BucketInv k (some h) (some r)

structure Inv (c : Catalog) : Prop where
  bucket : ∀ k, BucketInv k (c.hot.get? k) (c.archive.get? k)
  day : ∀ k k' h h', c.hot.get? k = some h → c.hot.get? k' = some h' →
    k.bucketStartAt = k'.bucketStartAt → h.isDelete = h'.isDelete

variable {c c' : Catalog} {k : BucketKey} {d : Day}

theorem Inv.empty : Inv .empty where
  bucket _ := .absent
  day _ _ _ _ h := by simp [Catalog.empty] at h

variable {h : HotRow}

theorem Inv.hot_wellFormed (hc : c.Inv) (hk : c.hot.get? k = some h) : h.WellFormed k := by
  have hb := hc.bucket k
  rw [hk] at hb
  generalize c.archive.get? k = o at hb
  cases hb <;> assumption

variable {r : ArchiveRow}

theorem Inv.archive_wellFormed (hc : c.Inv) (hk : c.archive.get? k = some r) : r.WellFormed k := by
  have hb := hc.bucket k
  rw [hk] at hb
  generalize c.hot.get? k = o at hb
  cases hb <;> assumption

theorem Inv.hot_of_archive (hc : c.Inv) (hk : c.archive.get? k = some r) :
    ∃ h, c.hot.get? k = some h ∧ r.eventCount = h.eventCount := by
  have hb := hc.bucket k
  rw [hk] at hb
  rcases hh : c.hot.get? k with _ | h
  · rw [hh] at hb
    cases hb
  · rw [hh] at hb
    refine ⟨h, rfl, ?_⟩
    cases hb <;> assumption

theorem Inv.archived_of_live (hc : c.Inv) (hk : c.hot.get? k = some h) (hl : h.isDelete = false)
    (hr : c.archive.get? k = some r) : r.storageStatus = .archived := by
  have hb := hc.bucket k
  rw [hk, hr] at hb
  cases hb with
  | archived _ _ _ _ hs => exact hs
  | cold _ _ _ hd _ => rw [hl] at hd; cases hd

theorem Inv.verified_of_deleted (hc : c.Inv) (hk : c.hot.get? k = some h) (hd : h.isDelete = true) :
    ∃ r, c.archive.get? k = some r ∧ r.archiveVerifiedAt.isSome = true := by
  have hb := hc.bucket k
  rw [hk] at hb
  generalize hr : c.archive.get? k = o at hb
  cases hb with
  | hot _ hl => rw [hl] at hd; cases hd
  | archived _ _ _ hl _ => rw [hl] at hd; cases hd
  | cold _ _ _ _ hv => exact ⟨_, rfl, hv⟩

theorem Inv.frozen_iff (hc : c.Inv) : c.frozen d = true ↔
    ∃ k h, c.hot.get? k = some h ∧ k.bucketStartAt = d ∧ h.isDelete = true := by
  rw [Catalog.frozen_iff]
  constructor
  · rintro ⟨k, h, hk, hd, hh⟩
    exact ⟨k, h, hk, hd, hh.elim id (hc.hot_wellFormed hk).isDelete⟩
  · rintro ⟨k, h, hk, hd, hh⟩
    exact ⟨k, h, hk, hd, .inl hh⟩

theorem Inv.isDelete_eq_frozen (hc : c.Inv) (hk : c.hot.get? k = some h) :
    h.isDelete = c.frozen k.bucketStartAt := by
  rcases hf : c.frozen k.bucketStartAt with _ | _
  · rcases hd : h.isDelete with _ | _
    · rfl
    · rw [hc.frozen_iff.2 ⟨k, h, hk, rfl, hd⟩] at hf
      exact hf
  · obtain ⟨k', h', hk', hd, hh'⟩ := hc.frozen_iff.1 hf
    rw [hc.day k k' h h' hk hk' hd.symm, hh']

theorem Inv.liveHot_of_not_frozen (hc : c.Inv) (hk : c.hot.get? k = some h)
    (hf : c.frozen k.bucketStartAt = false) : c.liveHot k = true :=
  liveHot_iff.2 ⟨h, hk, (hc.isDelete_eq_frozen hk).trans hf⟩

/-! ## What the operations keep -/

theorem newHotRow_wellFormed (k : BucketKey) : (newHotRow k).WellFormed k :=
  ⟨rfl, nofun⟩

theorem Inv.applyGuard (hc : c.Inv) {g : GuardWrites} (hg : hotIngestGuard k c = .ok g) :
    (c.applyGuard g).Inv := by
  obtain ⟨hf, hlive, rfl⟩ := hotIngestGuard_eq_ok.1 hg
  refine ⟨fun k' => ?_, fun k₁ k₂ h₁ h₂ e₁ e₂ hd => ?_⟩
  · rw [hot_applyGuard, archive_applyGuard]
    have hb := hc.bucket k'
    by_cases hk : k' = k
    · subst hk
      generalize hh : c.hot.get? k' = o at hb
      generalize hr : c.archive.get? k' = a at hb
      cases hb with
      | absent => simpa using BucketInv.hot (newHotRow_wellFormed k') rfl
      | hot hw hl => simpa using BucketInv.hot hw hl
      | archived hw hw' hn hl hs =>
        -- The row stays archived, with or without its verification.
        rename_i h r
        by_cases hv : r.archiveVerifiedAt.isSome = true
        · have hu : r.unverify.WellFormed k' := ⟨hw'.bucketEndAt, hw'.isDelete, rfl⟩
          simpa [hv, hw'.isDelete] using BucketInv.archived hw hu hn hl hs
        · simpa [hv] using BucketInv.archived hw hw' hn hl hs
      | cold _ _ _ hd _ =>
        rw [hlive _ hh] at hd
        cases hd
    · simpa [hk] using hb
  · -- No row of the day is deleted, neither those that are there nor a new one.
    rw [hot_applyGuard] at e₁ e₂
    have hnew : ∀ k' h', (if (c.hot.get? k).isNone = true ∧ k' = k then
        some ((c.hot.get? k').getD (newHotRow k')) else c.hot.get? k') = some h' →
        c.hot.get? k' = some h' ∨ k'.bucketStartAt = k.bucketStartAt ∧ h'.isDelete = false := by
      intro k' h' e
      split_ifs at e with hi
      · obtain ⟨hi, rfl⟩ := hi
        rw [isNone_iff_eq_none] at hi
        rw [hi] at e
        cases e
        exact .inr ⟨rfl, rfl⟩
      · exact .inl e
    rcases hnew _ _ e₁ with e₁ | ⟨d₁, l₁⟩ <;> rcases hnew _ _ e₂ with e₂ | ⟨d₂, l₂⟩
    · exact hc.day k₁ k₂ h₁ h₂ e₁ e₂ hd
    · rw [l₂, hc.isDelete_eq_frozen e₁, hd, d₂, hf]
    · rw [l₁, hc.isDelete_eq_frozen e₂, ← hd, d₁, hf]
    · rw [l₁, l₂]

theorem Inv.recordVerifiedArchive (hc : c.Inv) (hk : c.hot.get? k = some h)
    (hl : h.isDelete = false) (path : ObjectKey) (n size : Nat) (checksum : String) (t : Time) :
    (c.recordVerifiedArchive ⟨k, h.bucketEndAt, path, n, size, checksum, t⟩).Inv := by
  refine ⟨fun k' => ?_, fun k₁ k₂ h₁ h₂ e₁ e₂ hd => ?_⟩
  · rw [hot_recordVerifiedArchive, archive_recordVerifiedArchive]
    by_cases hk' : k' = k
    · subst hk'
      have hw := hc.hot_wellFormed hk
      simp only [hk, hl, map_some, true_and, if_true]
      refine .archived ⟨hw.bucketEndAt, fun hp => ?_⟩ ⟨hw.bucketEndAt, rfl, rfl⟩ rfl rfl rfl
      exact hl.symm.trans (hw.isDelete hp)
    · simpa [hk'] using hc.bucket k'
  · rw [hot_recordVerifiedArchive, map_eq_some_iff] at e₁ e₂
    obtain ⟨g₁, e₁, rfl⟩ := e₁
    obtain ⟨g₂, e₂, rfl⟩ := e₂
    have := hc.day k₁ k₂ g₁ g₂ e₁ e₂ hd
    split_ifs <;> exact this

theorem Inv.claimPartitionDeletion (hc : c.Inv) (d : Day) (verifiedBefore : Time) :
    (c.claimPartitionDeletion d verifiedBefore).2.Inv := by
  rcases claimPartitionDeletion_cases d verifiedBefore c with h | ⟨-, h⟩ |
    ⟨hv, -, c', h, ha, -, hh⟩
  · rwa [h]
  · rwa [h]
  · rw [h]
    refine ⟨fun k => ?_, fun k₁ k₂ h₁ h₂ e₁ e₂ hd => ?_⟩
    · rw [hh, ha]
      have hb := hc.bucket k
      generalize hk : c.hot.get? k = o at hb
      generalize hr : c.archive.get? k = a at hb
      by_cases hd : k.bucketStartAt = d
      · cases hb with
        | absent => exact .absent
        | hot _ hl =>
          have := hv k _ hk hd hl
          simp [verifiedBy, hr] at this
        | archived hw hw' hn hl hs =>
          rename_i h r
          have hv := hv k _ hk hd hl
          simp only [verifiedBy, hr, any_some, Bool.and_eq_true, any_eq_true] at hv
          obtain ⟨⟨⟨-, t, ht, -⟩, -⟩, -⟩ := hv
          simpa [hd, hl] using BucketInv.cold (h := { h with isDelete := true })
            ⟨hw.bucketEndAt, fun _ => rfl⟩ hw' hn rfl (by rw [ht]; rfl)
        | cold hw hw' hn hl hv => simpa [hl] using BucketInv.cold hw hw' hn hl hv
      · simpa [hd] using hb
    · rw [hh, map_eq_some_iff] at e₁ e₂
      obtain ⟨g₁, e₁, rfl⟩ := e₁
      obtain ⟨g₂, e₂, rfl⟩ := e₂
      have := hc.day k₁ k₂ g₁ g₂ e₁ e₂ hd
      rw [hd, this]
      split_ifs <;> simp [this]

theorem Inv.markPartitionDeleted (hc : c.Inv) (d : Day) (t : Time) :
    (c.markPartitionDeleted d t).Inv := by
  refine ⟨fun k => ?_, fun k₁ k₂ h₁ h₂ e₁ e₂ hd => ?_⟩
  · rw [hot_markPartitionDeleted]
    have hb := hc.bucket k
    change BucketInv k _ (c.archive.get? k)
    generalize hk : c.hot.get? k = o at hb
    generalize hr : c.archive.get? k = a at hb
    cases hb with
    | absent => exact .absent
    | hot hw hl => simpa [hl] using BucketInv.hot hw hl
    | archived hw hw' hn hl hs => simpa [hl] using BucketInv.archived hw hw' hn hl hs
    | cold hw hw' hn hl hv =>
      rw [map_some]
      split_ifs
      · exact .cold ⟨hw.bucketEndAt, fun _ => hl⟩ hw' hn hl hv
      · exact .cold hw hw' hn hl hv
  · rw [hot_markPartitionDeleted, map_eq_some_iff] at e₁ e₂
    obtain ⟨g₁, e₁, rfl⟩ := e₁
    obtain ⟨g₂, e₂, rfl⟩ := e₂
    have := hc.day k₁ k₂ g₁ g₂ e₁ e₂ hd
    split_ifs <;> exact this

variable {f : ArchiveRow → ArchiveRow}

/-- What a transaction on the restores does: it leaves the `HOT` rows, and changes S3 rows of buckets
    without a live `HOT` row, which stay about the same object. -/
structure RestoreStep (c c' : Catalog) : Prop where
  hot : c'.hot = c.hot
  row : ∀ k, c'.archive.get? k = c.archive.get? k ∨
    ∃ r r', c.archive.get? k = some r ∧ c'.archive.get? k = some r' ∧ r.SameObject r' ∧
      (r.storageStatus = .archived → c.liveHot k = false)

theorem RestoreStep.of_map (hhot : c'.hot = c.hot) {p : BucketKey → ArchiveRow → Prop}
    [∀ k r, Decidable (p k r)]
    (harch : ∀ k, c'.archive.get? k = (c.archive.get? k).map fun r => if p k r then f r else r)
    (hp : ∀ k r, p k r → r.storageStatus = .archived → c.liveHot k = false)
    (hf : ∀ r : ArchiveRow, r.SameObject (f r)) : RestoreStep c c' := by
  refine ⟨hhot, fun k => ?_⟩
  rw [harch]
  rcases c.archive.get? k with _ | r
  · exact .inl rfl
  · by_cases h : p k r
    · exact .inr ⟨r, f r, rfl, by rw [map_some, if_pos h], hf r, hp k r h⟩
    · exact .inl (by rw [map_some, if_neg h])

theorem perform_isRestore {op : Op} (h : op.isRestore = true) : RestoreStep c (c.perform op) := by
  cases op with
  | requestRestore k actor request t =>
    simp only [perform]
    rcases requestRestore_cases k actor request t c with h | ⟨r, -, hres, c', h, hhot, -, harch⟩
    · rw [h]
      exact ⟨rfl, fun k => .inl rfl⟩
    · rw [h]
      refine .of_map hhot harch ?_ fun _ => ⟨rfl, rfl, rfl, rfl, rfl, rfl⟩
      rintro k' r' rfl -
      simp only [restorable, Bool.and_eq_true, Bool.not_eq_true'] at hres
      exact hres.2
  | markRestored k t e =>
    refine .of_map rfl (archive_markRestored k t e) ?_ fun _ => ⟨rfl, rfl, rfl, rfl, rfl, rfl⟩
    exact fun k' r hr hs => by cases hs.symm.trans (restoreAwaited_iff.1 hr.2).1
  | markRestoreFailed k error =>
    refine .of_map rfl (archive_markRestoreFailed k error) ?_
      fun _ => ⟨rfl, rfl, rfl, rfl, rfl, rfl⟩
    exact fun k' r hr hs => by cases hs.symm.trans (restoreAwaited_iff.1 hr.2).1
  | expireRestores now =>
    refine .of_map rfl (archive_expireRestores now) ?_ fun _ => ⟨rfl, rfl, rfl, rfl, rfl, rfl⟩
    exact fun k r hr hs => by cases hs.symm.trans (restoreExpired_status hr)
  | hotIngest | record | claimPartitionDeletion | markPartitionDeleted => cases h

theorem Inv.restoreStep (hc : c.Inv) (h : RestoreStep c c') : c'.Inv := by
  refine ⟨fun k => ?_, by rw [h.hot]; exact hc.day⟩
  have hb := hc.bucket k
  rw [h.hot]
  rcases h.row k with he | ⟨r, r', hr, hr', hsame, hlive⟩
  · rwa [he]
  · rw [hr] at hb
    rw [hr']
    generalize hk : c.hot.get? k = o at hb
    cases hb with
    | archived hw hw' hn hl hs =>
      cases (liveHot_iff.2 ⟨_, hk, hl⟩).symm.trans (hlive hs)
    | cold hw hw' hn hl hv =>
      refine .cold hw ⟨hsame.bucketEndAt.trans hw'.bucketEndAt, hsame.isDelete.trans hw'.isDelete,
        ?_⟩ (hsame.eventCount.trans hn) hl ?_
      · rw [hsame.verifiedAt, hsame.checksum, hw'.checksum]
      · rw [hsame.verifiedAt, hv]

theorem Inv.perform (hc : c.Inv) (op : Op) : (c.perform op).Inv := by
  cases op with
  | hotIngest k =>
    simp only [Catalog.perform]
    rcases hg : hotIngestGuard k c with _ | g
    · exact hc
    · exact hc.applyGuard hg
  | record k path n size checksum t =>
    simp only [Catalog.perform]
    rcases hg : c.archiveGuard k with _ | h
    · exact hc
    · obtain ⟨hk, hl⟩ := archiveGuard_eq_some.1 hg
      exact hc.recordVerifiedArchive hk hl path n size checksum t
  | claimPartitionDeletion d t => exact hc.claimPartitionDeletion d t
  | markPartitionDeleted d t => exact hc.markPartitionDeleted d t
  | requestRestore | markRestored | markRestoreFailed | expireRestores =>
    exact hc.restoreStep (perform_isRestore rfl)

theorem inv_of_reachable (h : catalogSystem.Reachable System.always c) : c.Inv :=
  h.invariant Inv.empty fun _ op _ _ hc _ hn => by
    cases hn
    exact hc.perform op

/-! ## What the operations leave alone -/

theorem frozen_congr (h : ∀ k, c'.hot.get? k = c.hot.get? k) : c'.frozen d = c.frozen d := by
  rw [Bool.eq_iff_iff, frozen_iff, frozen_iff]
  simp [h]

theorem frozen_of_map {f : BucketKey → HotRow → HotRow}
    (h : ∀ k, c'.hot.get? k = (c.hot.get? k).map (f k))
    (hf : ∀ k h, c.hot.get? k = some h → k.bucketStartAt = d →
      ((f k h).isDelete = true ∨ (f k h).partitionDeletedAt.isSome = true ↔
        h.isDelete = true ∨ h.partitionDeletedAt.isSome = true)) : c'.frozen d = c.frozen d := by
  rw [Bool.eq_iff_iff, frozen_iff, frozen_iff]
  simp only [h, map_eq_some_iff]
  constructor
  · rintro ⟨k, _, ⟨r, hr, rfl⟩, hd, hx⟩
    exact ⟨k, r, hr, hd, (hf k r hr hd).1 hx⟩
  · rintro ⟨k, r, hr, hd, hx⟩
    exact ⟨k, _, ⟨r, hr, rfl⟩, hd, (hf k r hr hd).2 hx⟩

theorem frozen_applyGuard (g : GuardWrites) : (c.applyGuard g).frozen d = c.frozen d := by
  rw [Bool.eq_iff_iff, frozen_iff, frozen_iff]
  refine exists_congr fun k => ?_
  rw [hot_applyGuard]
  split_ifs
  · rcases c.hot.get? k with _ | h
    · simp [newHotRow]
    · simp
  · rfl

theorem frozen_recordVerifiedArchive (a : VerifiedArchive) :
    (c.recordVerifiedArchive a).frozen d = c.frozen d := by
  refine frozen_of_map (hot_recordVerifiedArchive a) fun k h _ _ => ?_
  split_ifs <;> rfl

theorem frozen_markPartitionDeleted (d' : Day) (t : Time) :
    (c.markPartitionDeleted d' t).frozen d = c.frozen d := by
  refine frozen_of_map (hot_markPartitionDeleted d' t) fun k h _ _ => ?_
  split_ifs with hc
  · simp [hc.2.1]
  · rfl

theorem frozen_claimPartitionDeletion {d' : Day} (hd : d' ≠ d) (t : Time) :
    (c.claimPartitionDeletion d' t).2.frozen d = c.frozen d := by
  rcases claimPartitionDeletion_cases d' t c with h | ⟨-, h⟩ | ⟨-, -, c', h, -, -, hh⟩
  · rw [h]
  · rw [h]
  · rw [h]
    refine frozen_of_map hh fun k r _ hk => ?_
    rw [if_neg fun hx => hd (hx.1.symm.trans hk)]

theorem hot_perform (hk : c.hot.get? k = some h) (op : Op) :
    ∃ h', (c.perform op).hot.get? k = some h' ∧ (h.isDelete = true → h'.isDelete = true) ∧
      (h.partitionDeletedAt.isSome = true → h'.partitionDeletedAt.isSome = true) := by
  have hrest (ho : op.isRestore = true) : ∃ h', (c.perform op).hot.get? k = some h' ∧
      (h.isDelete = true → h'.isDelete = true) ∧
      (h.partitionDeletedAt.isSome = true → h'.partitionDeletedAt.isSome = true) :=
    ⟨h, by rw [(perform_isRestore ho).hot, hk], id, id⟩
  cases op with
  | hotIngest k' =>
    simp only [perform]
    split
    · refine ⟨h, ?_, id, id⟩
      rw [hot_applyGuard, hk, getD_some, ite_self]
    · exact ⟨h, hk, id, id⟩
  | record k' path n size checksum t =>
    simp only [perform]
    split
    · rw [hot_recordVerifiedArchive, hk]
      refine ⟨_, rfl, ?_⟩
      dsimp only
      split_ifs <;> exact ⟨id, id⟩
    · exact ⟨h, hk, id, id⟩
  | claimPartitionDeletion d t =>
    simp only [perform]
    rcases claimPartitionDeletion_cases d t c with hc | ⟨-, hc⟩ | ⟨-, -, c', hc, -, -, hh⟩
    · exact ⟨h, by rw [hc, hk], id, id⟩
    · exact ⟨h, by rw [hc, hk], id, id⟩
    · rw [hc, hh, hk]
      refine ⟨_, rfl, ?_⟩
      dsimp only
      split_ifs
      · exact ⟨fun _ => rfl, id⟩
      · exact ⟨id, id⟩
  | markPartitionDeleted d t =>
    simp only [perform, hot_markPartitionDeleted, hk]
    refine ⟨_, rfl, ?_⟩
    dsimp only
    split_ifs
    · exact ⟨id, fun _ => rfl⟩
    · exact ⟨id, id⟩
  | requestRestore | markRestored | markRestoreFailed | expireRestores => exact hrest rfl

theorem frozen_perform (h : c.frozen d = true) (op : Op) : (c.perform op).frozen d = true := by
  obtain ⟨k, r, hk, hd, hx⟩ := frozen_iff.1 h
  obtain ⟨r', hk', h₁, h₂⟩ := hot_perform hk op
  exact frozen_iff.2 ⟨k, r', hk', hd, hx.imp h₁ h₂⟩

theorem frozen_of_claim {t : Time} (h : c.claimPartitionDeletion d t = (true, c')) :
    c'.frozen d = true := by
  rcases claimPartitionDeletion_cases d t c with hc | ⟨hp, hc⟩ | ⟨-, hl, c'', hc, -, -, hh⟩
  · cases hc.symm.trans h
  · cases hc.symm.trans h
    obtain ⟨k, r, hk, hd, hx, -⟩ := deletionPending_iff.1 hp
    exact frozen_iff.2 ⟨k, r, hk, hd, .inl hx⟩
  · cases hc.symm.trans h
    obtain ⟨k, r, hk, hd⟩ := Table.any_iff.1 hl
    simp only [Bool.and_eq_true, decide_eq_true_eq, Bool.not_eq_true'] at hd
    refine frozen_iff.2 ⟨k, { r with isDelete := true }, ?_, hd.1, .inl rfl⟩
    rw [hh, hk, map_some, if_pos hd]

/-! ## The life cycle of the restores -/

def statusOf (c : Catalog) (k : BucketKey) : Option ArchiveStatus :=
  (c.archive.get? k).map (·.storageStatus)

/-- What a step does to the status of a bucket: it keeps it, an archive is recorded for the
    first time, or the status moves. -/
inductive StatusStep : Option ArchiveStatus → Option ArchiveStatus → Prop
  | same (s : Option ArchiveStatus) : StatusStep s s
  | new : StatusStep none (some .archived)
  | move {s s' : ArchiveStatus} : s.Moves s' → StatusStep (some s) (some s')

/-- Does the status of the bucket get to `RESTORE_REQUESTED` by this step? -/
def entersRestore (k : BucketKey) (c c' : Catalog) : Bool :=
  c.statusOf k != some .restoreRequested && c'.statusOf k == some .restoreRequested

/-- The number of times that the status of the bucket gets to `RESTORE_REQUESTED` in a run. -/
def restoreTransitions (k : BucketKey) (c : Catalog) : List Op → Nat
  | [] => 0
  | op :: ops => (entersRestore k c (c.perform op)).toNat + restoreTransitions k (c.perform op) ops

def auditCount (c : Catalog) (k : BucketKey) : Nat :=
  c.auditLogs.countP fun a => decide (a.resourceId = k)

theorem StatusStep.of_map {p : ArchiveRow → Prop} [DecidablePred p] {o : Option ArchiveRow}
    (h : ∀ r, o = some r → p r → r.storageStatus.Moves (f r).storageStatus) :
    StatusStep (o.map (·.storageStatus))
      ((o.map fun r => if p r then f r else r).map (·.storageStatus)) := by
  rcases o with _ | r
  · exact .same none
  · by_cases hp : p r
    · simpa [hp] using StatusStep.move (h r rfl hp)
    · simpa [hp] using StatusStep.same (some r.storageStatus)

theorem statusOf_applyGuard (g : GuardWrites) : (c.applyGuard g).statusOf k = c.statusOf k := by
  rw [statusOf, statusOf, archive_applyGuard]
  split_ifs
  · cases c.archive.get? k <;> rfl
  · rfl

/-- Recording an archive makes a first row `ARCHIVED`, and moves the status of no other:
    a bucket that is recorded is live. -/
theorem Inv.statusOf_record (hc : c.Inv) (k k' : BucketKey) (path : ObjectKey) (n size : Nat)
    (checksum : String) (t : Time) :
    c.statusOf k' = none ∧
      (c.perform (.record k path n size checksum t)).statusOf k' = some .archived ∨
    (c.perform (.record k path n size checksum t)).statusOf k' = c.statusOf k' := by
  simp only [Catalog.perform]
  rcases hg : c.archiveGuard k with _ | h
  · exact .inr rfl
  · obtain ⟨hk, hl⟩ := archiveGuard_eq_some.1 hg
    simp only [statusOf, archive_recordVerifiedArchive]
    split_ifs with hkk
    · subst hkk
      rcases hr : c.archive.get? k' with _ | r
      · exact .inl ⟨rfl, rfl⟩
      · exact .inr (congrArg some (hc.archived_of_live hk hl hr).symm)
    · exact .inr rfl

theorem Inv.statusStep (hc : c.Inv) (op : Op) (k : BucketKey) :
    StatusStep (c.statusOf k) ((c.perform op).statusOf k) := by
  cases op with
  | hotIngest k' =>
    simp only [Catalog.perform]
    split
    · rw [statusOf_applyGuard]
      exact .same _
    · exact .same _
  | record k' path n size checksum t =>
    rcases hc.statusOf_record k' k path n size checksum t with ⟨h, h'⟩ | h
    · rw [h, h']
      exact .new
    · rw [h]
      exact .same _
  | claimPartitionDeletion d t =>
    simp only [Catalog.perform, statusOf, archive_claimPartitionDeletion]
    exact .same _
  | markPartitionDeleted d t => exact .same _
  | requestRestore k' actor request t =>
    simp only [Catalog.perform]
    rcases requestRestore_cases k' actor request t c with h | ⟨r, hr, hres, c', h, -, -, ha⟩
    · rw [h]
      exact .same _
    · rw [h, statusOf, statusOf, ha]
      refine .of_map fun r' hr' hk => ?_
      subst hk
      cases hr.symm.trans hr'
      simp only [restorable, Bool.and_eq_true] at hres
      cases hs : r.storageStatus
      · exact .request_archived
      · simp [hs, ArchiveStatus.restorable] at hres
      · simp [hs, ArchiveStatus.restorable] at hres
      · exact .request_failed
      · exact .request_expired
  | markRestored k' t e =>
    simp only [Catalog.perform, statusOf, archive_markRestored]
    refine .of_map fun r hr h => ?_
    rw [(restoreAwaited_iff.1 h.2).1]
    exact .complete
  | markRestoreFailed k' error =>
    simp only [Catalog.perform, statusOf, archive_markRestoreFailed]
    refine .of_map fun r hr h => ?_
    rw [(restoreAwaited_iff.1 h.2).1]
    exact .fail
  | expireRestores now =>
    simp only [Catalog.perform, statusOf, archive_expireRestores]
    refine .of_map fun r hr h => ?_
    rw [restoreExpired_status h]
    exact .expire

theorem entersRestore_eq_false {k : BucketKey}
    (h : c'.statusOf k = some .restoreRequested → c.statusOf k = some .restoreRequested) :
    entersRestore k c c' = false := by
  simp only [entersRestore, Bool.and_eq_false_iff, bne_eq_false_iff_eq, beq_eq_false_iff_ne]
  by_cases hs : c'.statusOf k = some .restoreRequested
  · exact .inl (h hs)
  · exact .inr hs

theorem statusOf_eq_of_map {p : ArchiveRow → Prop} [DecidablePred p] {s : ArchiveStatus}
    (hf : ∀ r, p r → (f r).storageStatus ≠ s)
    (ha : c'.archive.get? k = (c.archive.get? k).map fun r => if p r then f r else r)
    (h : c'.statusOf k = some s) : c.statusOf k = some s := by
  rw [statusOf, ha] at h
  rcases hr : c.archive.get? k with _ | r
  · rw [hr] at h
    cases h
  · simp only [hr, map_some, Option.some.injEq] at h
    split_ifs at h with hp
    · exact absurd h (hf r hp)
    · rw [statusOf, hr, map_some, h]

theorem Inv.frozen_of_status (hc : c.Inv) {s : ArchiveStatus} (h : c.statusOf k = some s)
    (hs : s ≠ .archived) : c.frozen k.bucketStartAt = true := by
  obtain ⟨r, hr, rfl⟩ := map_eq_some_iff.1 h
  obtain ⟨hot, hhot, -⟩ := hc.hot_of_archive hr
  rw [← hc.isDelete_eq_frozen hhot, ← Bool.not_eq_false]
  exact fun hl => hs (hc.archived_of_live hhot hl hr)

theorem Inv.restored_perform (hc : c.Inv) {op : Op} {k : BucketKey}
    (h : (c.perform op).statusOf k = some .restored) :
    c.statusOf k = some .restored ∨ ∃ t e, op = .markRestored k t e := by
  cases op with
  | record k' path n size checksum t =>
    grind [hc.statusOf_record k' k path n size checksum t]
  | requestRestore k' actor request t =>
    rcases requestRestore_cases k' actor request t c with he | ⟨r, -, -, c', he, -, -, ha⟩
    · grind [Catalog.perform]
    · rw [Catalog.perform, he] at h
      exact .inl (statusOf_eq_of_map (fun _ _ => by simp [requestedRow]) (ha k) h)
  | markRestored k' t e =>
    by_cases hk : k = k'
    · exact .inr ⟨t, e, hk ▸ rfl⟩
    · exact .inl (statusOf_eq_of_map (fun _ hp => absurd hp.1 hk) (archive_markRestored k' t e k) h)
  | markRestoreFailed k' error =>
    exact .inl
      (statusOf_eq_of_map (fun _ _ => by simp [failedRow]) (archive_markRestoreFailed k' error k) h)
  | expireRestores now =>
    exact .inl (statusOf_eq_of_map (fun _ _ => by simp) (archive_expireRestores now k) h)
  | _ =>
    grind [Catalog.perform, statusOf_applyGuard, statusOf, archive_claimPartitionDeletion,
      Catalog.markPartitionDeleted]

theorem Inv.auditCount_perform (hc : c.Inv) (op : Op) (k : BucketKey) :
    (c.perform op).auditCount k =
      c.auditCount k + (entersRestore k c (c.perform op)).toNat := by
  -- Only `requestRestore` writes audit rows, and only it requests restores.
  have key (ha : (c.perform op).auditLogs = c.auditLogs)
      (h : (c.perform op).statusOf k = some .restoreRequested →
        c.statusOf k = some .restoreRequested) :
      (c.perform op).auditCount k =
        c.auditCount k + (entersRestore k c (c.perform op)).toNat := by
    rw [entersRestore_eq_false h, auditCount, ha]
    rfl
  cases op with
  | hotIngest k' =>
    refine key ?_ ?_
    · simp only [Catalog.perform]
      split <;> rfl
    · simp only [Catalog.perform]
      split
      · rw [statusOf_applyGuard]
        exact id
      · exact id
  | record k' path n size checksum t =>
    refine key ?_ fun h => ?_
    · simp only [Catalog.perform]
      split <;> rfl
    · rcases hc.statusOf_record k' k path n size checksum t with ⟨-, h'⟩ | h'
      · rw [h'] at h
        cases h
      · rwa [← h']
  | claimPartitionDeletion d t =>
    have hlogs : (c.claimPartitionDeletion d t).2.auditLogs = c.auditLogs := by
      rcases claimPartitionDeletion_cases d t c with h | ⟨-, h⟩ | ⟨-, -, c', h, -, hl, -⟩
      · rw [h]
      · rw [h]
      · rw [h, hl]
    refine key hlogs ?_
    simp only [Catalog.perform, statusOf, archive_claimPartitionDeletion]
    exact id
  | markPartitionDeleted d t => exact key rfl id
  | requestRestore k' actor request t =>
    rcases requestRestore_cases k' actor request t c with h | ⟨r, hr, hres, c', h, -, hl, ha⟩
    · refine key ?_ ?_ <;> simp [Catalog.perform, h]
    · simp only [Catalog.perform, h]
      by_cases hk : k = k'
      · -- The bucket of the request: it was not requested, and now is.
        subst hk
        have hs : c.statusOf k ≠ some .restoreRequested := by
          simp only [statusOf, hr, map_some, ne_eq, Option.some.injEq]
          intro hs
          simp [restorable, hs, ArchiveStatus.restorable] at hres
        have hs' : c'.statusOf k = some .restoreRequested := by
          simp [statusOf, ha, hr, requestedRow]
        have he : entersRestore k c c' = true := by
          rw [entersRestore, Bool.and_eq_true, bne_iff_ne, beq_iff_eq]
          exact ⟨hs, hs'⟩
        simp [auditCount, hl, he]
      · have hs : c'.statusOf k = c.statusOf k := by
          simp [statusOf, ha, hk]
        rw [entersRestore_eq_false (by rw [hs]; exact id)]
        simp [auditCount, hl, Ne.symm hk]
  | markRestored k' t e =>
    exact key rfl
      (statusOf_eq_of_map (fun _ _ => by simp [restoredRow]) (archive_markRestored k' t e k))
  | markRestoreFailed k' error =>
    exact key rfl
      (statusOf_eq_of_map (fun _ _ => by simp [failedRow]) (archive_markRestoreFailed k' error k))
  | expireRestores now =>
    exact key rfl (statusOf_eq_of_map (fun _ _ => by simp) (archive_expireRestores now k))

theorem auditCount_run {ops : List Op} (hc : c.Inv) (h : catalogSystem.run c ops = some c')
    (k : BucketKey) : c'.auditCount k = c.auditCount k + restoreTransitions k c ops := by
  induction ops generalizing c with
  | nil =>
    cases h
    rfl
  | cons op ops ih =>
    rw [ih (hc.perform op) h, hc.auditCount_perform, restoreTransitions, Nat.add_assoc]

/-- The life cycle of the restores, over every run of the catalog. A live `HOT` row and an S3
    row that has left `ARCHIVED` do not coexist. A further operation creates a status as
    `ARCHIVED`, keeps it, or moves it; one that records an archive keeps every status but
    `ARCHIVED`. And there are as many audit rows as there were restore requests. -/
theorem restore_lifecycle {ops : List Op} (h : catalogSystem.run .empty ops = some c) :
    (∀ k, ¬∃ hot r, c.hot.get? k = some hot ∧ hot.isDelete = false ∧
      c.archive.get? k = some r ∧ r.storageStatus ≠ .archived) ∧
    (∀ op c', catalogSystem.next c op = some c' → ∀ k, StatusStep (c.statusOf k) (c'.statusOf k)) ∧
    (∀ k path n size checksum t c',
      catalogSystem.next c (.record k path n size checksum t) = some c' →
      ∀ k' s, c.statusOf k' = some s → s ≠ .archived → c'.statusOf k' = some s) ∧
    ∀ k, c.auditCount k = restoreTransitions k .empty ops := by
  have hc : c.Inv := inv_of_reachable (System.reachable_of_run h)
  refine ⟨fun k => ?_, fun op c' hn k => ?_, fun k path n size checksum t c' hn k' s hs _ => ?_,
    fun k => ?_⟩
  · rintro ⟨hot, r, hk, hl, hr, hs⟩
    exact hs (hc.archived_of_live hk hl hr)
  · cases hn
    exact hc.statusStep op k
  · cases hn
    rcases hc.statusOf_record k k' path n size checksum t with ⟨h', -⟩ | h'
    · rw [h'] at hs
      cases hs
    · rw [h', hs]
  · simpa [auditCount, empty] using auditCount_run Inv.empty h k

def restoredTwice : List Op := [
  .hotIngest ⟨7, 20000⟩,
  .record ⟨7, 20000⟩ ⟨20000, 7⟩ 3 512 "checksum" (dayStart 20001),
  .claimPartitionDeletion 20000 (dayStart 20001),
  .requestRestore ⟨7, 20000⟩ "analyst" "request-1" (dayStart 20010),
  .markRestored ⟨7, 20000⟩ (dayStart 20011) (dayStart 20012),
  .expireRestores (dayStart 20013),
  .requestRestore ⟨7, 20000⟩ "analyst" "request-2" (dayStart 20014)]

theorem restore_lifecycle_restoredTwice :
    ∃ c, catalogSystem.run .empty restoredTwice = some c ∧
      c.statusOf ⟨7, 20000⟩ = some .restoreRequested ∧ c.auditCount ⟨7, 20000⟩ = 2 :=
  have h : catalogSystem.run .empty restoredTwice = some _ := rfl
  ⟨_, h, by decide, ((restore_lifecycle h).2.2.2 ⟨7, 20000⟩).trans (by decide)⟩

end Catalog

end Edr
