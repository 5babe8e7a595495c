import Edr.Lib.Lock
import Edr.Pipeline

/-!
# The guards, and the catalog of the system

A guard reads the catalog, and its writes are seen only when its transaction commits. What it
has read is still so by then (`GuardInv`): whoever could change the rows of its bucket, or freeze
its day, waits for the lock that it holds. A transaction that commits is therefore one
transaction of the catalog, at the time of its commit (`Step.catalog_cases`), and the catalog of
the system meets the invariant of `Edr.Catalog.Run`.
-/

namespace Edr

open Catalog

namespace Catalog

variable {c c' : Catalog} {k : BucketKey}

/-- What a guard reads: whether the day is frozen, the `HOT` row of the bucket, and whether its
    archive is verified. -/
theorem hotIngestGuard_congr (hf : c'.frozen k.bucketStartAt = c.frozen k.bucketStartAt)
    (hh : c'.hot.get? k = c.hot.get? k)
    (ha : ((c'.archive.get? k).any fun r => r.archiveVerifiedAt.isSome && !r.isDelete) =
      (c.archive.get? k).any fun r => r.archiveVerifiedAt.isSome && !r.isDelete) :
    hotIngestGuard k c' = hotIngestGuard k c := by
  simp [hotIngestGuard, hf, hh, ha]

theorem hotIngestGuard_isRestore {op : Op} (h : op.isRestore = true) :
    hotIngestGuard k (c.perform op) = hotIngestGuard k c := by
  obtain ⟨hh, ha⟩ := perform_isRestore h
  refine hotIngestGuard_congr (frozen_congr fun k => by rw [hh]) (by rw [hh]) ?_
  rcases ha k with he | ⟨r, r', h₁, h₂, hr, -⟩
  · rw [he]
  · rw [h₁, h₂, Option.any_some, Option.any_some, hr.verifiedAt, hr.isDelete]

theorem hotIngestGuard_applyGuard {g : GuardWrites} (hk : k ≠ g.key) :
    hotIngestGuard k (c.applyGuard g) = hotIngestGuard k c := by
  refine hotIngestGuard_congr (frozen_applyGuard g) ?_ ?_
  · rw [hot_applyGuard, if_neg fun h => hk h.2]
  · rw [archive_applyGuard, if_neg fun h => hk h.2]

theorem hotIngestGuard_recordVerifiedArchive {a : VerifiedArchive} (hk : k ≠ a.key) :
    hotIngestGuard k (c.recordVerifiedArchive a) = hotIngestGuard k c := by
  refine hotIngestGuard_congr (frozen_recordVerifiedArchive a) ?_ ?_
  · rw [hot_recordVerifiedArchive]
    simp [hk]
  · rw [archive_recordVerifiedArchive, if_neg hk]

theorem hotIngestGuard_claimPartitionDeletion {d : Day} (hd : k.bucketStartAt ≠ d) (t : Time) :
    hotIngestGuard k (c.claimPartitionDeletion d t).2 = hotIngestGuard k c := by
  refine hotIngestGuard_congr (frozen_claimPartitionDeletion (.symm hd) t) ?_ ?_
  all_goals rcases claimPartitionDeletion_cases d t c with h | ⟨-, h⟩ | ⟨-, -, c', h, ha, -, hh⟩
  · rw [h]
  · rw [h]
  · rw [h, hh]
    simp [hd]
  · rw [h]
  · rw [h]
  · rw [h, ha]

theorem hotIngestGuard_markPartitionDeleted {g : GuardWrites} (hg : hotIngestGuard k c = .ok g)
    (d : Day) (t : Time) : hotIngestGuard k (c.markPartitionDeleted d t) = .ok g := by
  rw [← hg]
  refine hotIngestGuard_congr (frozen_markPartitionDeleted d t) ?_ rfl
  rw [hot_markPartitionDeleted]
  rcases hk : c.hot.get? k with _ | h
  · rfl
  · simp [(hotIngestGuard_eq_ok.1 hg).2.1 h hk]

end Catalog

namespace Pipeline

variable {W L : Type*}

def GuardOk (c : Catalog) : WorkerState → Prop
  | .guarded r g | .inserted r g => hotIngestGuard r.bucketKey c = .ok g
  | .idle | .decoded _ | .claimed _ _ | .absent _ | .ready _ _ | .committed _ => True

structure GuardInv (s : State W L) : Prop where
  worker : ∀ w, GuardOk s.catalog (s.worker w)
  exclusive : Exclusive WorkerState.held s.worker
  catalog : catalogSystem.Reachable System.always s.catalog

theorem GuardOk.mono {c c' : Catalog} {ws : WorkerState} (h : GuardOk c ws)
    (hc : ∀ k g, ws.held = some k → hotIngestGuard k c = .ok g →
      hotIngestGuard k c' = .ok g) : GuardOk c' ws := by
  cases ws with
  | guarded r g => exact hc _ _ rfl h
  | inserted r g => exact hc _ _ rfl h
  | idle | decoded | claimed | absent | ready | committed => trivial

theorem GuardInv.inv {s : State W L} (h : GuardInv s) : s.catalog.Inv :=
  inv_of_reachable h.catalog

theorem GuardInv.not_frozen {s : State W L} (h : GuardInv s) {w : W} {r : EventRecord}
    {g : Catalog.GuardWrites} (hw : s.worker w = .guarded r g ∨ s.worker w = .inserted r g) :
    s.catalog.frozen r.day = false := by
  have hok := h.worker w
  rcases hw with hw | hw <;> rw [hw] at hok <;> exact (hotIngestGuard_eq_ok.1 hok).1

theorem GuardInv.mono {s t : State W L} (h : GuardInv s) (hworker : t.worker = s.worker)
    (hcat : catalogSystem.Reachable System.always t.catalog)
    (hg : ∀ w k g, (s.worker w).held = some k → hotIngestGuard k s.catalog = .ok g →
      hotIngestGuard k t.catalog = .ok g) : GuardInv t where
  worker w := hworker ▸ (h.worker w).mono (hg w)
  exclusive := hworker ▸ h.exclusive
  catalog := hcat

variable [DecidableEq W] {s t : State W L} {w : W} {ws : WorkerState}

theorem GuardInv.update (h : GuardInv s) (hworker : t.worker = Function.update s.worker w ws)
    (hcat : catalogSystem.Reachable System.always t.catalog)
    (hok : GuardOk t.catalog ws)
    (hheld : ∀ k, ws.held = some k → ∀ w', w' ≠ w → (s.worker w').held ≠ some k)
    (hg : ∀ w' k g, w' ≠ w → (s.worker w').held = some k →
      hotIngestGuard k s.catalog = .ok g → hotIngestGuard k t.catalog = .ok g) :
    GuardInv t where
  worker := by
    rw [hworker, Function.forall_update_iff s.worker fun _ ws => GuardOk t.catalog ws]
    exact ⟨hok, fun w' hw' => (h.worker w').mono fun k g => hg w' k g hw'⟩
  exclusive := hworker ▸ h.exclusive.update hheld
  catalog := hcat

theorem GuardInv.update_free (h : GuardInv s) (hcat : t.catalog = s.catalog)
    (hworker : t.worker = Function.update s.worker w ws) (hfree : ws.held = none) :
    GuardInv t := by
  refine h.update hworker (hcat ▸ h.catalog) ?_ (fun k hk => ?_) fun _ _ _ _ _ hg => hcat ▸ hg
  · cases ws with
    | guarded | inserted => cases hfree
    | idle | decoded | claimed | absent | ready | committed => trivial
  · rw [hfree] at hk
    cases hk

variable [Fintype W] [DecidableEq L] {cfg : Config} {a : Label W L}

omit [Fintype W] in
/-- A step is at most one transaction of the catalog, and one about a restore only as a step of
    its own. The writes of a guard are those that the guard would make at the commit. -/
theorem Step.catalog_cases (hstep : Step cfg s a t) (h : ∀ w, GuardOk s.catalog (s.worker w)) :
    t.catalog = s.catalog ∨
      ∃ op, t.catalog = s.catalog.perform op ∧ (op.isRestore = true → a = .restore op) := by
  cases hstep with
  | @commit w r g hw =>
    have hg := h w
    rw [hw] at hg
    refine .inr ⟨.hotIngest r.bucketKey, ?_, fun h => by cases h⟩
    rw [perform, hg]
  | @record l now b o todo hot _ _ hhot _ =>
    refine .inr ⟨.record b.key b.uploadPath o.eventCount (o.sizeBytes cfg.format)
      (o.checksum cfg.format) now, ?_, fun h => by cases h⟩
    rw [perform, hhot]
  | @claimDeletion l now d days c _ _ hc =>
    refine .inr ⟨.claimPartitionDeletion d (now - archiveSafetyWindow), ?_, fun h => by cases h⟩
    rw [perform, hc]
  | @mark l now d days _ => exact .inr ⟨.markPartitionDeleted d now, rfl, fun h => by cases h⟩
  | @restore op _ => exact .inr ⟨op, rfl, fun _ => rfl⟩
  | work | insert | commitReady | publish | sweep | put | recordStale | claimRefused | drop =>
    exact .inl rfl

omit [DecidableEq W] [Fintype W] [DecidableEq L] in
theorem GuardInv.initial : GuardInv (initial : State W L) where
  worker _ := trivial
  exclusive _ _ _ h := by cases h
  catalog := .init

omit [Fintype W] in
theorem GuardInv.step (h : GuardInv s) (hstep : Step cfg s a t) : GuardInv t := by
  have hcat : catalogSystem.Reachable System.always t.catalog := by
    rcases hstep.catalog_cases h.worker with he | ⟨op, he, -⟩
    · exact he ▸ h.catalog
    · exact he ▸ h.catalog.step trivial rfl
  cases hstep with
  | @work w mv ws hw =>
    generalize hw₀ : s.worker w = ws₀ at hw
    cases hw with
    | guard ho hg =>
      refine h.update rfl hcat hg (fun k hk => ?_) fun _ _ _ _ _ hg => hg
      cases hk
      exact ho
    | receive | create | reclaim | absent | preexisting | registered | fail | abort =>
      exact h.update_free rfl rfl rfl
  | @insert w r g hw =>
    have hg := h.worker w
    rw [hw] at hg
    refine h.update rfl hcat hg (fun k hk => ?_) fun _ _ _ _ _ hg => hg
    cases hk
    exact h.exclusive.others_ne (by rw [hw]; rfl)
  | @commit w r g hw =>
    have hg := h.worker w
    rw [hw] at hg
    have hkey : g.key = r.bucketKey := by rw [(hotIngestGuard_eq_ok.1 hg).2.2]
    refine h.update rfl hcat trivial nofun fun w' k g' hw' hk hg' => ?_
    refine (hotIngestGuard_applyGuard ?_).trans hg'
    rw [hkey]
    rintro rfl
    exact h.exclusive.others_ne (by rw [hw]; rfl) w' hw' hk
  | commitReady _ => exact h.update_free rfl rfl rfl
  | publish _ => exact h.update_free rfl rfl rfl
  | record _ hlock _ _ =>
    refine h.mono rfl hcat fun w k g hk hg => ?_
    refine (hotIngestGuard_recordVerifiedArchive ?_).trans hg
    rintro rfl
    exact hlock w _ hk rfl
  | @claimDeletion l now d days c _ hlock hc =>
    refine h.mono rfl hcat fun w k g hk hg => ?_
    have hk := hotIngestGuard_claimPartitionDeletion (c := s.catalog) (hlock w k hk)
      (now - archiveSafetyWindow)
    rw [hc] at hk
    exact hk.trans hg
  | @mark l now d days _ =>
    exact h.mono rfl hcat fun _ _ _ _ hg =>
      hotIngestGuard_markPartitionDeleted hg d now
  | restore ho =>
    exact h.mono rfl hcat fun _ _ _ _ hg => (hotIngestGuard_isRestore ho).trans hg
  | sweep _ | put _ | recordStale _ | claimRefused _ | drop _ =>
    exact ⟨h.worker, h.exclusive, h.catalog⟩

theorem guardInv_of_reachable {P : State W L → Label W L → Prop}
    (h : (pipeline cfg).Reachable P s) : GuardInv s :=
  h.invariant .initial fun _ _ _ _ hs _ hn => hs.step (next_cases hn)

end Pipeline

end Edr
