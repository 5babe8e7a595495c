import Edr.Pipeline.Ingest

/-!
# Dropping a partition is safe

One lifecycle worker repeats its sweeps, and the transaction of a storage worker commits if and
only if its insert took effect (`CommitAtomic`). Then a partition is dropped only when every event
ever stored in it is a row of a verified archive, and nothing is inserted into it afterwards.
-/

namespace Edr

open List Function Catalog Bool

namespace Catalog

variable {c : Catalog}

theorem archiveCandidates_nodup (now : Time) (n : Nat) :
    ((c.archiveCandidates now n).map (·.key)).Nodup := by
  simp only [archiveCandidates, map_map]
  have hperm := perm_insertionSort (fun x y : BucketKey × HotRow => BucketLe x.1 y.1)
    (c.hot.select fun k r =>
      !r.isDelete && decide (r.bucketEndAt ≤ now) && c.needsArchive k r)
  have hnodup := (hperm.map Prod.fst).nodup_iff.2 (Table.select_nodup _ c.hot)
  exact hnodup.sublist ((take_sublist n _).map Prod.fst)

theorem Inv.verified_candidate (hc : c.Inv) {now : Time} {n : Nat} {b : ArchiveCandidate}
    (hb : b ∈ c.archiveCandidates now n) : c.verified b.key = false := by
  simp only [archiveCandidates, mem_map] at hb
  obtain ⟨⟨k, hot⟩, hx, rfl⟩ := hb
  have hx := (perm_insertionSort _ _).mem_iff.1 (mem_of_mem_take hx)
  obtain ⟨hhot, hx⟩ := Table.mem_select.1 hx
  simp only [Bool.and_eq_true] at hx
  have hneeds := hx.2
  rw [verified]
  rcases hr : c.archive.get? k with _ | r
  · rfl
  · -- The counts agree, and a verified row has a checksum.
    have hw := hc.archive_wellFormed hr
    obtain ⟨hot', hhot', hn⟩ := hc.hot_of_archive hr
    cases hhot.symm.trans hhot'
    simp only [needsArchive, hr, Option.filter_some, hw.isDelete, Bool.not_false, if_true, hn,
      bne_self_eq_false, Bool.or_false] at hneeds
    rw [Option.any_some]
    have hcs := hw.checksum
    cases hv : r.archiveVerifiedAt <;> cases hs : r.checksumSha256 <;> simp_all

end Catalog

namespace Pipeline

variable {W L : Type*} [Fintype W] [DecidableEq W] [DecidableEq L] {cfg : Config}
  {s t : State W L} {a : Label W L}

def commitAtomic (s : State W L) : Label W L → Bool
  | .work w .abort =>
    match s.worker w with
    | .inserted _ _ => false
    | _ => true
  | _ => true

def CommitAtomic (s : State W L) (a : Label W L) : Prop := commitAtomic s a = true

instance (s : State W L) (a : Label W L) : Decidable (CommitAtomic s a) :=
  inferInstanceAs (Decidable (commitAtomic s a = true))

/-! ## A single sweep -/

def SweepInv (s : State W L) : Prop :=
  ∀ l, ((s.sweep l).candidates.map (·.key)).Nodup ∧
    ∀ b ∈ (s.sweep l).candidates, s.catalog.verified b.key = false

omit [Fintype W] in
theorem Step.verified_mono (hstep : Step cfg s a t) {k : BucketKey}
    (hk : s.catalog.verified k = false)
    (hl : ∀ l, (s.sweep l).headedKey = some k → a ≠ .record l) :
    t.catalog.verified k = false := by
  rw [← not_eq_true, verified, Option.any_eq_true]
  rintro ⟨r', hr', hv⟩
  rcases hstep.archive_row hr' with ⟨r, hr, hs⟩ | ⟨r, -, rfl⟩ |
    ⟨l, now, b, o, todo, hot, rfl, hl', rfl, -, -, -⟩
  · rw [verified, hr, Option.any_some, ← hs.verifiedAt, hv] at hk
    cases hk
  · cases hv
  · exact hl l (by rw [hl']; rfl) rfl

omit [Fintype W] [DecidableEq W] [DecidableEq L] in
theorem SweepStep.candidates_sublist {sw sw' : Sweep} {mv : SweepMove}
    (h : SweepStep cfg s sw mv sw') : sw'.candidates.Sublist sw.candidates ∨
      ∃ now, sw'.candidates =
        s.catalog.archiveCandidates (dayStart (dateOf now)) cfg.candidateLimit := by
  cases h with
  | begin => exact .inr ⟨_, rfl⟩
  | beginDelete | skipDay | crash => exact .inl (nil_sublist _)
  | count | exportRows | head => exact .inl (.refl _)
  | empty | skipCounted | skipExported | skipUploaded | skipHeaded =>
    exact .inl (sublist_cons_self _ _)

omit [Fintype W] in
theorem SweepInv.step [Subsingleton L] (h : SweepInv s) (hg : GuardInv s)
    (hstep : Step cfg s a t) : SweepInv t := by
  -- Fewer buckets in hand, none of which is recorded in this step.
  have hsub {l : L} {sw : Sweep} (hsw : sw.candidates.Sublist (s.sweep l).candidates)
      (hrec : ∀ b ∈ sw.candidates, ∀ l', (s.sweep l').headedKey = some b.key → a ≠ .record l') :
      (sw.candidates.map (·.key)).Nodup ∧
        ∀ b ∈ sw.candidates, t.catalog.verified b.key = false :=
    ⟨(h l).1.sublist (hsw.map _), fun b hb =>
      hstep.verified_mono ((h l).2 b (hsw.subset hb)) (hrec b hb)⟩
  have hupd {l : L} {sw : Sweep} (hsw : (sw.candidates.map (·.key)).Nodup ∧
      ∀ b ∈ sw.candidates, t.catalog.verified b.key = false) (l' : L) :
      ((update s.sweep l sw l').candidates.map (·.key)).Nodup ∧
        ∀ b ∈ (update s.sweep l sw l').candidates, t.catalog.verified b.key = false := by
    rw [Subsingleton.elim l' l, update_self]
    exact hsw
  have hself (hrec : ∀ l', a ≠ .record l') : ∀ l, ((s.sweep l).candidates.map (·.key)).Nodup ∧
      ∀ b ∈ (s.sweep l).candidates, t.catalog.verified b.key = false :=
    fun l => hsub (.refl _) fun _ _ l' _ => hrec l'
  cases hstep with
  | work | insert | commit | commitReady | publish | restore =>
    exact hself nofun
  | @sweep l mv sw hsw =>
    refine hupd ?_
    rcases hsw.candidates_sublist with hs | ⟨now, hs⟩
    · exact hsub hs nofun
    · rw [hs]
      exact ⟨archiveCandidates_nodup _ _, fun b hb => hg.inv.verified_candidate hb⟩
  | @put l now b o todo hl =>
    refine hupd (hsub (l := l) ?_ fun _ _ l' _ he => by cases he)
    rw [hl]
    exact .refl _
  | @record l now b o todo hot hl =>
    -- The bucket that is recorded is not among those that are left.
    refine hupd (hsub (l := l) ?_ fun b' hb' l' hl' _ => ?_)
    · rw [hl]
      exact sublist_cons_self _ _
    · rw [Subsingleton.elim l' l, hl] at hl'
      have hnodup := (h l).1
      rw [hl] at hnodup
      have hne := (nodup_cons.1 hnodup).1
      refine hne (mem_map.2 ⟨b', hb', ?_⟩)
      exact (Option.some.inj hl').symm
  | @recordStale l now b o todo hl =>
    refine hupd ⟨?_, fun b' hb' => ?_⟩
    · exact (h l).1.sublist (by rw [hl]; exact (sublist_cons_self _ _).map _)
    · exact (h l).2 b' (by rw [hl]; exact mem_cons_of_mem _ hb')
  | claimDeletion | claimRefused | drop | mark =>
    exact hupd ⟨nodup_nil, nofun⟩

omit [Fintype W] [DecidableEq W] [DecidableEq L] in
theorem SweepInv.initial : SweepInv (initial : State W L) :=
  fun _ => ⟨nodup_nil, nofun⟩

variable {P : State W L → Label W L → Prop}

theorem sweepInv_of_reachable [Subsingleton L] (h : (pipeline cfg).Reachable P s) : SweepInv s :=
  h.invariant .initial fun _ _ _ hr hs _ hn =>
    hs.step (guardInv_of_reachable hr) (next_cases hn)

variable [Fintype L]

theorem uploadExclusive_of_single [Subsingleton L] (h : (pipeline cfg).Reachable P s)
    (a : Label W L) : UploadExclusive s a := by
  cases a with
  | put l =>
    simp only [UploadExclusive, uploadExclusive]
    split
    · rename_i now b o todo hl
      simp only [and_eq_true, not_eq_true', decide_eq_true_eq]
      refine ⟨(sweepInv_of_reachable h l).2 b (by rw [hl]; exact mem_cons_self), ?_⟩
      exact fun l' hl' => absurd (Subsingleton.elim l' l) hl'
    · rfl
  | _ => rfl

theorem contentInv_of_single [Subsingleton L] (h : (pipeline cfg).Reachable P s) : ContentInv s :=
  contentInv_of_reachable (fun _ _ ha => ha)
    (h.weaken fun _ a _ hr _ _ _ => uploadExclusive_of_single hr a)

/-! ## Deletion -/

omit [Fintype L] in
theorem mem_ingested_of_stored (h : (pipeline cfg).Reachable CommitAtomic s) :
    ∀ r ∈ s.stored, r ∈ s.ingested ∨ ∃ w g, s.worker w = .inserted r g := by
  refine h.invariant (I := fun s => ∀ r ∈ s.stored,
    r ∈ s.ingested ∨ ∃ w g, s.worker w = .inserted r g) (fun _ hr => by cases hr) ?_
  intro s a t _ hs ha hn r hr
  -- A worker that has inserted stays there until it commits.
  have hupd {w : W} {ws : WorkerState} (hw : ∀ g, s.worker w ≠ .inserted r g)
      (hx : r ∈ s.ingested ∨ ∃ w g, s.worker w = .inserted r g) :
      r ∈ s.ingested ∨ ∃ w' g, update s.worker w ws w' = .inserted r g := by
    refine hx.imp id fun ⟨w', g, hw'⟩ => ⟨w', g, ?_⟩
    rwa [update_of_ne]
    rintro rfl
    exact hw g hw'
  cases next_cases hn with
  | @work w mv ws hw =>
    refine hupd (fun g hg => ?_) (hs r hr)
    rw [hg] at hw
    cases hw with
    | fail hheld => cases hheld
    | abort => simp [CommitAtomic, commitAtomic, hg] at ha
  | @insert w r' g hw =>
    rcases mem_append.1 hr with hr | hr
    · exact hupd (fun g' hg' => by rw [hw] at hg'; cases hg') (hs r hr)
    · cases mem_singleton.1 hr
      exact .inr ⟨w, g, update_self _ _ _⟩
  | @commit w r' g hw =>
    by_cases he : r = r'
    · subst he
      exact .inl (mem_append_right _ (mem_singleton_self r))
    · have hx : ∀ g', s.worker w ≠ .inserted r g' := by
        intro g' hg'
        rw [hw] at hg'
        cases hg'
        exact he rfl
      exact (hupd hx (hs r hr)).imp (mem_append_left _) id
  | @commitReady w r' created hw =>
    exact hupd (fun g' hg' => by rw [hw] at hg'; cases hg') (hs r hr)
  | @publish w r' delivered acked hw =>
    exact hupd (fun g' hg' => by rw [hw] at hg'; cases hg') (hs r hr)
  | sweep | put | record | recordStale | claimDeletion | claimRefused | drop | mark | restore =>
    exact hs r hr

omit [Fintype L] in
theorem frozen_of_path (h : (pipeline cfg).Reachable P s) (hpath : (pipeline cfg).Path P s t)
    {d : Day} (hd : s.catalog.frozen d = true) : t.catalog.frozen d = true := by
  induction hpath with
  | refl => exact hd
  | step hp _ hn ih => exact (next_cases hn).frozen_mono (guardInv_of_reachable (h.path hp)) ih

/-- Dropping a partition is safe, for any number of storage workers and one lifecycle worker, where
    transactions commit if and only if their inserts took effect: when the partition of a day is
    dropped, every event ever stored in it is a row of the object of its bucket, whose S3 row is
    verified; and no event of that day is inserted by any later step. -/
theorem drop_safe [Subsingleton L] {l : L} {now : Time} {d : Day} {days : List Day}
    (h : (pipeline cfg).Reachable CommitAtomic s) (hl : s.sweep l = .claimed now d days)
    (hdrop : (pipeline cfg).next s (.drop l) = some t) :
    (∀ r ∈ s.stored, r.day = d → ∃ row o, s.catalog.archive.get? r.bucketKey = some row ∧
      row.archiveVerifiedAt.isSome = true ∧ s.objects row.storagePath = some o ∧ r ∈ o.rows) ∧
    ∀ u v a r, (pipeline cfg).Path CommitAtomic t u → (pipeline cfg).next u a = some v →
      v.events = u.events ++ [r] → r.day ≠ d := by
  have hg := guardInv_of_reachable h
  have hs := storeInv_of_reachable h
  have hfrozen : s.catalog.frozen d = true := hs.claimed l d (by rw [hl]; rfl)
  refine ⟨fun r hr hd => ?_, fun u v a r hpath hn hins hd => ?_⟩
  · subst hd
    -- No worker is about to commit the event, as its day is frozen.
    have hing : r ∈ s.ingested := by
      rcases mem_ingested_of_stored h r hr with hi | ⟨w, g, hw⟩
      · exact hi
      · rw [hg.not_frozen (.inr hw)] at hfrozen
        cases hfrozen
    obtain ⟨-, hot, hhot⟩ := hs.ingested r hing
    obtain ⟨row, hrow, hv⟩ :=
      hg.inv.verified_of_deleted hhot ((hg.inv.isDelete_eq_frozen hhot).trans hfrozen)
    obtain ⟨o, ho, hmem⟩ := (contentInv_of_single h).verified r.bucketKey
      (by rw [verified, hrow]; exact hv)
    refine ⟨row, o, hrow, hv, ?_, hmem r hing rfl⟩
    rw [(pathInv_of_reachable h).row _ row hrow]
    exact ho
  · have hstep : Step cfg s (.drop l) t := next_cases hdrop
    have ht := h.step (show CommitAtomic s (.drop l) from rfl) hdrop
    have hu : u.catalog.frozen d = true :=
      frozen_of_path ht hpath (hstep.frozen_mono hg hfrozen)
    have hstep' : Step cfg u a v := next_cases hn
    obtain ⟨w, g, -, hw⟩ := hstep'.of_events hins
    subst hd
    rw [(guardInv_of_reachable (ht.path hpath)).not_frozen (.inl hw)] at hu
    cases hu

/-- `sshd` is archived, and eight days later its day is claimed. -/
def claimedRun : List (Label (Fin 1) (Fin 1)) :=
  processRun 0 sshd ++ archiveRun 0 (dayStart 20636) (sampleRow sshd) ++
    [.sweep 0 .crash, .sweep 0 (.begin (dayStart 20644)), .sweep 0 .beginDelete, .claimDeletion 0]

theorem drop_safe_claimedRun :
    ∃ s t, (pipeline sampleConfig).runIf CommitAtomic initial claimedRun = some s ∧
      (pipeline sampleConfig).next s (.drop 0) = some t ∧
      s.stored.length = 1 ∧ t.events = [] ∧
      ∀ r ∈ s.stored, r.day = 20635 → ∃ row o, s.catalog.archive.get? r.bucketKey = some row ∧
        row.archiveVerifiedAt.isSome = true ∧ s.objects row.storagePath = some o ∧ r ∈ o.rows :=
  have h : (pipeline sampleConfig).runIf CommitAtomic initial claimedRun = some _ := rfl
  have hdrop : (pipeline sampleConfig).next _ (.drop (0 : Fin 1)) = some _ := rfl
  ⟨_, _, h, hdrop, rfl, rfl, (drop_safe (System.reachable_of_runIf h) rfl hdrop).1⟩

omit [Fintype L] in
/-- In every run, what the workers, the sweeps and the restores do to the catalog in any order is a
    run of its committed operations. -/
theorem catalog_reachable {P : State W L → Label W L → Prop}
    (h : (pipeline cfg).Reachable P s) : catalogSystem.Reachable System.always s.catalog :=
  (guardInv_of_reachable h).catalog

theorem catalog_reachable_claimedRun :
    ∃ s, (pipeline sampleConfig).run initial claimedRun = some s ∧
      catalogSystem.Reachable System.always s.catalog :=
  have h : (pipeline sampleConfig).run initial claimedRun = some _ := rfl
  ⟨_, h, catalog_reachable (System.reachable_of_run h)⟩

end Pipeline

end Edr
