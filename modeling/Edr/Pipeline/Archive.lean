import Edr.Pipeline.Guard
import Edr.Pipeline.Registry

/-!
# The archived objects

All the uploads of a bucket go to the same key, and none of them holds a lock. An upload that
is slow can land after another one was verified and recorded, and then the object is not the
one that the catalog describes.
-/

namespace Edr

open Function

def Sweep.candidates : Sweep → List Catalog.ArchiveCandidate
  | archiving _ todo => todo
  | counted _ b _ todo | exported _ b _ todo | uploaded _ b _ todo | headed _ b _ todo => b :: todo
  | idle | deleting .. | claimed .. | dropped .. => []

def Sweep.headedKey : Sweep → Option BucketKey
  | headed _ b _ _ => some b.key
  | idle | archiving .. | counted .. | exported .. | uploaded .. | deleting .. | claimed ..
  | dropped .. => none

theorem archiveKey_injective : Function.Injective archiveKey := by
  rintro ⟨e, d⟩ ⟨e', d'⟩ h
  cases h
  rfl

def Catalog.verified (c : Catalog) (k : BucketKey) : Bool :=
  (c.archive.get? k).any fun r => r.archiveVerifiedAt.isSome

namespace Pipeline

variable {W L : Type*} [DecidableEq W] [DecidableEq L] {cfg : Config}
  {s t : State W L} {a : Label W L}

/-- What a step can do to the S3 row of a bucket: nothing but its restore, or its verification
    is withdrawn, or it is the row of an upload that is recorded. -/
theorem Step.archive_row (hstep : Step cfg s a t) {k : BucketKey} {r' : ArchiveRow}
    (hr' : t.catalog.archive.get? k = some r') :
    (∃ r, s.catalog.archive.get? k = some r ∧ r.SameObject r') ∨
    (∃ r, s.catalog.archive.get? k = some r ∧ r' = r.unverify) ∨
    ∃ l now b o todo hot, a = .record l ∧ s.sweep l = .headed now b o todo ∧ b.key = k ∧
      s.catalog.archiveGuard k = some hot ∧ archiveCount s.events k = o.eventCount ∧
      r' = Catalog.VerifiedArchive.row ⟨k, hot.bucketEndAt, b.uploadPath, o.eventCount,
        o.sizeBytes cfg.format, o.checksum cfg.format, now⟩ := by
  cases hstep with
  | work | insert | commitReady | publish | sweep | put | recordStale | claimRefused | drop =>
    exact .inl ⟨r', hr', .refl r'⟩
  | commit hw =>
    rw [Catalog.archive_applyGuard] at hr'
    split_ifs at hr'
    · obtain ⟨r, hr, rfl⟩ := Option.map_eq_some_iff.1 hr'
      exact .inr (.inl ⟨r, hr, rfl⟩)
    · exact .inl ⟨r', hr', .refl r'⟩
  | @record l now b o todo hot hl _ hhot hn =>
    rw [Catalog.archive_recordVerifiedArchive] at hr'
    split_ifs at hr' with hk
    · cases hr'
      cases hk
      exact .inr (.inr ⟨l, now, b, o, todo, hot, rfl, hl, rfl, hhot, hn, rfl⟩)
    · exact .inl ⟨r', hr', .refl r'⟩
  | @claimDeletion l now d days c _ _ hc =>
    have ha := Catalog.archive_claimPartitionDeletion (c := s.catalog) d (now - archiveSafetyWindow)
    rw [hc] at ha
    rw [ha] at hr'
    exact .inl ⟨r', hr', .refl r'⟩
  | mark => exact .inl ⟨r', hr', .refl r'⟩
  | restore ho =>
    rcases (Catalog.perform_isRestore ho).row k with h | ⟨r, r'', h, h'', hs, -⟩
    · exact .inl ⟨r', h.symm.trans hr', .refl r'⟩
    · cases h''.symm.trans hr'
      exact .inl ⟨r, h, hs⟩

/-! ## The paths -/

/-- The paths of the catalog and of the sweeps are those of `_archive_key`. -/
structure PathInv (s : State W L) : Prop where
  row : ∀ k r, s.catalog.archive.get? k = some r → r.storagePath = archiveKey k
  candidate : ∀ l, ∀ b ∈ (s.sweep l).candidates, b.uploadPath = archiveKey b.key

omit [DecidableEq W] [DecidableEq L] in
theorem PathInv.archiveCandidates (h : PathInv s) {now : Time} {n : Nat}
    {b : Catalog.ArchiveCandidate} (hb : b ∈ s.catalog.archiveCandidates now n) :
    b.uploadPath = archiveKey b.key := by
  simp only [Catalog.archiveCandidates, List.mem_map] at hb
  obtain ⟨⟨k, hot⟩, -, rfl⟩ := hb
  rcases hr : s.catalog.archive.get? k with _ | r
  · rfl
  · rw [Option.filter_some]
    split_ifs
    · exact h.row k r hr
    · rfl

omit [DecidableEq W] [DecidableEq L] in
theorem SweepStep.candidates {sw sw' : Sweep} {mv : SweepMove} (h : SweepStep cfg s sw mv sw')
    {b : Catalog.ArchiveCandidate} (hb : b ∈ sw'.candidates) : b ∈ sw.candidates ∨
      ∃ now, b ∈ s.catalog.archiveCandidates (dayStart (dateOf now)) cfg.candidateLimit := by
  cases h with
  | begin => exact .inr ⟨_, hb⟩
  | beginDelete | skipDay | crash => cases hb
  | count | exportRows | head => exact .inl hb
  | empty | skipCounted | skipExported | skipUploaded | skipHeaded =>
    exact .inl (List.mem_cons_of_mem _ hb)

theorem PathInv.step (h : PathInv s) (hstep : Step cfg s a t) : PathInv t where
  row k r' hr' := by
    rcases hstep.archive_row hr' with ⟨r, hr, hs⟩ | ⟨r, hr, rfl⟩ |
      ⟨l, now, b, o, todo, hot, -, hl, rfl, -, -, rfl⟩
    · exact hs.storagePath.trans (h.row k r hr)
    · exact h.row k r hr
    · exact h.candidate l b (by rw [hl]; exact List.mem_cons_self)
  candidate := by
    have hsub {l : L} {sw : Sweep} (hsw : ∀ b ∈ sw.candidates, b.uploadPath = archiveKey b.key) :
        ∀ l', ∀ b ∈ (update s.sweep l sw l').candidates,
          b.uploadPath = archiveKey b.key := by
      rw [forall_update_iff s.sweep fun _ sw =>
        ∀ b ∈ sw.candidates, b.uploadPath = archiveKey b.key]
      exact ⟨hsw, fun l' _ => h.candidate l'⟩
    cases hstep with
    | work | insert | commit | commitReady | publish | restore => exact h.candidate
    | @sweep l mv sw hsw =>
      refine hsub fun b hb => ?_
      rcases hsw.candidates hb with hb | ⟨now, hb⟩
      · exact h.candidate l b hb
      · exact h.archiveCandidates hb
    | @put l now b o todo hl =>
      refine hsub fun b' hb => h.candidate l b' ?_
      rw [hl]
      exact hb
    | @record l now b o todo hot hl =>
      refine hsub fun b' hb => h.candidate l b' ?_
      rw [hl]
      exact List.mem_cons_of_mem _ hb
    | @recordStale l now b o todo hl =>
      refine hsub fun b' hb => h.candidate l b' ?_
      rw [hl]
      exact List.mem_cons_of_mem _ hb
    | claimDeletion | claimRefused | drop | mark => exact hsub nofun

theorem pathInv_of_reachable [Fintype W] {P : State W L → Label W L → Prop}
    (h : (pipeline cfg).Reachable P s) : PathInv s :=
  h.invariant ⟨fun _ _ hr => (by cases hr), fun _ _ hb => (by cases hb)⟩
    fun _ _ _ _ hs _ hn => hs.step (next_cases hn)

/-! ## The objects that the catalog describes -/

def ArchivesMatch (fmt : ArchiveFormat) (s : State W L) : Prop :=
  ∀ k r, s.catalog.archive.get? k = some r → r.archiveVerifiedAt.isSome = true →
    ∃ o, s.objects r.storagePath = some o ∧ r.checksumSha256 = some (o.checksum fmt) ∧
      r.eventCount = o.eventCount

def uploadClear [Fintype L] (s : State W L) : Label W L → Bool
  | .put l =>
    match s.sweep l with
    | .exported _ b _ _ => !s.catalog.verified b.key &&
        decide (∀ l', l' ≠ l → (s.sweep l').headedKey ≠ some b.key)
    | _ => true
  | _ => true

def UploadClear [Fintype L] (s : State W L) (a : Label W L) : Prop := uploadClear s a = true

instance [Fintype L] (s : State W L) (a : Label W L) : Decidable (UploadClear s a) :=
  inferInstanceAs (Decidable (uploadClear s a = true))

/-- The objects at the paths of the verified rows, and of the uploads that are checked. -/
structure ObjectInv (cfg : Config) (s : State W L) : Prop where
  verified : ∀ k r, s.catalog.archive.get? k = some r → r.archiveVerifiedAt.isSome = true →
    ∃ o, s.objects (archiveKey k) = some o ∧ r.checksumSha256 = some (o.checksum cfg.format) ∧
      r.eventCount = o.eventCount
  headed : ∀ l now b o todo, s.sweep l = .headed now b o todo →
    ∃ o', s.objects (archiveKey b.key) = some o' ∧
      o'.checksum cfg.format = o.checksum cfg.format ∧ o'.eventCount = o.eventCount

theorem Step.objects (hstep : Step cfg s a t) (hp : PathInv s) (k : BucketKey) :
    t.objects (archiveKey k) = s.objects (archiveKey k) ∨
    ∃ l now b o todo, a = .put l ∧ s.sweep l = .exported now b o todo ∧ b.key = k ∧
      t.objects (archiveKey k) = some o := by
  cases hstep with
  | @put l now b o todo hl =>
    have hpath := hp.candidate l b (by rw [hl]; exact List.mem_cons_self)
    rw [hpath]
    by_cases hk : b.key = k
    · subst hk
      exact .inr ⟨l, now, b, o, todo, rfl, hl, rfl, update_self _ _ _⟩
    · exact .inl (update_of_ne (fun he => hk (archiveKey_injective he).symm) _ _)
  | _ => exact .inl rfl

theorem Step.headed (hstep : Step cfg s a t) {l : L} {now : Time} {b : Catalog.ArchiveCandidate}
    {o : ArchiveObject} {todo : List Catalog.ArchiveCandidate}
    (hl : t.sweep l = .headed now b o todo) : s.sweep l = .headed now b o todo ∨
      t.objects = s.objects ∧ s.sweep l = .uploaded now b o todo ∧
        headVerifies cfg.format (s.objects b.uploadPath) o = true := by
  cases hstep with
  | work | insert | commit | commitReady | publish | restore => exact .inl hl
  | @sweep l' mv sw hsw =>
    by_cases he : l = l'
    · subst he
      dsimp only at hl
      rw [update_self] at hl
      generalize s.sweep l = sw₀ at hsw
      subst hl
      cases hsw with
      | head hh => exact .inr ⟨rfl, rfl, hh⟩
    · dsimp only at hl
      rw [update_of_ne he] at hl
      exact .inl hl
  | put | record | recordStale | claimDeletion | claimRefused | drop | mark =>
    dsimp only at hl
    rw [update_apply] at hl
    split_ifs at hl
    exact .inl hl

variable [Fintype L]

/-- An upload that meets the condition is not of a bucket that is verified, or that a sweep has
    checked. -/
theorem objects_of_uploadClear (hp : PathInv s) (hstep : Step cfg s a t) (hu : UploadClear s a)
    {k : BucketKey}
    (hk : s.catalog.verified k = true ∨ ∃ l, (s.sweep l).headedKey = some k) :
    t.objects (archiveKey k) = s.objects (archiveKey k) := by
  rcases hstep.objects hp k with he | ⟨l, now, b, o, todo, rfl, hl, rfl, -⟩
  · exact he
  · simp only [UploadClear, uploadClear, hl, Bool.and_eq_true, Bool.not_eq_true',
      decide_eq_true_eq] at hu
    obtain ⟨hv, hh⟩ := hu
    rcases hk with hk | ⟨l', hl'⟩
    · rw [hv] at hk
      cases hk
    · -- The sweep that puts is not one that has checked.
      refine absurd hl' (hh l' ?_)
      rintro rfl
      rw [hl] at hl'
      cases hl'

theorem ObjectInv.step (h : ObjectInv cfg s) (hp : PathInv s) (hstep : Step cfg s a t)
    (hu : UploadClear s a) : ObjectInv cfg t where
  verified k r' hr' hv := by
    rcases hstep.archive_row hr' with ⟨r, hr, hs⟩ | ⟨r, hr, rfl⟩ |
      ⟨l, now, b, o, todo, hot, rfl, hl, rfl, -, -, rfl⟩
    · rw [hs.verifiedAt] at hv
      rw [objects_of_uploadClear hp hstep hu (.inl (by simp [Catalog.verified, hr, hv])),
        hs.checksum, hs.eventCount]
      exact h.verified k r hr hv
    · cases hv
    · -- The row that is recorded is that of the upload that was checked.
      have ho : t.objects = s.objects := by cases hstep <;> rfl
      obtain ⟨o', ho', hc, hn⟩ := h.headed l now b o todo hl
      exact ⟨o', by rw [ho]; exact ho', congrArg some hc.symm, hn.symm⟩
  headed l now b o todo hl := by
    rcases hstep.headed hl with hl₀ | ⟨ho, hl₀, hh⟩
    · rw [objects_of_uploadClear hp hstep hu (.inr ⟨l, by rw [hl₀]; rfl⟩)]
      exact h.headed l now b o todo hl₀
    · obtain ⟨o', ho', -, hc, hn⟩ := headVerifies_iff.1 hh
      rw [hp.candidate l b (by rw [hl₀]; exact List.mem_cons_self)] at ho'
      exact ⟨o', by rw [ho]; exact ho', hc, hn⟩

theorem objectInv_of_reachable [Fintype W] {P : State W L → Label W L → Prop}
    (hP : ∀ s a, P s a → UploadClear s a) (h : (pipeline cfg).Reachable P s) : ObjectInv cfg s :=
  h.invariant ⟨fun _ _ hr => (by cases hr), fun _ _ _ _ _ hl => (by cases hl)⟩
    fun _ _ _ hr hs ha hn => hs.step (pathInv_of_reachable hr) (next_cases hn) (hP _ _ ha)

omit [DecidableEq W] [DecidableEq L] [Fintype L] in
theorem archivesMatch_of_objectInv (hp : PathInv s) (h : ObjectInv cfg s) :
    ArchivesMatch cfg.format s := by
  intro k r hr hv
  rw [hp.row k r hr]
  exact h.verified k r hr hv

variable [Fintype W]

/-- In every run of any number of sweeps and workers whose uploads all meet `UploadClear`, the
    catalog describes the objects. -/
theorem archivesMatch_of_uploadClear (h : (pipeline cfg).Reachable UploadClear s) :
    ArchivesMatch cfg.format s :=
  archivesMatch_of_objectInv (pathInv_of_reachable h) (objectInv_of_reachable (fun _ _ ha => ha) h)

/-! ## Two sweeps -/

def sampleRow (m : RawMessage) : List EventRecord := (normalizeEvent sampleCodec m).toList

def exportRun {W L : Type*} (l : L) (now : Time) (rows : List EventRecord) : List (Label W L) :=
  [.sweep l (.begin now), .sweep l .count, .sweep l (.exportRows [rows])]

def archiveRun {W L : Type*} (l : L) (now : Time) (rows : List EventRecord) : List (Label W L) :=
  exportRun l now rows ++ [.put l, .sweep l .head, .record l]

/-- One of the sweeps archives the day of `sshd`. -/
def archivedRun : List (Label (Fin 1) (Fin 2)) :=
  processRun 0 sshd ++ archiveRun 0 (dayStart 20636) (sampleRow sshd)

theorem archivesMatch_of_uploadClear_archivedRun :
    ∃ s, (pipeline sampleConfig).runIf UploadClear initial archivedRun = some s ∧
      s.catalog.verified ⟨7, 20635⟩ = true ∧ ArchivesMatch sampleConfig.format s :=
  have h : (pipeline sampleConfig).runIf UploadClear initial archivedRun = some _ := rfl
  ⟨_, h, rfl, archivesMatch_of_uploadClear (System.reachable_of_runIf h)⟩

/-- The first sweep writes a file of `sshd` alone. Then `bash` arrives, and the second sweep
    archives both, and records them. The upload of the first sweep lands last. -/
def staleUploadRun : List (Label (Fin 1) (Fin 2)) :=
  processRun 0 sshd ++ exportRun 0 (dayStart 20636) (sampleRow sshd) ++ processRun 0 bash ++
    archiveRun 1 (dayStart 20636 + 3600000) (sampleRow sshd ++ sampleRow bash) ++ [.put 0]

/-- Two sweeps that overlap: the catalog says that the archive of the day is verified and has two
    events, and the object has one. -/
theorem archives_mismatch :
    ∃ s : State (Fin 1) (Fin 2), (pipeline sampleConfig).Reachable System.always s ∧
      ¬ArchivesMatch sampleConfig.format s := by
  have h : (pipeline sampleConfig).run initial staleUploadRun = some _ := rfl
  refine ⟨_, System.reachable_of_run h, fun hm => ?_⟩
  obtain ⟨o, ho, -, hn⟩ := hm ⟨7, 20635⟩ _ rfl rfl
  cases ho
  exact absurd hn (by decide)

end Pipeline

end Edr
