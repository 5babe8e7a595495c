import Edr.Pipeline.Content

/-!
# What becomes of a processed event

An event that was processed should be in the catalog: its bucket has a live `HOT` row until its day
is claimed for deletion, and an archive of the bucket that is verified contains it. The insert
branch of `_process` sees to it by the guard, in the transaction that registers the event. The
other branch does not: where the row is found in ClickHouse, the event is registered and no guard
is taken. A worker that has inserted and then lost its transaction leads there on the retry.
-/

namespace Edr.Pipeline

variable {W L : Type*} [Fintype W] [DecidableEq W] [Fintype L] [DecidableEq L] {cfg : Config}
  {s t : State W L} {a : Label W L} {M : Set RawMessage}

/-- The catalog knows the events that were processed: unless its day is claimed for deletion, the
    bucket of such an event has a live `HOT` row; and if the archive of the bucket is verified, its
    object contains the event. -/
def Catalogued (s : State W L) : Prop :=
  ∀ r ∈ s.processed,
    (s.catalog.frozen r.day = false → s.catalog.liveHot r.bucketKey = true) ∧
    ∀ row, s.catalog.archive.get? r.bucketKey = some row → row.archiveVerifiedAt.isSome = true →
      ∃ o, s.objects row.storagePath = some o ∧ r ∈ o.rows

def freshClaim (s : State W L) : Label W L → Bool
  | .work w .check =>
    match s.worker w with
    | .claimed r claim => !claim.created || s.events.all fun r' => decide (r'.eventId ≠ r.eventId)
    | _ => true
  | _ => true

def FreshClaim (s : State W L) (a : Label W L) : Prop := freshClaim s a = true

/-- The runs on messages of `M` whose claims and uploads meet their conditions. -/
def IngestPolicy (M : Set RawMessage) (s : State W L) (a : Label W L) : Prop :=
  Receives M s a ∧ FreshClaim s a ∧ UploadExclusive s a

instance (s : State W L) (a : Label W L) : Decidable (FreshClaim s a) :=
  inferInstanceAs (Decidable (freshClaim s a = true))

instance [DecidablePred (· ∈ M)] (s : State W L) (a : Label W L) :
    Decidable (IngestPolicy M s a) :=
  inferInstanceAs (Decidable (_ ∧ _ ∧ _))

structure IngestInv (s : State W L) : Prop where
  ready : ∀ w r, s.worker w ≠ .ready r true
  registered : ∀ id i, s.registry.get? id = some i →
    ∃ r ∈ s.ingested, r.eventId = id ∧ r.identity = i
  processed : ∀ r ∈ s.processed, s.registry.get? r.eventId = some r.identity

omit [Fintype W] [Fintype L] in
theorem Step.registry_mono (hstep : Step cfg s a t) {id : UUID} {i : EventIdentity}
    (h : s.registry.get? id = some i) : t.registry.get? id = some i := by
  have hins (id' : UUID) (i' : EventIdentity) : (s.registry.insert id' i').get? id = some i := by
    rw [Table.get?_insert]
    split_ifs with he
    · subst he
      rw [h, Option.getD_some]
    · exact h
  cases hstep with
  | commit => exact hins _ _
  | commitReady =>
    split_ifs
    · exact hins _ _
    · exact h
  | _ => exact h

omit [Fintype W] [Fintype L] in
theorem IngestInv.step (h : IngestInv s) (hr : RegistryInv s) (hstep : Step cfg s a t)
    (hf : FreshClaim s a) : IngestInv t where
  ready := by
    have hupd {w : W} {ws : WorkerState} (hws : ∀ r, ws ≠ .ready r true) :
        ∀ w' r, Function.update s.worker w ws w' ≠ .ready r true := by
      rw [Function.forall_update_iff s.worker fun _ ws => ∀ r, ws ≠ .ready r true]
      exact ⟨hws, fun w' _ => h.ready w'⟩
    cases hstep with
    | @work w mv ws hw =>
      refine hupd fun r he => ?_
      subst he
      generalize hw₀ : s.worker w = ws₀ at hw
      cases hw with
      | preexisting hex _ =>
        -- The lookup that the condition excludes.
        obtain ⟨r', hr', hid⟩ := hex
        simp only [FreshClaim, freshClaim, hw₀, Bool.not_true, Bool.false_or, List.all_eq_true,
          decide_eq_true_eq] at hf
        exact hf r' hr' hid
    | insert | commit | commitReady | publish => exact hupd fun r he => by cases he
    | sweep | put | record | recordStale | claimDeletion | claimRefused | drop | mark | restore =>
      exact h.ready
  registered := by
    cases hstep with
    | @commit w r g hw =>
      intro id i hi
      dsimp only at hi
      rw [Table.get?_insert, hr.fresh w r.eventId (by rw [hw]; rfl)] at hi
      split_ifs at hi with he
      · cases hi
        exact ⟨r, List.mem_append_right _ (List.mem_singleton_self r), he.symm, rfl⟩
      · obtain ⟨r', hr', hid⟩ := h.registered id i hi
        exact ⟨r', List.mem_append_left _ hr', hid⟩
    | @commitReady w r created hw =>
      cases created with
      | false => exact h.registered
      | true => exact absurd hw (h.ready w r)
    | _ => exact h.registered
  processed := by
    have hold : ∀ r ∈ s.processed, t.registry.get? r.eventId = some r.identity :=
      fun r hr => hstep.registry_mono (h.processed r hr)
    cases hstep with
    | @publish w r delivered acked hw =>
      have hok := hr.worker w
      rw [hw] at hok
      intro r' hr'
      dsimp only at hr'
      split_ifs at hr'
      · rcases List.mem_append.1 hr' with hr' | hr'
        · exact hold r' hr'
        · rw [List.mem_singleton.1 hr']
          exact hok
      · exact hold r' hr'
    | _ => exact hold

omit [Fintype L] in
theorem ingestInv_of_reachable {P : State W L → Label W L → Prop}
    (hP : ∀ s a, P s a → FreshClaim s a) (h : (pipeline cfg).Reachable P s) : IngestInv s :=
  h.invariant ⟨fun _ _ hw => (by cases hw), fun _ _ hi => (by cases hi), fun _ hr => (by cases hr)⟩
    fun _ _ _ hr hs ha hn => hs.step (registryInv_of_reachable hr) (next_cases hn) (hP _ _ ha)

/-- In every run of any number of workers and sweeps, on messages whose digests do not collide, in
    which no claim that registers an event finds its row in ClickHouse, and no upload lands on the
    key of a bucket that is verified or that another sweep may record, the catalog knows the events
    that were processed. -/
theorem catalogued_of_ingestPolicy (hM : cfg.codec.CollisionFreeOn M)
    (h : (pipeline cfg).Reachable (IngestPolicy M) s) : Catalogued s := by
  have hi := (guardInv_of_reachable h).inv
  have hs := storeInv_of_reachable h
  have hrec : RecordInv cfg.codec M s := recordInv_of_reachable (fun _ _ ha => ha.1) h
  have hin := ingestInv_of_reachable (fun _ _ ha => ha.2.1) h
  have hc := contentInv_of_reachable (fun _ _ ha => ha.2.2) h
  intro r hr
  -- The event is registered, by an ingested event that has its identity, and so is it.
  obtain ⟨r', hr', hid, hident⟩ := hin.registered _ _ (hin.processed r hr)
  obtain ⟨hstored, hot, hhot⟩ := hs.ingested r' hr'
  obtain rfl : r' = r := (hrec.stored r' hstored).eq hM (hrec.processed r hr) hid hident
  refine ⟨hi.liveHot_of_not_frozen hhot, fun row hrow hv => ?_⟩
  obtain ⟨o, ho, hmem⟩ := hc.verified r'.bucketKey (by rw [Catalog.verified, hrow]; exact hv)
  rw [(pathInv_of_reachable h).row _ row hrow]
  exact ⟨o, ho, hmem r' hr' rfl⟩

/-! ## A crash after the insert -/

def sampleMessages : Set RawMessage := {m | m = sshd ∨ m = bash}

instance : DecidablePred (· ∈ sampleMessages) :=
  fun m => inferInstanceAs (Decidable (m = sshd ∨ m = bash))

theorem sampleMessages_collisionFree : sampleCodec.CollisionFreeOn sampleMessages := by
  rintro m (rfl | rfl) m' (rfl | rfl) hd
  · exact ⟨rfl, rfl, rfl⟩
  · exact absurd hd (by decide)
  · exact absurd hd (by decide)
  · exact ⟨rfl, rfl, rfl⟩

/-- `sshd` is stored and archived, then `bash` is stored, and a redelivery of `sshd` is processed. -/
def redeliveredRun : List (Label (Fin 1) (Fin 2)) :=
  archivedRun ++ processRun 0 bash ++
    [.work 0 (.receive sshd), .work 0 .claim, .work 0 .check, .commit 0, .publish 0 true true]

theorem catalogued_of_ingestPolicy_redeliveredRun :
    ∃ s, (pipeline sampleConfig).runIf (IngestPolicy sampleMessages) initial redeliveredRun = some s ∧
      s.processed.length = 3 ∧ Catalogued s :=
  have h : (pipeline sampleConfig).runIf (IngestPolicy sampleMessages) initial redeliveredRun =
    some _ := rfl
  ⟨_, h, rfl, catalogued_of_ingestPolicy sampleMessages_collisionFree
    (System.reachable_of_runIf h)⟩

/-- A worker inserts `sshd`, and crashes before its transaction commits. The message is delivered
    again, and processed. -/
def crashRun : List (Label (Fin 1) (Fin 1)) :=
  insertRun 0 sshd ++ [.work 0 .abort, .work 0 (.receive sshd), .work 0 .claim, .work 0 .check,
    .commit 0, .publish 0 true true]

/-- After the crash the event is processed, and its bucket has no `HOT` row, though its day is not
    claimed for deletion. -/
theorem not_catalogued_after_crash :
    ∃ s : State (Fin 1) (Fin 1), (pipeline sampleConfig).Reachable System.always s ∧
      ¬Catalogued s := by
  have h : (pipeline sampleConfig).run initial crashRun = some _ := rfl
  refine ⟨_, System.reachable_of_run h, fun hc => ?_⟩
  have hlive := (hc _ List.mem_cons_self).1 rfl
  exact absurd hlive (by decide)

end Edr.Pipeline
