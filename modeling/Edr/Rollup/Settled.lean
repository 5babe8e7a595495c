import Edr.Lib.Fold
import Edr.Lib.Like
import Edr.Rollup.Worker

/-!
# What becomes of the messages of the rollup

A message is *settled* if it was read, and its bucket refreshed, or found frozen, after the message
was handed out, or if it was recorded in the failure sink. The offsets that the worker commits
should pass over settled messages only.

Of the messages that can be read this is so in every run (`readable_settled`), and of the others it
is so in every run that is `Undisturbed` (`committed_settled`). Elsewhere it may fail
(`message_lost`): a reconciliation pass swallows the exception of a flush that comes between the
delivery of a bad message and its record, and the message is not seen again.
-/

namespace Edr.Rollup

open List Function MinuteKey Nat

open Process

variable {V : Type} (codec : Codec V) (log : Log V)

/-! ## Messages -/

/-- The message of the slot counts for this minute. -/
def Decodes (x : Slot) (key : MinuteKey) : Prop :=
  ∃ v, log x.source x.offset = some v ∧ rollupIdentity codec v = .ok key

/-- The message of the slot is one that `InvalidRollupMessageError` is raised for. -/
def Poison (x : Slot) : Prop :=
  ∃ v text, log x.source x.offset = some v ∧
    rollupIdentity codec v = .error (.invalidRollupMessage text)

variable {codec log} in
theorem Poison.not_decodes {x : Slot} {key : MinuteKey} (h : Poison codec log x) :
    ¬ Decodes codec log x key := by
  rintro ⟨v, hv, hk⟩
  obtain ⟨v', text, hv', ht⟩ := h
  rw [hv] at hv'
  cases hv'
  rw [hk] at ht
  cases ht

/-! ## Histories -/

def RefreshedAfter (x : Slot) (key : MinuteKey) : List (Happening RollupEvent) → Prop :=
  After (· = .delivered x) fun e =>
    ∃ keys frozen, e = .own (.refreshed keys frozen) ∧ (key ∈ keys ∨ key ∈ frozen)

def Recorded (x : Slot) (h : List (Happening RollupEvent)) : Prop := ∃ r, .recorded x r ∈ h

def Settled (x : Slot) (h : List (Happening RollupEvent)) : Prop :=
  (∃ key, Decodes codec log x key ∧ RefreshedAfter x key h) ∨ Recorded x h

def Reconciling : List (Happening RollupEvent) → Prop :=
  Since (fun e => e ≠ .own .reconciled ∧ e ≠ .restarted) (· = .own .reconciling)

def Unrecorded (x : Slot) : List (Happening RollupEvent) → Prop :=
  Since (fun e => (∀ y, e ≠ .delivered y) ∧ (∀ r, e ≠ .recorded x r) ∧ e ≠ .recordFailed x)
    (· = .delivered x)

/-- Within the reconciliation passes, every message that is handed out can be read, or is one that
    `InvalidRollupMessageError` is raised for; no refresh and no commit fails between the delivery
    of such a message and the call of the failure sink; and no rewind fails. -/
def Undisturbed : List (Happening RollupEvent) → Prop :=
  Always fun e past => Reconciling past →
    (∀ x, e = .delivered x → (∃ key, Decodes codec log x key) ∨ Poison codec log x) ∧
    (e = .own .refreshFailed ∨ (∃ x, e = .commitFailed x) →
      ∀ x, Poison codec log x → ¬ Unrecorded x past) ∧
    ∀ x, e ≠ .rewindFailed x

section

variable {codec log} {x : Slot} {key : MinuteKey} {h : List (Happening RollupEvent)}

theorem RefreshedAfter.cons (hx : RefreshedAfter x key h) (e : Happening RollupEvent) :
    RefreshedAfter x key (e :: h) := after_cons.2 (.inr hx)

theorem Recorded.cons (hx : Recorded x h) (e : Happening RollupEvent) : Recorded x (e :: h) :=
  hx.imp fun _ hr => mem_cons_of_mem e hr

theorem Undisturbed.tail {e : Happening RollupEvent} (hu : Undisturbed codec log (e :: h)) :
    Undisturbed codec log h := (always_cons.1 hu).2

theorem Reconciling.cons (hr : Reconciling h) {e : Happening RollupEvent}
    (he : e ≠ .own .reconciled ∧ e ≠ .restarted) : Reconciling (e :: h) :=
  since_cons.2 (.inr ⟨he, hr⟩)

end

/-! ## Invariants -/

/-- What holds of the worker wherever it stops. -/
structure Core (s : RollupNode V) : Prop where
  committed_le : ∀ p, s.consumer.committed p ≤ s.consumer.position p
  pending : ∀ p m, s.memory.pendingOffsets.get? p = some m →
    ∃ n v, m = .ofSlot ⟨p, n⟩ v ∧ n < s.consumer.position p
  pending_none : s.memory.dirtyBuckets = [] → ∀ p, s.memory.pendingOffsets.get? p = none
  covered : ∀ y key, Decodes codec log y key → y.offset < s.consumer.position y.source →
    RefreshedAfter y key s.history ∨ key ∈ s.memory.dirtyBuckets ∧ .delivered y ∈ s.history
  refreshed : ∀ y key, Decodes codec log y key → y.offset < s.consumer.committed y.source →
    RefreshedAfter y key s.history
  recorded : Undisturbed codec log s.history → ∀ y, (∀ key, ¬ Decodes codec log y key) →
    y.offset < s.consumer.committed y.source → Recorded y s.history

/-- The bad message `x` is on its way to the failure sink. -/
structure Awaiting (x : Slot) (s : RollupNode V) : Prop where
  poison : Poison codec log x
  unrecorded : Unrecorded x s.history
  position_eq : s.consumer.position x.source = x.offset + 1
  committed_le_offset : s.consumer.committed x.source ≤ x.offset
  pending_lt : ∀ m, s.memory.pendingOffsets.get? x.source = some m → m.offset < x.offset

/-- The worker is in order, within a reconciliation pass or not, and at most the message `awaited`
    is on its way to the failure sink. -/
structure Flow (reconciling : Bool) (awaited : Option Slot) (s : RollupNode V) : Prop
    extends Core codec log s where
  pass : reconciling = true → Reconciling s.history
  lossless : Undisturbed codec log s.history → ∀ y, (∀ key, ¬ Decodes codec log y key) →
    y.offset < s.consumer.position y.source → awaited = some y ∨ Recorded y s.history
  awaiting : ∀ x, awaited = some x → Awaiting codec log x s

def Thrown (reconciling : Bool) (s : RollupNode V) : Prop :=
  Core codec log s ∧ (reconciling = true → Flow codec log true none s)

section

variable {codec log} {s : RollupNode V} {x : Slot} {b : Bool} {a : Option Slot}
  {e : Happening RollupEvent}

theorem Core.note (h : Core codec log s) (e : Happening RollupEvent) : Core codec log (s.note e) where
  committed_le := h.committed_le
  pending := h.pending
  pending_none := h.pending_none
  covered y key hy hlt := (h.covered y key hy hlt).imp (·.cons e)
    fun hd => ⟨hd.1, mem_cons_of_mem e hd.2⟩
  refreshed y key hy hlt := (h.refreshed y key hy hlt).cons e
  recorded hu y hy hlt := (h.recorded hu.tail y hy hlt).cons e

theorem Core.restart (h : Core codec log s) : Flow codec log false none (s.restart .fresh) where
  committed_le _ := le_rfl
  pending _ _ hm := nomatch hm
  pending_none _ _ := rfl
  covered y key hy hlt := .inl ((h.refreshed y key hy hlt).cons _)
  refreshed y key hy hlt := (h.refreshed y key hy hlt).cons _
  recorded hu y hy hlt := (h.recorded hu.tail y hy hlt).cons _
  pass := nofun
  lossless hu y hy hlt := .inr ((h.recorded hu.tail y hy hlt).cons _)
  awaiting := nofun

theorem Flow.note (h : Flow codec log b a s) (he : e ≠ .own .reconciled ∧ e ≠ .restarted)
    (hd : ∀ y, e ≠ .delivered y) (hr : ∀ y r, e ≠ .recorded y r) (hf : ∀ y, e ≠ .recordFailed y) :
    Flow codec log b a (s.note e) where
  toCore := h.toCore.note e
  pass hb := (h.pass hb).cons he
  lossless hu y hy hlt := (h.lossless hu.tail y hy hlt).imp_right (·.cons e)
  awaiting x hx :=
    let hw := h.awaiting x hx
    { hw with unrecorded := since_cons.2 (.inr ⟨⟨hd, hr x, hf x⟩, hw.unrecorded⟩) }

theorem Flow.thrown (h : Flow codec log b none s) : Thrown codec log b s :=
  ⟨h.toCore, fun hb => hb ▸ h⟩

/-- A refresh or a commit that fails: where a message is on its way, it is lost if the exception is
    swallowed, so that the run is not undisturbed. -/
theorem Flow.thrown_of_failed (h : Flow codec log b a s)
    (he : e = .own .refreshFailed ∨ ∃ x, e = .commitFailed x) : Thrown codec log b (s.note e) := by
  refine ⟨h.toCore.note e, fun hb => ?_⟩
  have hrec := h.pass hb
  have hne : e ≠ .own .reconciled ∧ e ≠ .restarted := by
    rcases he with rfl | ⟨x, rfl⟩ <;> exact ⟨nofun, nofun⟩
  refine { toCore := h.toCore.note e, pass := fun _ => hrec.cons hne, lossless := ?_,
           awaiting := nofun }
  intro hu y hy hlt
  rcases h.lossless hu.tail y hy hlt with ha | hr
  · have hw := h.awaiting y ha
    exact absurd hw.unrecorded (((always_cons.1 hu).1 hrec).2.1 he y hw.poison)
  · exact .inr (hr.cons e)

end

/-! ## `flush` -/

def AllRefreshed (s : RollupNode V) : Prop :=
  ∀ y key, Decodes codec log y key → y.offset < s.consumer.position y.source →
    RefreshedAfter y key s.history

section

variable {codec log} {s : RollupNode V} {x : Slot} {b : Bool} {a : Option Slot}

theorem Flow.remember (h : Flow codec log b a s) (f : Memory V → Memory V)
    (hd : (f s.memory).dirtyBuckets = s.memory.dirtyBuckets)
    (hp : (f s.memory).pendingOffsets = s.memory.pendingOffsets) :
    Flow codec log b a { s with memory := f s.memory } where
  committed_le := h.committed_le
  pending := hp ▸ h.pending
  pending_none := hd ▸ hp ▸ h.pending_none
  covered := hd ▸ h.covered
  refreshed := h.refreshed
  recorded := h.recorded
  pass := h.pass
  lossless := h.lossless
  awaiting x hx :=
    let hw := h.awaiting x hx
    { hw with pending_lt := hp ▸ hw.pending_lt }

theorem Flow.allRefreshed (h : Flow codec log b a s) {keys frozen : List MinuteKey}
    (hk : ∀ key ∈ s.memory.dirtyBuckets, key.normalize = key → key ∈ keys ∨ key ∈ frozen) :
    AllRefreshed codec log (s.note (.own (.refreshed keys frozen))) := by
  intro y key hy hlt
  rcases h.covered y key hy hlt with hr | ⟨hd, hy'⟩
  · exact hr.cons _
  · obtain ⟨v, -, hv⟩ := hy
    have hkey := hk key hd (normalize_of_rollupIdentity codec hv)
    exact after_cons.2 (.inl ⟨⟨keys, frozen, rfl, hkey⟩, _, hy', rfl⟩)

theorem Flow.commit (h : Flow codec log b a s) (hall : AllRefreshed codec log s)
    (hx : x.offset < s.consumer.position x.source)
    (ha : ∀ y, a = some y → y.source = x.source → x.offset < y.offset) :
    Flow codec log b a (s.commit x) := by
  have hlt : ∀ y : Slot, y.offset < (s.commit x).consumer.committed y.source →
      y.offset < s.consumer.committed y.source ∨ y.source = x.source ∧ y.offset ≤ x.offset := by
    intro y hy
    rcases eq_or_ne y.source x.source with hs | hs
    · right
      rw [Node.commit_committed, hs, update_self] at hy
      exact ⟨hs, Nat.lt_succ_iff.1 hy⟩
    · left
      rwa [Node.commit_committed, update_of_ne hs] at hy
  have hpos : ∀ y : Slot, y.source = x.source ∧ y.offset ≤ x.offset →
      y.offset < s.consumer.position y.source := fun y hy => by rw [hy.1]; exact hy.2.trans_lt hx
  refine
    { committed_le := fun p => ?_
      pending := h.pending
      pending_none := h.pending_none
      covered := fun y key hy hlt => .inl ((hall y key hy hlt).cons _)
      refreshed := fun y key hy hy' => ?_
      recorded := fun hu y hy hy' => ?_
      pass := fun hb => (h.pass hb).cons ⟨nofun, nofun⟩
      lossless := fun hu y hy hlt => (h.lossless hu.tail y hy hlt).imp_right (·.cons _)
      awaiting := fun y hy => ?_ }
  · rcases eq_or_ne p x.source with rfl | hp
    · simpa using succ_le_of_lt hx
    · simpa [hp] using h.committed_le p
  · rcases hlt y hy' with hlt | hle
    · exact (h.refreshed y key hy hlt).cons _
    · exact (hall y key hy (hpos y hle)).cons _
  · rcases hlt y hy' with hlt | hle
    · exact (h.recorded hu.tail y hy hlt).cons _
    · rcases h.lossless hu.tail y hy (hpos y hle) with hy' | hr
      · exact absurd (ha y hy' hle.1) (not_lt.2 hle.2)
      · exact hr.cons _
  · have hw := h.awaiting y hy
    refine ⟨hw.poison, since_cons.2 (.inr ⟨⟨nofun, nofun, nofun⟩, hw.unrecorded⟩), hw.position_eq,
      ?_, hw.pending_lt⟩
    rcases eq_or_ne y.source x.source with hs | hs
    · rw [Node.commit_committed, hs, update_self]
      exact ha y hy hs
    · rw [Node.commit_committed, update_of_ne hs]
      exact hw.committed_le_offset

theorem Flow.clear (h : Flow codec log b a s) (hall : AllRefreshed codec log s) :
    Flow codec log b a
      { s with memory := { s.memory with dirtyBuckets := [], pendingOffsets := .empty } } where
  committed_le := h.committed_le
  pending _ _ hm := nomatch hm
  pending_none _ _ := rfl
  covered y key hy hlt := .inl (hall y key hy hlt)
  refreshed := h.refreshed
  recorded := h.recorded
  pass := h.pass
  lossless := h.lossless
  awaiting x hx := { h.awaiting x hx with pending_lt := nofun }

theorem meets_refreshBuckets {keys : List MinuteKey} {Q : Post (RollupNode V) WorkerError Unit}
    (hne : keys ≠ []) (hs : Q.stopped s)
    (hok : ∀ keys' frozen, (∀ key ∈ keys, key.normalize = key → key ∈ keys' ∨ key ∈ frozen) →
      Q.returned () (s.note (.own (.refreshed keys' frozen))))
    (hfail : ∀ message, Q.raised (.other message) (s.note (.own .refreshFailed))) :
    (refreshBuckets keys).Meets Q s := by
  have hkeys : ((keys.map normalize).dedup).isEmpty = false := by
    obtain ⟨key, hk⟩ := exists_mem_of_ne_nil _ hne
    rw [isEmpty_eq_false_iff_exists_mem]
    exact ⟨_, mem_dedup.2 (mem_map_of_mem hk)⟩
  rw [refreshBuckets, if_neg (by simp [hkeys])]
  refine .call hs fun r => ?_
  rcases r.own.refresh with message | frozenDates
  · exact hfail message
  · refine hok _ _ fun key hk hn => ?_
    have hmem : key ∈ (keys.map normalize).dedup :=
      mem_dedup.2 (mem_map.2 ⟨key, hk, hn⟩)
    by_cases hf : key.date ∈ frozenDates
    · exact .inr (mem_filter.2 ⟨hmem, decide_eq_true hf⟩)
    · exact .inl (mem_filter.2 ⟨hmem, by simp [hf]⟩)

theorem meets_flush (h : Flow codec log b a s) :
    (flush : RollupProgram V Unit).Meets
      ⟨fun _ t => Flow codec log b a t ∧ t.memory.dirtyBuckets = [], fun _ => Thrown codec log b,
        Core codec log⟩ s := by
  refine Meets.bind (Meets.read ?_)
  change Process.Meets (if s.memory.dirtyBuckets.isEmpty then pure () else _) _ s
  split_ifs with hd
  · exact Meets.pure ⟨h, isEmpty_iff.1 hd⟩
  refine Meets.bind (meets_refreshBuckets (fun h => hd (isEmpty_iff.2 h)) h.toCore ?_ ?_)
  · intro keys frozen hk
    have hf := h.note (e := .own (.refreshed keys frozen)) ⟨nofun, nofun⟩ nofun nofun nofun
    -- the loop commits the pending messages, none of which comes after the one on its way
    have hloop : ∀ m ∈ orderedMessages s.memory, ∀ t : RollupNode V,
        (Flow codec log b a t ∧ AllRefreshed codec log t ∧ t.memory = s.memory) →
        (commit m : RollupProgram V Unit).Meets
          ⟨fun _ t => Flow codec log b a t ∧ AllRefreshed codec log t ∧ t.memory = s.memory,
            fun _ => Thrown codec log b, Core codec log⟩ t := by
      rintro m hm t ⟨ht, hall, hmem⟩
      obtain ⟨⟨p, m'⟩, hrow, rfl⟩ := mem_map.1 ((mem_insertionSort _).1 hm)
      have hget := Table.mem_rows.1 hrow
      rw [← hmem] at hget
      obtain ⟨n, v, rfl, hn⟩ := ht.pending p m' hget
      have hc := ht.commit (x := ⟨p, n⟩) hall hn fun y hy hs => by
        cases hs
        exact (ht.awaiting y hy).pending_lt _ hget
      refine meets_commit ht.toCore ⟨hc, fun y key hy hlt => (hall y key hy hlt).cons _, hmem⟩ ?_ ?_
      · exact fun _ => ht.thrown_of_failed (.inr ⟨_, rfl⟩)
      · exact fun _ => hc.thrown_of_failed (.inr ⟨_, rfl⟩)
    refine (Meets.forM hloop ⟨hf, h.allRefreshed hk, rfl⟩).seq ?_
    rintro - t ⟨ht, hall, -⟩
    refine Meets.bind (Meets.update (Meets.bind (Meets.call (ht.clear hall).toCore fun r => ?_)))
    exact Meets.update
      ⟨(ht.clear hall).remember (fun w => { w with lastFlushedAt := r.own.clock }) rfl rfl, rfl⟩
  · exact fun _ => h.thrown_of_failed (.inl rfl)

end

/-! ## `run_once` -/

section

variable {codec log} {s : RollupNode V} {x : Slot} {b : Bool} {p : TopicPartition}

theorem Core.deliver (h : Core codec log s) (hx : ∀ key, ¬ Decodes codec log (s.next p) key) :
    Core codec log (s.deliver p) where
  committed_le q := (h.committed_le q).trans (Node.position_le_deliver q)
  pending q m hm := by
    obtain ⟨n, v, hm, hn⟩ := h.pending q m hm
    exact ⟨n, v, hm, hn.trans_le (Node.position_le_deliver q)⟩
  pending_none := h.pending_none
  covered y key hy hlt := by
    rcases Node.eq_next_or_lt hlt with rfl | hlt
    · exact absurd hy (hx key)
    · exact (h.covered y key hy hlt).imp (·.cons _) fun hd => ⟨hd.1, mem_cons_of_mem _ hd.2⟩
  refreshed y key hy hlt := (h.refreshed y key hy hlt).cons _
  recorded hu y hy hlt := (h.recorded hu.tail y hy hlt).cons _

theorem Flow.thrown_deliver (h : Flow codec log b none s)
    (hx : ∀ key, ¬ Decodes codec log (s.next p) key) (hp : ¬ Poison codec log (s.next p)) :
    Thrown codec log b (s.deliver p) := by
  refine ⟨h.toCore.deliver hx, fun hb => ?_⟩
  refine { toCore := h.toCore.deliver hx, pass := fun _ => (h.pass hb).cons ⟨nofun, nofun⟩,
           lossless := fun hu => ?_, awaiting := nofun }
  rcases ((always_cons.1 hu).1 (h.pass hb)).1 _ rfl with ⟨key, hk⟩ | hpoison
  · exact absurd hk (hx key)
  · exact absurd hpoison hp

theorem Flow.deliver (h : Flow codec log b none s) (hp : Poison codec log (s.next p)) :
    Flow codec log b (some (s.next p)) (s.deliver p) where
  toCore := h.toCore.deliver fun _ => hp.not_decodes
  pass hb := (h.pass hb).cons ⟨nofun, nofun⟩
  lossless hu y hy hlt := by
    rcases Node.eq_next_or_lt hlt with rfl | hlt
    · exact .inl rfl
    · rcases h.lossless hu.tail y hy hlt with hn | hr
      · cases hn
      · exact .inr (hr.cons _)
  awaiting x hx := by
    cases hx
    refine ⟨hp, since_cons.2 (.inl rfl), by simp [Node.next], h.committed_le p, fun m hm => ?_⟩
    obtain ⟨n, v, rfl, hn⟩ := h.pending p m hm
    exact hn

variable {v : V}

theorem Flow.add (h : Flow codec log b none s) {key : MinuteKey}
    (hv : log p (s.next p).offset = some v) (hk : rollupIdentity codec v = .ok key) :
    Flow codec log b none
      { s.deliver p with memory := s.memory.add key (.ofSlot (s.next p) v) } := by
  have hx : Decodes codec log (s.next p) key := ⟨v, hv, hk⟩
  have huniq : ∀ key', Decodes codec log (s.next p) key' → key' = key := by
    rintro key' ⟨v', hv', hk'⟩
    cases hv.symm.trans hv'
    cases hk.symm.trans hk'
    rfl
  refine
    { committed_le := fun q => (h.committed_le q).trans (Node.position_le_deliver q)
      pending := fun q m hm => ?_
      pending_none := fun hd => absurd hd (ne_nil_of_mem (mem_insert_self))
      covered := fun y key' hy hlt => ?_
      refreshed := fun y key' hy hlt => (h.refreshed y key' hy hlt).cons _
      recorded := fun hu y hy hlt => (h.recorded hu.tail y hy hlt).cons _
      pass := fun hb => (h.pass hb).cons ⟨nofun, nofun⟩
      lossless := fun hu y hy hlt => ?_
      awaiting := nofun }
  · -- the pending message of the partition is the new one, or the one that was there
    have hold : ∀ m, s.memory.pendingOffsets.get? q = some m →
        ∃ n v, m = .ofSlot ⟨q, n⟩ v ∧ n < (s.deliver p).consumer.position q := fun m hm => by
      obtain ⟨n, v, hm, hn⟩ := h.pending q m hm
      exact ⟨n, v, hm, hn.trans_le (Node.position_le_deliver q)⟩
    have hnew : ∃ n v', ConsumedMessage.ofSlot (s.next p) v = .ofSlot ⟨p, n⟩ v' ∧
        n < (s.deliver p).consumer.position p := ⟨_, v, rfl, by simp⟩
    change (s.memory.pendingOffsets.upsert p (later _)).get? q = some m at hm
    rw [Table.get?_upsert] at hm
    split_ifs at hm with hq
    · subst hq
      cases hm
      rcases hprev : s.memory.pendingOffsets.get? q with _ | previous
      · exact hnew
      · rw [later]
        split_ifs
        · exact hnew
        · exact hold previous hprev
    · exact hold m hm
  · rcases Node.eq_next_or_lt hlt with rfl | hlt
    · cases huniq key' hy
      exact .inr ⟨mem_insert_self, mem_cons_self⟩
    · exact (h.covered y key' hy hlt).imp (·.cons _) fun hd =>
        ⟨mem_insert_of_mem hd.1, mem_cons_of_mem _ hd.2⟩
  · rcases Node.eq_next_or_lt hlt with rfl | hlt
    · exact absurd hx (hy key)
    · rcases h.lossless hu.tail y hy hlt with hn | hr
      · cases hn
      · exact .inr (hr.cons _)

theorem Flow.record (h : Flow codec log b (some x) s) (r : FailureRecord) :
    Flow codec log b none (s.note (.recorded x r)) where
  toCore := h.toCore.note _
  pass hb := (h.pass hb).cons ⟨nofun, nofun⟩
  lossless hu y hy hlt := by
    rcases h.lossless hu.tail y hy hlt with hx | hr
    · cases hx
      exact .inr ⟨r, mem_cons_self⟩
    · exact .inr (hr.cons _)
  awaiting := nofun

theorem Flow.rewind (h : Flow codec log b (some x) s) (hd : s.memory.dirtyBuckets = []) :
    Flow codec log b none ((s.note (.recordFailed x)).rewind x) := by
  have hw := h.awaiting x rfl
  have hlt : ∀ y : Slot, y.offset < (s.rewind x).consumer.position y.source →
      y.offset < s.consumer.position y.source ∧ y ≠ x := by
    intro y hy
    rw [Node.rewind_position] at hy
    rcases eq_or_ne y.source x.source with hs | hs
    · rw [hs, update_self] at hy
      rw [hs, hw.position_eq]
      exact ⟨hy.trans (lt_succ_self _), fun he => hy.ne (congrArg Slot.offset he)⟩
    · rw [update_of_ne hs] at hy
      exact ⟨hy, fun he => hs (congrArg Slot.source he)⟩
  have hc : Core codec log ((s.note (.recordFailed x)).note (.rewound x)) :=
    (h.toCore.note _).note _
  refine
    { committed_le := fun q => ?_
      pending := fun q m hm => ?_
      pending_none := h.pending_none
      covered := fun y key hy hy' => hc.covered y key hy (hlt y hy').1
      refreshed := hc.refreshed
      recorded := hc.recorded
      pass := fun hb => ?_
      lossless := fun hu y hy hy' => ?_
      awaiting := nofun }
  · rcases eq_or_ne q x.source with rfl | hq
    · simpa using hw.committed_le_offset
    · simpa [hq] using h.committed_le q
  · exact nomatch (h.pending_none hd q).symm.trans hm
  · have hpass : Reconciling (.recordFailed x :: s.history) := (h.pass hb).cons ⟨nofun, nofun⟩
    exact .cons hpass ⟨nofun, nofun⟩
  · rcases h.lossless hu.tail.tail y hy (hlt y hy').1 with hx | hr
    · exact absurd (Option.some.inj hx).symm (hlt y hy').2
    · exact .inr ((hr.cons _).cons _)

/-- The failure sink has failed, and so has the rewind: if that is swallowed, the run is not
    undisturbed. -/
theorem Flow.rewindFailed (h : Flow codec log b (some x) s) :
    Thrown codec log b ((s.note (.recordFailed x)).note (.rewindFailed x)) := by
  have hc : Core codec log ((s.note (.recordFailed x)).note (.rewindFailed x)) :=
    (h.toCore.note _).note _
  refine ⟨hc, fun hb => ?_⟩
  have hpass := (h.pass hb).cons (e := .recordFailed x) ⟨nofun, nofun⟩
  refine { toCore := hc, pass := fun _ => hpass.cons ⟨nofun, nofun⟩, lossless := fun hu => ?_,
           awaiting := nofun }
  exact absurd rfl (((always_cons.1 hu).1 hpass).2.2 x)

theorem meets_quarantineInvalidMessage (h : Flow codec log b (some x) s)
    (hd : s.memory.dirtyBuckets = []) (error : WorkerError) :
    (quarantineInvalidMessage (.ofSlot x v) error).Meets
      ⟨fun _ => Flow codec log b none, fun _ => Thrown codec log b, Core codec log⟩ s := by
  refine .bind (.handle (meets_record h.toCore (fun now => ?_) fun _ => ?_))
  · have hr := h.record (quarantineRecord error now)
    have hall : AllRefreshed codec log (s.note (.recorded x (quarantineRecord error now))) := by
      intro y key hy hlt
      exact (hr.covered y key hy hlt).resolve_right fun hk => by simp [hd] at hk
    have hx : x.offset < s.consumer.position x.source := (h.awaiting x rfl).position_eq.symm.le
    have hc := hr.commit hall hx nofun
    exact meets_commit hr.toCore hc (fun _ => hr.thrown_of_failed (.inr ⟨_, rfl⟩))
      fun _ => hc.thrown_of_failed (.inr ⟨_, rfl⟩)
  · refine .bind (meets_rewind (h.toCore.note _) (.raise (h.rewind hd).thrown) ?_)
    exact fun _ => h.rewindFailed

theorem meets_handleMessage (h : Flow codec log b none s) (hv : log p (s.next p).offset = some v) :
    (handleMessage codec (.ofSlot (s.next p) v)).Meets
      ⟨fun _ => Flow codec log b none, fun _ => Thrown codec log b, Core codec log⟩
      (s.deliver p) := by
  have hvalue : (ConsumedMessage.ofSlot (s.next p) v).value = v := rfl
  rcases hk : rollupIdentity codec v with e | key
  · have hx : ∀ key, ¬ Decodes codec log (s.next p) key := by
      rintro key ⟨v', hv', hk'⟩
      cases hv.symm.trans hv'
      cases hk.symm.trans hk'
    by_cases hp : Poison codec log (s.next p)
    · obtain ⟨v', text, hv', ht⟩ := id hp
      cases hv.symm.trans hv'
      rw [handleMessage, hvalue, ht]
      exact (meets_flush (h.deliver hp)).seq fun _ _ ht =>
        meets_quarantineInvalidMessage ht.1 ht.2 _
    · have hne : ∀ text, e ≠ .invalidRollupMessage text := by
        rintro text rfl
        exact hp ⟨v, text, hv, hk⟩
      rw [handleMessage, hvalue, hk]
      cases e with
      | invalidRollupMessage text => exact absurd rfl (hne text)
      | _ => exact .raise (h.thrown_deliver hx hp)
  · rw [handleMessage, hvalue, hk]
    exact .update (h.add hv hk)

end

/-! ## The main loop -/

/-- Each way out of the program keeps its part of the invariant. -/
def Keeps (reconciling : Bool) {α : Type} (m : RollupProgram V α) : Prop :=
  ∀ s, Flow codec log reconciling none s → m.Meets ⟨fun _ => Flow codec log reconciling none,
    fun _ => Thrown codec log reconciling, Core codec log⟩ s

section

variable {codec log} {b : Bool} {α β : Type} (settings : Settings)

theorem Keeps.pure (a : α) : Keeps codec log b (pure a) := fun _ h => .pure h

theorem Keeps.raise (e : WorkerError) : Keeps codec log b (raise e : RollupProgram V α) :=
  fun _ h => .raise h.thrown

variable {m : RollupProgram V α}

theorem Keeps.bind {f : α → RollupProgram V β} (hm : Keeps codec log b m)
    (hf : ∀ a, Keeps codec log b (f a)) : Keeps codec log b (m >>= f) := fun s h =>
  (hm s h).seq hf

theorem Keeps.forM {γ : Type} {f : γ → RollupProgram V Unit} (hf : ∀ c, Keeps codec log b (f c))
    (l : List γ) : Keeps codec log b (l.forM f) := fun _ h =>
  .forM (fun c _ t ht => hf c t ht) h

theorem keeps_read (f : RollupNode V → α) : Keeps codec log b (read f) :=
  fun _ h => .read h

theorem keeps_clock : Keeps codec log b (clock : RollupProgram V Int) :=
  fun _ h => .call h.toCore fun _ => h

theorem keeps_now : Keeps codec log b (now : RollupProgram V Time) :=
  fun _ h => .call h.toCore fun _ => h

theorem keeps_heartbeat : Keeps codec log b (heartbeat : RollupProgram V Unit) := by
  refine fun s h => .call h.toCore fun r => ?_
  rcases r.own.heartbeat with _ | message
  · exact h
  · exact h.thrown

theorem keeps_refreshRange (from_ to_ : Time) :
    Keeps codec log b (refreshRange from_ to_ : RollupProgram V Unit) := by
  refine fun s h => .call h.toCore fun r => ?_
  rcases r.own.refreshRange with _ | message
  · exact h.note ⟨nofun, nofun⟩ nofun nofun nofun
  · exact h.thrown

theorem keeps_missingRanges :
    Keeps codec log b (missingRanges : RollupProgram V (List (Time × Time))) := by
  refine fun s h => .call h.toCore fun r => ?_
  rcases r.own.missingRanges with message | ranges
  · exact h.thrown
  · exact h

theorem keeps_remember {f : Memory V → Memory V} (hd : ∀ w, (f w).dirtyBuckets = w.dirtyBuckets)
    (hp : ∀ w, (f w).pendingOffsets = w.pendingOffsets) : Keeps codec log b (remember f) :=
  fun s h => .update (h.remember f (hd s.memory) (hp s.memory))

theorem keeps_flush : Keeps codec log b (flush : RollupProgram V Unit) := fun _ h =>
  (meets_flush h).mono (fun _ _ ht => ht.1) (fun _ _ he => he) fun _ ht => ht

theorem keeps_flushIfDue : Keeps codec log b (flushIfDue settings : RollupProgram V Unit) := by
  refine (keeps_read _).bind fun w => ?_
  split_ifs
  · exact .pure ()
  · exact keeps_flush
  · refine keeps_clock.bind fun time => ?_
    split_ifs
    · exact keeps_flush
    · exact .pure ()

theorem keeps_runOnce : Keeps codec log b (runOnce settings codec log) := by
  intro s h
  refine .bind (meets_consumeOne h.toCore ?_ ?_ ?_ ?_)
  · exact (keeps_flushIfDue settings).bind (fun _ => .pure false) s h
  · exact fun _ => h.thrown
  · intro p hv _
    refine h.thrown_deliver ?_ ?_
    · rintro key ⟨v, hv', -⟩
      exact nomatch hv.symm.trans hv'
    · rintro ⟨v, text, hv', -⟩
      exact nomatch hv.symm.trans hv'
  · intro p v hv
    exact (meets_handleMessage h hv).seq fun _ =>
      (keeps_flushIfDue settings).bind fun _ => .pure true

theorem keeps_drainPending (limit : Nat) :
    Keeps codec log b (drainPending settings codec log limit) := by
  have hloop : ∀ n, Keeps codec log b (drainLoop settings codec log n) := by
    intro n
    induction n with
    | zero => exact .pure ()
    | succ n ih =>
      refine (keeps_runOnce settings).bind fun consumed => ?_
      cases consumed with
      | true => exact ih
      | false => exact .pure ()
  exact (hloop limit).bind fun _ => keeps_flush.bind fun _ => keeps_heartbeat

theorem keeps_backfillRange {chunk : Int} {afterChunk : RollupProgram V Unit} {rangeEnd : Time}
    (h : Keeps codec log b afterChunk) (n : Nat) (cursor : Time) :
    Keeps codec log b (backfillRange chunk afterChunk rangeEnd n cursor) := by
  induction n generalizing cursor with
  | zero => exact .pure ()
  | succ n ih =>
    rw [backfillRange]
    split_ifs
    · exact (keeps_refreshRange _ _).bind fun _ => keeps_heartbeat.bind fun _ => h.bind fun _ => ih _
    · exact .pure ()

theorem keeps_backfill {afterChunk : RollupProgram V Unit} (h : Keeps codec log b afterChunk)
    (hours overlapMinutes chunkHours : Nat) (forceFull : Bool) :
    Keeps codec log b (backfill hours overlapMinutes chunkHours forceFull afterChunk) := by
  have hranges : ∀ ranges, Keeps codec log b (backfillRanges chunkHours afterChunk ranges) :=
    fun ranges => .forM (fun _ => keeps_backfillRange h _ _) _
  rw [backfill]
  split_ifs
  · exact .raise _
  · exact .raise _
  · exact .raise _
  · exact keeps_now.bind fun _ => hranges _
  · exact keeps_now.bind fun _ => keeps_missingRanges.bind fun _ => hranges _

variable {s : RollupNode V}

theorem Flow.leave (h : Flow codec log true none s) :
    Flow codec log false none (s.note (.own .reconciled)) where
  toCore := h.toCore.note _
  pass := nofun
  lossless hu y hy hlt := (h.lossless hu.tail y hy hlt).imp_right (·.cons _)
  awaiting := nofun

theorem keeps_reconcile : Keeps codec log false (reconcile settings codec log) := by
  intro s h
  have hdrain : Keeps codec log true (drainPending settings codec log settings.maxDirtyBuckets) :=
    keeps_drainPending settings settings.maxDirtyBuckets
  have henter : Flow codec log true none (s.note (.own .reconciling)) :=
    { h.note (e := .own .reconciling) ⟨nofun, nofun⟩ nofun nofun nofun with
      pass := fun _ => since_cons.2 (.inl rfl) }
  refine .bind (.update (.bind (.handle ?_)))
  refine (keeps_backfill hdrain settings.reconcileHours 1 settings.chunkHours true _ henter).mono
    (fun _ t ht => ?_) (fun _ t ht => ?_) fun _ ht => ht
  · exact .update ht.leave
  · exact .pure (.update (ht.2 rfl).leave)

theorem keeps_reconcileIfDue (lastAttemptAt : Int) :
    Keeps codec log false (reconcileIfDue settings codec log lastAttemptAt) := by
  refine keeps_clock.bind fun attemptedAt => ?_
  split_ifs
  · exact .pure _
  · exact (keeps_reconcile settings).bind fun _ => .pure _

theorem keeps_start (hm : Keeps codec log b m) :
    Keeps codec log b (do
      let time ← clock
      remember fun w => { w with lastFlushedAt := time }
      m) := by
  refine keeps_clock.bind fun time => .bind ?_ fun _ => hm
  exact keeps_remember (fun _ => rfl) fun _ => rfl

theorem keeps_startup (backfillHours : Option Nat) :
    Keeps codec log false (startup settings codec log backfillHours) := by
  refine keeps_start (.bind ?_ fun _ => keeps_clock.bind fun time => ?_)
  · exact keeps_backfill (keeps_drainPending settings _) _ _ _ _
  · exact keeps_remember (fun _ => rfl) fun _ => rfl

theorem keeps_once (backfillHours : Option Nat) :
    Keeps codec log false (once settings codec log backfillHours) := by
  refine keeps_start (.bind ?_ fun _ => (keeps_runOnce settings).bind fun consumed => ?_)
  · exact keeps_backfill (.pure ()) _ _ _ _
  · exact keeps_flush.bind fun _ => .pure consumed

theorem keeps_round : Keeps codec log false (round settings codec log) :=
  (keeps_runOnce settings).bind fun _ => keeps_heartbeat.bind fun _ => (keeps_read _).bind fun _ =>
    (keeps_reconcileIfDue settings _).bind fun _ => keeps_remember (fun _ => rfl) fun _ => rfl

/-! ## Whole runs -/

theorem flow_init : Flow codec log false none (init : RollupNode V) where
  committed_le _ := le_rfl
  pending _ _ hm := nomatch hm
  pending_none _ _ := rfl
  covered _ _ _ hlt := absurd hlt (not_lt_zero _)
  refreshed _ _ _ hlt := absurd hlt (not_lt_zero _)
  recorded _ _ _ hlt := absurd hlt (not_lt_zero _)
  pass := nofun
  lossless _ _ _ hlt := absurd hlt (not_lt_zero _)
  awaiting := nofun

theorem Keeps.core (hm : Keeps codec log false m) (h : Flow codec log false none s)
    (script : List (Answer RollupAnswer)) : Core codec log (m script s).2.2 := by
  refine Meets.final (I := Core codec log) ?_ script
  exact (hm s h).mono (fun _ _ ht => ht.toCore) (fun _ _ ht => ht.1) fun _ ht => ht

theorem Keeps.proceed (hm : Keeps codec log false m) (h : Flow codec log false none s)
    (script : List (Answer RollupAnswer)) : Flow codec log false none (proceed (m script s)) := by
  have hs := hm s h script
  generalize m script s = r at hs
  obtain ⟨_ | _ | _, rest, t⟩ := r
  · exact hs
  · exact hs.1.restart
  · exact Core.restart hs

theorem Flow.next (h : Flow codec log false none s) (step : Step) :
    Flow codec log false none (next settings codec log s step) := by
  cases step with
  | start backfillHours script => exact (keeps_startup settings _).proceed h.toCore.restart script
  | once backfillHours script =>
    exact ((keeps_once settings _).core h.toCore.restart script).restart
  | round script =>
    rw [Rollup.next]
    split_ifs
    · exact (keeps_round settings).proceed h script
    · exact h
  | stop => exact h.toCore.restart

variable (codec log) in
theorem flow_run (steps : List Step) : Flow codec log false none (run settings codec log steps) :=
  foldlRecOn steps _ flow_init fun _ hs step _ => hs.next settings step

variable (codec log) in
theorem readable_settled (steps : List Step) {x : Slot} {key : MinuteKey}
    (hx : Decodes codec log x key)
    (hlt : x.offset < (run settings codec log steps).consumer.committed x.source) :
    RefreshedAfter x key (run settings codec log steps).history :=
  (flow_run codec log settings steps).refreshed x key hx hlt

variable (codec log) in
/-- In every run whose reconciliation passes are undisturbed, a committed position has passed
    settled messages only. -/
theorem committed_settled (steps : List Step)
    (hu : Undisturbed codec log (run settings codec log steps).history) (x : Slot)
    (hlt : x.offset < (run settings codec log steps).consumer.committed x.source) :
    Settled codec log x (run settings codec log steps).history := by
  have h := flow_run codec log settings steps
  by_cases hx : ∃ key, Decodes codec log x key
  · obtain ⟨key, hk⟩ := hx
    exact .inl ⟨key, hk, h.refreshed x key hk hlt⟩
  · exact .inr (h.recorded hu x (fun key hk => hx ⟨key, hk⟩) hlt)

end

/-! ## A message that is quarantined, and one that is lost -/

section

variable {codec log} {h : List (Happening RollupEvent)}

def calm : Happening RollupEvent → Bool
  | .delivered _ => false
  | .own .refreshFailed => false
  | .commitFailed _ => false
  | .rewindFailed _ => false
  | _ => true

theorem Undisturbed.cons {e : Happening RollupEvent} (he : calm e = true)
    (hu : Undisturbed codec log h) : Undisturbed codec log (e :: h) := by
  refine always_cons.2 ⟨fun _ => ⟨?_, ?_, ?_⟩, hu⟩
  · rintro x rfl
    cases he
  · rintro (rfl | ⟨x, rfl⟩) <;> cases he
  · rintro x rfl
    cases he

theorem Undisturbed.delivered {x : Slot}
    (hx : (∃ key, Decodes codec log x key) ∨ Poison codec log x) (hu : Undisturbed codec log h) :
    Undisturbed codec log (.delivered x :: h) := by
  refine always_cons.2 ⟨fun _ => ⟨?_, nofun, nofun⟩, hu⟩
  rintro y hy
  cases hy
  exact hx

theorem run_congr {codec' : Codec V} (hcodec : rollupIdentity codec = rollupIdentity codec')
    (settings : Settings) : run settings codec log = run settings codec' log := by
  have hhandle : handleMessage codec = handleMessage codec' := by
    unfold handleMessage
    rw [hcodec]
  have hdrain : ∀ n, drainLoop settings codec log n = drainLoop settings codec' log n := by
    intro n
    induction n with
    | zero => rfl
    | succ n ih => rw [drainLoop, drainLoop, runOnce, runOnce, hhandle, ih]
  have hnext : next settings codec log = next settings codec' log := by
    unfold next startup once round reconcileIfDue reconcile drainPending runOnce
    simp only [hhandle, hdrain]
  unfold run
  rw [hnext]

def samplePartition : TopicPartition := ⟨"telemetry.validated", 0⟩

def sampleMessage : Json :=
  .dict [("event", .dict [("endpoint_id", .int 7), ("occurred_at", .str "1970-01-01T00:00:00Z")])]

/-- Python on the two values there are: a good message, and `[]`. -/
def sampleCodec : Codec Bool where
  loads good := .ok (if good then sampleMessage else .list [])
  intOfString _ := none
  str
    | .str text => text
    | _ => "[]"
  fromisoformat text := if text = "1970-01-01T00:00:00+00:00" then some ⟨0, some 0⟩ else none

/-- Without a search for the `Z`. -/
def epochCodec : Codec Bool := { sampleCodec with fromisoformat := fun _ => some ⟨0, some 0⟩ }

theorem readIdentity_sampleCodec : readIdentity sampleCodec true = .ok (7, ⟨0, some 0⟩) := by
  have hz : "1970-01-01T00:00:00Z".replace "Z" "+00:00" = "1970-01-01T00:00:00+00:00" :=
    String.toList_inj.1 (toList_replace (c := 'Z') rfl _ _)
  have htime : sampleCodec.fromisoformat
      ((sampleCodec.str (.str "1970-01-01T00:00:00Z")).replace "Z" "+00:00") = some ⟨0, some 0⟩ :=
    if_pos hz
  refine bind_eq_ok.2 ⟨_, rfl, bind_eq_ok.2 ⟨_, rfl, bind_eq_ok.2 ⟨_, rfl, ?_⟩⟩⟩
  refine bind_eq_ok.2 ⟨7, rfl, bind_eq_ok.2 ⟨_, rfl, ?_⟩⟩
  dsimp only
  rw [htime]
  rfl

theorem rollupIdentity_sampleCodec : rollupIdentity sampleCodec = rollupIdentity epochCodec := by
  funext good
  cases good with
  | false => rfl
  | true =>
    rw [rollupIdentity, readIdentity_sampleCodec]
    rfl

/-- All the messages are good ones, but for the second. -/
def sampleLog : Log Bool := fun _ n => some (n != 1)

def sampleSettings : Settings := ⟨5000, 500, 1, 2, 1, 300000, 1, by decide, by decide⟩

def succeeds : Answer RollupAnswer := { own := {} }

def hasMessage : Answer RollupAnswer := { poll := .message samplePartition, own := {} }

def isLate : Answer RollupAnswer := { own := { clock := 300000 } }

def isUnavailable : Answer RollupAnswer := { own := { refresh := .error "PostgreSQL unavailable" } }

def sampleStart : Step := .start none (.replicate 8 succeeds)

def sampleDrain (rest : List (Answer RollupAnswer)) : Step :=
  .round ([succeeds, succeeds, isLate, succeeds, succeeds, succeeds, hasMessage, succeeds,
    hasMessage] ++ rest)

def quarantineRun : List Step := [sampleStart, sampleDrain (List.replicate 5 succeeds)]

def lossyRun : List Step :=
  [sampleStart, sampleDrain [isUnavailable],
    .round [hasMessage, isLate, succeeds, succeeds, succeeds, succeeds, isLate]]

theorem run_sampleCodec (steps : List Step) :
    run sampleSettings sampleCodec sampleLog steps =
      run sampleSettings epochCodec sampleLog steps := by
  rw [run_congr rollupIdentity_sampleCodec]

theorem decodes_first : Decodes sampleCodec sampleLog ⟨samplePartition, 0⟩ ⟨7, 0⟩ :=
  ⟨true, rfl, congrFun rollupIdentity_sampleCodec true⟩

theorem committed_settled_quarantineRun :
    let s := run sampleSettings sampleCodec sampleLog quarantineRun
    Undisturbed sampleCodec sampleLog s.history ∧ s.consumer.committed samplePartition = 2 ∧
      Settled sampleCodec sampleLog ⟨samplePartition, 1⟩ s.history := by
  have hu : Undisturbed sampleCodec sampleLog
      (run sampleSettings sampleCodec sampleLog quarantineRun).history := by
    rw [run_sampleCodec]
    exact .cons rfl (.cons rfl (.cons rfl (.cons rfl (.cons rfl (.delivered
      (.inr ⟨false, _, rfl, rfl⟩) (.delivered (.inl ⟨_, decodes_first⟩)
        (.cons rfl (.cons rfl (.cons rfl (.cons rfl always_nil))))))))))
  have hcommitted : (run sampleSettings sampleCodec sampleLog quarantineRun).consumer.committed
      samplePartition = 2 := by
    rw [run_sampleCodec]
    rfl
  exact ⟨hu, hcommitted, committed_settled sampleCodec sampleLog sampleSettings quarantineRun hu
    ⟨samplePartition, 1⟩ (hcommitted ▸ one_lt_two)⟩

/-- The first message of the run in which the second one is lost. -/
theorem readable_settled_lossyRun : RefreshedAfter ⟨samplePartition, 0⟩ ⟨7, 0⟩
    (run sampleSettings sampleCodec sampleLog lossyRun).history :=
  readable_settled sampleCodec sampleLog sampleSettings lossyRun decodes_first
    (run_sampleCodec lossyRun ▸ by decide)

/-- The second message is passed over, and was neither read nor recorded. -/
theorem message_lost :
    let s := run sampleSettings sampleCodec sampleLog lossyRun
    1 < s.consumer.committed samplePartition ∧
      ¬ Settled sampleCodec sampleLog ⟨samplePartition, 1⟩ s.history := by
  rw [run_sampleCodec]
  refine ⟨by decide, ?_⟩
  rintro (⟨key, ⟨v, hv, hk⟩, -⟩ | ⟨r, hr⟩)
  · cases hv
    cases hk
  · have hall : ∀ e ∈ (run sampleSettings epochCodec sampleLog lossyRun).history,
        (match e with | .recorded _ _ => false | _ => true) = true :=
      all_eq_true.1 rfl
    exact nomatch hall _ hr

end

end Edr.Rollup
