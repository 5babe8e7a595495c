import Edr.Lib.Lock
import Edr.Pipeline

/-!
# One row for an event id

ClickHouse does not enforce that event ids are unique. That they are rests on the registry: a
worker inserts an event only in the transaction that has registered its id and found no row
of it, and no other worker can be in such a transaction for the same id.
-/

namespace Edr.Pipeline

open List Function

variable {W L : Type*}

def WorkerOk (registry : Table UUID EventIdentity) (events : List EventRecord) :
    WorkerState → Prop
  | .idle | .decoded _ => True
  | .claimed r claim => claim.created = false → registry.get? r.eventId = some claim.identity
  | .absent r | .guarded r _ => ∀ r' ∈ events, r'.eventId ≠ r.eventId
  | .inserted r _ | .ready r true => ∀ r' ∈ events, r'.eventId = r.eventId →
      r'.identity = r.identity
  | .ready r false | .committed r => registry.get? r.eventId = some r.identity

structure RegistryInv (s : State W L) : Prop where
  nodup : (s.events.map (·.eventId)).Nodup
  agree : ∀ id i, s.registry.get? id = some i → ∀ r ∈ s.events, r.eventId = id → r.identity = i
  exclusive : Exclusive WorkerState.openClaim s.worker
  fresh : ∀ w id, (s.worker w).openClaim = some id → s.registry.get? id = none
  worker : ∀ w, WorkerOk s.registry s.events (s.worker w)

/-- A worker keeps what it relies on while the registry grows, and no row of the id that it has
    registered is inserted by others. -/
theorem WorkerOk.mono {registry registry' : Table UUID EventIdentity}
    {events events' : List EventRecord} {ws : WorkerState} (h : WorkerOk registry events ws)
    (hreg : ∀ id i, registry.get? id = some i → registry'.get? id = some i)
    (hev : ∀ id, ws.openClaim = some id → ∀ r ∈ events', r.eventId = id → r ∈ events) :
    WorkerOk registry' events' ws := by
  cases ws with
  | idle => trivial
  | decoded r => trivial
  | claimed r claim => exact fun hc => hreg _ _ (h hc)
  | absent r => exact fun r' hr' hid => h r' (hev _ rfl r' hr' hid) hid
  | guarded r g => exact fun r' hr' hid => h r' (hev _ rfl r' hr' hid) hid
  | inserted r g => exact fun r' hr' hid => h r' (hev _ rfl r' hr' hid) hid
  | ready r created =>
    cases created with
    | true => exact fun r' hr' hid => h r' (hev _ rfl r' hr' hid) hid
    | false => exact hreg _ _ h
  | committed r => exact hreg _ _ h

variable [DecidableEq W] {s t : State W L} {w : W} {ws : WorkerState}

theorem RegistryInv.update (h : RegistryInv s) (hworker : t.worker = update s.worker w ws)
    (hnodup : (t.events.map (·.eventId)).Nodup)
    (hagree : ∀ id i, t.registry.get? id = some i → ∀ r ∈ t.events, r.eventId = id →
      r.identity = i)
    (hopen : ∀ id, ws.openClaim = some id →
      (∀ w', w' ≠ w → (s.worker w').openClaim ≠ some id) ∧ t.registry.get? id = none)
    (hok : WorkerOk t.registry t.events ws)
    (hreg : ∀ id i, s.registry.get? id = some i → t.registry.get? id = some i)
    (hothers : ∀ w' id, w' ≠ w → (s.worker w').openClaim = some id →
      t.registry.get? id = none ∧ ∀ r ∈ t.events, r.eventId = id → r ∈ s.events) :
    RegistryInv t where
  nodup := hnodup
  agree := hagree
  exclusive := hworker ▸ h.exclusive.update fun id hid => (hopen id hid).1
  fresh := by
    rw [hworker, forall_update_iff s.worker fun _ ws =>
      ∀ id, ws.openClaim = some id → t.registry.get? id = none]
    exact ⟨fun id hid => (hopen id hid).2, fun w' hw' id hid => (hothers w' id hw' hid).1⟩
  worker := by
    rw [hworker, forall_update_iff s.worker fun _ ws => WorkerOk t.registry t.events ws]
    exact ⟨hok, fun w' hw' => (h.worker w').mono hreg fun id hid => (hothers w' id hw' hid).2⟩

theorem RegistryInv.update_local (h : RegistryInv s)
    (hopen : ∀ id, ws.openClaim = some id →
      (∀ w', w' ≠ w → (s.worker w').openClaim ≠ some id) ∧ s.registry.get? id = none)
    (hok : WorkerOk s.registry s.events ws) :
    RegistryInv { s with worker := Function.update s.worker w ws } :=
  h.update rfl h.nodup h.agree hopen hok (fun _ _ => id)
    fun w' id _ hw' => ⟨h.fresh w' id hw', fun _ hr _ => hr⟩

theorem RegistryInv.update_open (h : RegistryInv s) {ws₀ : WorkerState}
    (hw : s.worker w = ws₀) (hopen : ws.openClaim = ws₀.openClaim)
    (hok : WorkerOk s.registry s.events ws) :
    RegistryInv { s with worker := Function.update s.worker w ws } := by
  subst hw
  refine h.update_local (fun id hid => ?_) hok
  rw [hopen] at hid
  exact ⟨h.exclusive.others_ne hid, h.fresh w id hid⟩

theorem RegistryInv.work {cfg : Config} {mv : WorkerMove} (h : RegistryInv s)
    (hstep : WorkerStep cfg s w (s.worker w) mv ws) :
    RegistryInv { s with worker := Function.update s.worker w ws } := by
  have hok := h.worker w
  generalize hw : s.worker w = ws₀ at hstep hok
  cases hstep with
  | receive _ => exact h.update_open hw rfl trivial
  | create ho hr =>
    refine h.update_local (fun id hid => ?_) nofun
    cases hid
    exact ⟨ho, hr⟩
  | reclaim hr => exact h.update_open hw rfl fun _ => hr
  | absent ha => exact h.update_open hw rfl ha
  | preexisting _ he => exact h.update_open hw rfl he
  | registered => exact h.update_open hw rfl (hok rfl)
  | guard _ _ => exact h.update_open hw rfl hok
  | fail | abort => exact h.update_local nofun trivial

theorem RegistryInv.insert {r : EventRecord} {g : Catalog.GuardWrites} (h : RegistryInv s)
    (hw : s.worker w = .guarded r g) : RegistryInv { s with
      events := s.events ++ [r]
      stored := s.stored ++ [r]
      worker := Function.update s.worker w (.inserted r g) } := by
  have hopen : (s.worker w).openClaim = some r.eventId := by rw [hw]; rfl
  have hnew : ∀ r' ∈ s.events, r'.eventId ≠ r.eventId := by
    have := h.worker w
    rwa [hw] at this
  have hfresh := h.fresh w _ hopen
  refine h.update rfl ?_ ?_ (fun id hid => ?_) ?_ (fun _ _ => id) fun w' id hw' hid => ?_
  · rw [map_append, nodup_append]
    refine ⟨h.nodup, nodup_singleton _, ?_⟩
    simp only [mem_map, map_cons, map_nil, mem_singleton]
    rintro _ ⟨r', hr', rfl⟩ _ rfl
    exact hnew r' hr'
  · -- The id is not registered yet.
    intro id i hi r' hr' hid
    rcases mem_append.1 hr' with hr' | hr'
    · exact h.agree id i hi r' hr' hid
    · rw [mem_singleton.1 hr'] at hid
      rw [← hid, hfresh] at hi
      cases hi
  · cases hid
    exact ⟨h.exclusive.others_ne hopen, hfresh⟩
  · intro r' hr' hid
    rcases mem_append.1 hr' with hr' | hr'
    · exact absurd hid (hnew r' hr')
    · rw [mem_singleton.1 hr']
  · refine ⟨h.fresh w' id hid, fun r' hr' he => ?_⟩
    rcases mem_append.1 hr' with hr' | hr'
    · exact hr'
    · rw [mem_singleton.1 hr'] at he
      rw [← he] at hid
      exact absurd hid (h.exclusive.others_ne hopen w' hw')

theorem RegistryInv.register {r : EventRecord} (h : RegistryInv s)
    (hopen : (s.worker w).openClaim = some r.eventId)
    (hrow : ∀ r' ∈ s.events, r'.eventId = r.eventId → r'.identity = r.identity)
    (hreg : t.registry = s.registry.insert r.eventId r.identity) (hevents : t.events = s.events)
    (hworker : t.worker = Function.update s.worker w (.committed r)) : RegistryInv t := by
  have hfresh := h.fresh w _ hopen
  have hget (id : UUID) : t.registry.get? id =
      if id = r.eventId then some r.identity else s.registry.get? id := by
    rw [hreg, Table.get?_insert, hfresh, Option.getD_none]
  refine h.update hworker (hevents ▸ h.nodup) ?_ nofun ?_ ?_
    fun w' id hw' hid => ⟨?_, fun r' hr' _ => hevents ▸ hr'⟩
  · intro id i hi r' hr' hid
    rw [hevents] at hr'
    rw [hget] at hi
    split_ifs at hi with he
    · cases hi
      exact hrow r' hr' (hid.trans he)
    · exact h.agree id i hi r' hr' hid
  · change t.registry.get? r.eventId = some r.identity
    rw [hget, if_pos rfl]
  · intro id i hi
    rw [hget, if_neg, hi]
    rintro rfl
    rw [hfresh] at hi
    cases hi
  · rw [hget, if_neg, h.fresh w' id hid]
    rintro rfl
    exact h.exclusive.others_ne hopen w' hw' hid

omit [DecidableEq W] in
theorem RegistryInv.drop (h : RegistryInv s) (d : Day) (sweep : L → Sweep) :
    RegistryInv { s with events := dropPartition d s.events, sweep } where
  nodup := h.nodup.sublist (filter_sublist.map _)
  agree id i hi r hr := h.agree id i hi r (mem_dropPartition.1 hr).1
  exclusive := h.exclusive
  fresh := h.fresh
  worker w := (h.worker w).mono (fun _ _ => id) fun _ _ _ hr _ => (mem_dropPartition.1 hr).1

variable [Fintype W] [DecidableEq L] {cfg : Config}

omit [DecidableEq W] [Fintype W] [DecidableEq L] in
theorem RegistryInv.initial : RegistryInv (initial : State W L) where
  nodup := nodup_nil
  agree _ _ h := by cases h
  exclusive _ _ _ h := by cases h
  fresh _ _ h := by cases h
  worker _ := trivial

omit [Fintype W] in
theorem RegistryInv.step {a : Label W L} (h : RegistryInv s) (hstep : Step cfg s a t) :
    RegistryInv t := by
  cases hstep with
  | work hw => exact h.work hw
  | insert hw => exact h.insert hw
  | @commit w r g hw =>
    have hrow := h.worker w
    rw [hw] at hrow
    exact h.register (by rw [hw]; rfl) hrow rfl rfl rfl
  | @commitReady w r created hw =>
    have hrow := h.worker w
    rw [hw] at hrow
    cases created with
    | true => exact h.register (by rw [hw]; rfl) hrow rfl rfl rfl
    | false => exact h.update_local nofun hrow
  | @publish w r delivered acked _ =>
    have : RegistryInv { s with worker := Function.update s.worker w .idle } :=
      h.update_local nofun trivial
    exact ⟨this.nodup, this.agree, this.exclusive, this.fresh, this.worker⟩
  | drop _ => exact h.drop _ _
  | sweep _ | put _ | record _ _ _ _ | recordStale _ | claimDeletion _ _ _ | claimRefused _
  | mark _ | restore _ => exact ⟨h.nodup, h.agree, h.exclusive, h.fresh, h.worker⟩

theorem registryInv_of_reachable {P : State W L → Label W L → Prop}
    (h : (pipeline cfg).Reachable P s) : RegistryInv s :=
  h.invariant .initial fun _ _ _ _ hs _ hn => hs.step (next_cases hn)

/-- The integrity of the event ids, over every run of any number of workers and sweeps: no
    event id has two rows; the row of a registered id has its registered identity; and a step
    that inserts or publishes an event does not contradict the identity that is registered
    or stored under its id. -/
theorem event_id_integrity (h : (pipeline cfg).Reachable System.always s) :
    (s.events.map (·.eventId)).Nodup ∧
    (∀ id i, s.registry.get? id = some i → ∀ r ∈ s.events, r.eventId = id → r.identity = i) ∧
    ∀ a t r, (pipeline cfg).next s a = some t →
      t.events = s.events ++ [r] ∨ t.published = s.published ++ [r] →
      ∀ i, s.registry.get? r.eventId = some i ∨
        (∃ r' ∈ s.events, r'.eventId = r.eventId ∧ r'.identity = i) → r.identity = i := by
  have hs := registryInv_of_reachable h
  refine ⟨hs.nodup, hs.agree, fun a t r hn hr i hi => ?_⟩
  have hstep : Step cfg s a t := next_cases hn
  rcases hr with hr | hr
  · -- The worker that inserts holds the claim of the id, and has found no row of it.
    obtain ⟨w, g, -, hw⟩ := hstep.of_events hr
    have hnew := hs.worker w
    rw [hw] at hnew
    rcases hi with hi | ⟨r', hr', hid, -⟩
    · rw [hs.fresh w r.eventId (by rw [hw]; rfl)] at hi
      cases hi
    · exact absurd hid (hnew r' hr')
  · -- The worker that publishes has seen the identity in the registry.
    obtain ⟨w, -, -, hw⟩ := hstep.of_published hr
    have hreg := hs.worker w
    rw [hw] at hreg
    rcases hi with hi | ⟨r', hr', hid, rfl⟩
    · exact Option.some.inj (hreg.symm.trans hi)
    · exact (hs.agree _ _ hreg r' hr' hid).symm

/-! ## A run -/

/-- The process execution `sshd` of an endpoint, on 2026-07-01 at 10:00. -/
def sshd : RawMessage where
  endpointId := 7
  agentId := "agent-7"
  eventId := "0198c0de-0000-7000-8000-000000000001"
  eventType := "PROCESS_EXECUTION"
  occurredAt := "2026-07-01T10:00:00.000Z"
  payload := { processName := some "sshd" }

/-- The process execution `bash` of the same endpoint, on the same day at 11:00. -/
def bash : RawMessage where
  endpointId := 7
  agentId := "agent-7"
  eventId := "0198c0de-0000-7000-8000-000000000002"
  eventType := "PROCESS_EXECUTION"
  occurredAt := "2026-07-01T11:00:00.000Z"
  payload := { processName := some "bash" }

/-- Another event, which is sent under the id of `sshd`. -/
def impostor : RawMessage := { bash with eventId := sshd.eventId }

def sampleCodec : Codec where
  uuid text :=
    if text = "0198c0de-0000-7000-8000-000000000001" then
      some 2122368929578717874114239578444398593
    else if text = "0198c0de-0000-7000-8000-000000000002" then
      some 2122368929578717874114239578444398594
    else none
  parseTimestamp text :=
    if text = "2026-07-01T10:00:00.000Z" then some 1782900000000
    else if text = "2026-07-01T11:00:00.000Z" then some 1782903600000
    else none
  digest _ occurredAt _ :=
    if occurredAt = "2026-07-01T10:00:00.000Z" then
      "53dcf958287ca1659b1822be3ec959c704ba5df6502028da578effb4c0ab2c4e"
    else "eb5a3c63b9544e50c88a07b891a7259d2951682b6d82af6264db1141ea2a76d8"

def sampleConfig : Config where
  codec := sampleCodec
  format := ⟨List.length, fun groups => toString groups.length⟩

def insertRun {W L : Type*} (w : W) (m : RawMessage) : List (Label W L) :=
  [.work w (.receive m), .work w .claim, .work w .check, .work w .guard, .insert w]

def processRun {W L : Type*} (w : W) (m : RawMessage) : List (Label W L) :=
  insertRun w m ++ [.commit w, .publish w true true]

/-- Two workers: one stores `sshd`, and the other refuses the other event under its id. -/
def conflictRun : List (Label (Fin 2) (Fin 1)) :=
  processRun 0 sshd ++ [.work 1 (.receive impostor), .work 1 .claim, .work 1 .check]

theorem event_id_integrity_conflictRun :
    ∃ s, (pipeline sampleConfig).run initial conflictRun = some s ∧
      s.worker 1 = .idle ∧ s.events.length = 1 ∧ (s.events.map (·.eventId)).Nodup :=
  have h : (pipeline sampleConfig).run initial conflictRun = some _ := rfl
  ⟨_, h, rfl, rfl, (event_id_integrity (System.reachable_of_run h)).1⟩

end Edr.Pipeline
