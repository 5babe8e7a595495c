import Edr.Layout
import Edr.Lib.Fold
import Edr.Lib.System

/-!
# The sessions of a user

Any number of sessions read, store and delete the overview layout of one user. A session makes one
request after the other, and stores a layout with the revision that it knows from its latest
response; the response of a request may be lost.
-/

namespace Edr.Layout

/-! ## The code -/

/-- A row of `user_dashboard_layouts`. -/
structure LayoutRow where
  layoutId : Nat
  layoutVersion : Nat
  revision : Nat
  layoutJson : Json

/-- What `user_dashboard_layouts` has for the user and the key, and the sequence of its ids. -/
structure LayoutTable where
  row : Option LayoutRow
  nextLayoutId : Nat

structure DashboardLayoutDto where
  dashboardKey : String
  layoutVersion : Nat
  revision : Nat
  isDefault : Bool
  widgets : List Widget

namespace DashboardLayoutRepository

/-- `upsert`: the new revision, unless nothing was stored. -/
def upsert (snapshot : Option LayoutRow) (layoutVersion expectedRevision : Nat)
    (widgets : List Widget) (t : LayoutTable) : Option Nat × LayoutTable :=
  let layoutJson := Json.arr (widgets.map (·.modelDump))
  match snapshot, t.row with
  | some found, some row =>
    -- The condition on the row that was found, and again on what it has become.
    if found.revision = expectedRevision ∧ row.layoutId = found.layoutId ∧
        row.revision = expectedRevision then
      (some (row.revision + 1),
        { t with row := some ⟨row.layoutId, layoutVersion, row.revision + 1, layoutJson⟩ })
    else (none, t)
  | some _, none => (none, t)
  | none, some _ =>
    -- `ON CONFLICT DO NOTHING`, where the id has been taken already.
    if expectedRevision = 0 then (none, { t with nextLayoutId := t.nextLayoutId + 1 })
    else (none, t)
  | none, none =>
    if expectedRevision = 0 then
      (some 1, ⟨some ⟨t.nextLayoutId, layoutVersion, 1, layoutJson⟩, t.nextLayoutId + 1⟩)
    else (none, t)

def delete (snapshot : Option LayoutRow) (t : LayoutTable) : LayoutTable :=
  match snapshot, t.row with
  | some found, some row => if row.layoutId = found.layoutId then { t with row := none } else t
  | _, _ => t

end DashboardLayoutRepository

namespace DashboardLayoutService

def requireOverview (dashboardKey : String) : Except ApplicationError Unit :=
  if dashboardKey ≠ dashboardKeyOverview then
    .error ⟨404, "DASHBOARD_LAYOUT_NOT_FOUND", "The dashboard layout key is not supported.", []⟩
  else .ok ()

def response (layoutVersion revision : Nat) (isDefault : Bool) (widgets : List Widget) :
    DashboardLayoutDto :=
  ⟨dashboardKeyOverview, layoutVersion, revision, isDefault, widgets⟩

/-- `get`, with the row that is stored. -/
def get (dashboardKey : String) (stored : Option LayoutRow) :
    Except ApplicationError DashboardLayoutDto := do
  requireOverview dashboardKey
  match stored with
  | none =>
    return response dashboardLayoutVersion 0 true (← defaultOverviewWidgets dashboardLayoutVersion)
  | some row =>
    if row.layoutVersion ∉ supportedDashboardLayoutVersions then
      throw ⟨400, "VALIDATION_ERROR", "The stored dashboard layout version is not supported.", []⟩
    else
      let (widgets, usable) ← mergeStoredOverviewLayout row.layoutJson row.layoutVersion
      return response row.layoutVersion row.revision (!usable) widgets

/-- What `put` does before it stores the layout. -/
def beforePut (dashboardKey : String) (body : PutBody) :
    Except ApplicationError (List Widget) := do
  requireOverview dashboardKey
  validateOverviewLayout body

/-- The end of `put`, with the new revision. -/
def afterPut (body : PutBody) (widgets : List Widget) :
    Option Nat → Except ApplicationError DashboardLayoutDto
  | none => .error ⟨409, "DASHBOARD_LAYOUT_REVISION_CONFLICT",
      "The dashboard layout was changed in another session. Reload it and retry.", []⟩
  | some revision => .ok (response body.layoutVersion revision false widgets)

/-- The end of `delete`. -/
def afterDelete : Except ApplicationError DashboardLayoutDto :=
  return response dashboardLayoutVersion 0 true (← defaultOverviewWidgets dashboardLayoutVersion)

end DashboardLayoutService

/-! ## The system -/

inductive Request
  | get
  | put (body : PutBody) (revision : Nat)
  | delete

inductive Statement
  | upsert (body : PutBody) (widgets : List Widget) (expectedRevision : Nat)
  | delete

inductive Phase
  | idle
  | sent (request : Request)
  | running (snapshot : Option LayoutRow) (statement : Statement)
  | answered (response : Except ApplicationError DashboardLayoutDto) (changes : Nat)

/-- What a session knows from its latest response: a revision. The number of the changes that had
    been made when that response was is kept for the statements below. -/
structure Known where
  revision : Nat
  changes : Nat

structure Session where
  known : Option Known
  phase : Phase

/-- A change of the layout: who made it, did they delete it, and how many changes of the others had
    they missed? -/
structure Change (κ : Type*) where
  session : κ
  removed : Bool
  missed : Nat

structure Sessions (κ : Type*) where
  table : LayoutTable
  sessions : κ → Session
  log : List (Change κ)

namespace Sessions

variable {κ : Type*}

/-- The changes after the first `n` ones. -/
def after (s : Sessions κ) (n : Nat) : List (Change κ) := s.log.take (s.log.length - n)

def since (s : Sessions κ) (k : κ) : List (Change κ) :=
  s.after (((s.sessions k).known.map (·.changes)).getD 0)

def missed [DecidableEq κ] (s : Sessions κ) (k : κ) : Nat :=
  (s.since k).countP fun c => decide (c.session ≠ k)

end Sessions

structure Outcome where
  response : Except ApplicationError DashboardLayoutDto
  table : LayoutTable
  change : Option Bool

def Statement.run (snapshot : Option LayoutRow) (t : LayoutTable) : Statement → Outcome
  | upsert body widgets expectedRevision =>
    let (revision, t') :=
      DashboardLayoutRepository.upsert snapshot body.layoutVersion expectedRevision widgets t
    ⟨DashboardLayoutService.afterPut body widgets revision, t', revision.map fun _ => false⟩
  | delete =>
    let t' := DashboardLayoutRepository.delete snapshot t
    ⟨DashboardLayoutService.afterDelete, t',
      if t.row.isSome && t'.row.isNone then some true else none⟩

/-- The steps of the system. A request that is given up has no effect, and a response that is given
    up is not seen. -/
inductive SessionLabel (κ : Type*)
  | send (k : κ) (request : Request)
  | start (k : κ)
  | commit (k : κ)
  | receive (k : κ)
  | giveUp (k : κ)

def Request.allowed (known : Option Known) : Request → Bool
  | put _ revision => decide (known.map (·.revision) = some revision)
  | _ => true

namespace Sessions

variable {κ : Type*} [DecidableEq κ]

def set (s : Sessions κ) (k : κ) (phase : Phase) : Sessions κ :=
  { s with sessions := Function.update s.sessions k { s.sessions k with phase := phase } }

def start (s : Sessions κ) (k : κ) : Request → Sessions κ
  | .get => s.set k (.answered (DashboardLayoutService.get dashboardKeyOverview s.table.row)
      s.log.length)
  | .put body revision =>
    match DashboardLayoutService.beforePut dashboardKeyOverview body with
    | .error e => s.set k (.answered (.error e) s.log.length)
    | .ok widgets => s.set k (.running s.table.row (.upsert body widgets revision))
  | .delete => s.set k (.running s.table.row .delete)

def commit (s : Sessions κ) (k : κ) (outcome : Outcome) : Sessions κ :=
  let log := (outcome.change.toList.map fun removed => ⟨k, removed, s.missed k⟩) ++ s.log
  { s.set k (.answered outcome.response log.length) with table := outcome.table, log := log }

def receive (s : Sessions κ) (k : κ) (response : Except ApplicationError DashboardLayoutDto)
    (changes : Nat) : Sessions κ :=
  { s with sessions := Function.update s.sessions k {
      known := match response with
        | .ok dto => some ⟨dto.revision, changes⟩
        | .error _ => (s.sessions k).known
      phase := .idle } }

def next (s : Sessions κ) : SessionLabel κ → Option (Sessions κ)
  | .send k request =>
    match (s.sessions k).phase with
    | .idle => if request.allowed (s.sessions k).known then some (s.set k (.sent request)) else none
    | _ => none
  | .start k =>
    match (s.sessions k).phase with
    | .sent request => some (s.start k request)
    | _ => none
  | .commit k =>
    match (s.sessions k).phase with
    | .running snapshot statement => some (s.commit k (statement.run snapshot s.table))
    | _ => none
  | .receive k =>
    match (s.sessions k).phase with
    | .answered response changes => some (s.receive k response changes)
    | _ => none
  | .giveUp k => some (s.set k .idle)

end Sessions

def sessionSystem (κ : Type*) [DecidableEq κ] : System (Sessions κ) (SessionLabel κ) where
  init := ⟨⟨none, 1⟩, fun _ => ⟨none, .idle⟩, []⟩
  next := Sessions.next

def LayoutTable.revision (t : LayoutTable) : Nat := (t.row.map (·.revision)).getD 0

/-! ## The statements -/

section

open DashboardLayoutRepository DashboardLayoutService Option

variable {t : LayoutTable} {snapshot : Option LayoutRow} {statement : Statement}
  {dto : DashboardLayoutDto}

theorem upsert_cases (snapshot : Option LayoutRow) (layoutVersion expectedRevision : Nat)
    (widgets : List Widget) (t : LayoutTable) :
    (∃ t', upsert snapshot layoutVersion expectedRevision widgets t =
        (some (expectedRevision + 1), t') ∧
      t.revision = expectedRevision ∧ t'.revision = expectedRevision + 1) ∨
    ∃ t', upsert snapshot layoutVersion expectedRevision widgets t = (none, t') ∧
      t'.revision = t.revision := by
  obtain ⟨row, nextLayoutId⟩ := t
  cases snapshot with
  | none =>
    cases row with
    | none =>
      by_cases h0 : expectedRevision = 0
      · subst h0
        exact .inl ⟨_, rfl, rfl, rfl⟩
      · exact .inr ⟨_, if_neg h0, rfl⟩
    | some row =>
      by_cases h0 : expectedRevision = 0
      · exact .inr ⟨_, if_pos h0, rfl⟩
      · exact .inr ⟨_, if_neg h0, rfl⟩
  | some found =>
    cases row with
    | none => exact .inr ⟨_, rfl, rfl⟩
    | some row =>
      by_cases h : found.revision = expectedRevision ∧ row.layoutId = found.layoutId ∧
          row.revision = expectedRevision
      · have hrevision := h.2.2
        subst hrevision
        exact .inl ⟨_, if_pos h, rfl, rfl⟩
      · exact .inr ⟨_, if_neg h, rfl⟩

theorem run_cases (snapshot : Option LayoutRow) (t : LayoutTable) (statement : Statement) :
    let o := statement.run snapshot t
    (o.change = none ∧ o.table.revision = t.revision) ∨
    (o.change = some false ∧ o.table.revision = t.revision + 1) ∨ o.change = some true := by
  cases statement with
  | upsert body widgets expectedRevision =>
    obtain ⟨t', h, hold, hnew⟩ | ⟨t', h, hsame⟩ :=
      upsert_cases snapshot body.layoutVersion expectedRevision widgets t
    · simp only [Statement.run, h, map_some]
      exact .inr (.inl ⟨trivial, by rw [hnew, hold]⟩)
    · simp only [Statement.run, h, map_none]
      exact .inl ⟨trivial, hsame⟩
  | delete =>
    obtain ⟨row, nextLayoutId⟩ := t
    cases snapshot with
    | none => cases row <;> exact .inl ⟨rfl, rfl⟩
    | some found =>
      cases row with
      | none => exact .inl ⟨rfl, rfl⟩
      | some row =>
        by_cases h : row.layoutId = found.layoutId
        · simp [Statement.run, delete, h]
        · simp [Statement.run, delete, h]

theorem revision_le_of_run (h : (statement.run snapshot t).response = .ok dto) :
    dto.revision ≤ (statement.run snapshot t).table.revision := by
  cases statement with
  | upsert body widgets expectedRevision =>
    obtain ⟨t', hu, -, hnew⟩ | ⟨t', hu, -⟩ :=
      upsert_cases snapshot body.layoutVersion expectedRevision widgets t
    · simp only [Statement.run, hu, afterPut] at h ⊢
      cases h
      exact hnew.symm.le
    · simp only [Statement.run, hu, afterPut] at h
      cases h
  | delete =>
    cases h
    exact Nat.zero_le _

theorem revision_of_run (h : (statement.run snapshot t).change = some false) :
    ∃ body widgets, statement = .upsert body widgets t.revision := by
  cases statement with
  | upsert body widgets expectedRevision =>
    obtain ⟨t', -, hold, -⟩ | ⟨t', hu, -⟩ :=
      upsert_cases snapshot body.layoutVersion expectedRevision widgets t
    · exact ⟨body, widgets, by rw [hold]⟩
    · simp only [Statement.run, hu, map_none] at h
      cases h
  | delete =>
    simp only [Statement.run] at h
    split_ifs at h
    cases h

theorem revision_get {key : String} (h : get key t.row = .ok dto) :
    dto.revision = t.revision := by
  obtain ⟨row, nextLayoutId⟩ := t
  obtain ⟨-, -, h⟩ := bind_eq_ok.1 h
  cases row with
  | none =>
    obtain ⟨widgets, -, h⟩ := bind_eq_ok.1 h
    cases h
    rfl
  | some row =>
    dsimp only at h
    split_ifs at h
    obtain ⟨⟨widgets, usable⟩, -, h⟩ := bind_eq_ok.1 h
    cases h
    rfl

end

/-! ## Steps -/

section

variable {κ : Type*} [DecidableEq κ] {s t : Sessions κ} {k : κ} {r n : Nat}

inductive Sessions.Step (s : Sessions κ) : SessionLabel κ → Sessions κ → Prop
  | send {k : κ} {request : Request} (hphase : (s.sessions k).phase = .idle)
      (hallowed : request.allowed (s.sessions k).known = true) :
      Step s (.send k request) (s.set k (.sent request))
  | start {k : κ} {request : Request} (hphase : (s.sessions k).phase = .sent request) :
      Step s (.start k) (s.start k request)
  | commit {k : κ} {snapshot : Option LayoutRow} {statement : Statement}
      (hphase : (s.sessions k).phase = .running snapshot statement) :
      Step s (.commit k) (s.commit k (statement.run snapshot s.table))
  | receive {k : κ} {response : Except ApplicationError DashboardLayoutDto} {changes : Nat}
      (hphase : (s.sessions k).phase = .answered response changes) :
      Step s (.receive k) (s.receive k response changes)
  | giveUp {k : κ} : Step s (.giveUp k) (s.set k .idle)

theorem Sessions.next_cases {a : SessionLabel κ} (h : s.next a = some t) : s.Step a t := by
  fun_cases Sessions.next s a <;> simp only [Sessions.next, *] at h <;> try cases h
  all_goals grind [Sessions.Step]

/-- A revision from the time of the first `n` changes: each change since then has stored another
    revision, unless the layout was deleted. -/
def Sessions.Bound (s : Sessions κ) (r n : Nat) : Prop :=
  n ≤ s.log.length ∧
    ((∀ c ∈ s.after n, c.removed = false) → r + (s.log.length - n) ≤ s.table.revision)

omit [DecidableEq κ] in
theorem Sessions.bound_length (h : r ≤ s.table.revision) : s.Bound r s.log.length :=
  ⟨le_rfl, fun _ => by rwa [Nat.sub_self]⟩

omit [DecidableEq κ] in
theorem Sessions.Bound.cons {c : Change κ} (h : s.Bound r n) (hlog : t.log = c :: s.log)
    (hrevision : c.removed = false → t.table.revision = s.table.revision + 1) : t.Bound r n := by
  obtain ⟨hn, h⟩ := h
  have hlength : t.log.length - n = s.log.length - n + 1 := by
    rw [hlog, List.length_cons, Nat.sub_add_comm hn]
  have hafter : t.after n = c :: s.after n := by
    rw [Sessions.after, hlength, hlog, List.take_succ_cons, Sessions.after]
  refine ⟨by rw [hlog]; exact Nat.le_succ_of_le hn, fun hnone => ?_⟩
  rw [hafter, List.forall_mem_cons] at hnone
  rw [hlength, hrevision hnone.1, ← Nat.add_assoc]
  exact Nat.succ_le_succ (h hnone.2)

theorem Sessions.Bound.commit {snapshot : Option LayoutRow} {statement : Statement}
    (h : s.Bound r n) : (s.commit k (statement.run snapshot s.table)).Bound r n := by
  rcases run_cases snapshot s.table statement with ⟨hc, hrev⟩ | ⟨hc, hrev⟩ | hc
  · have hlog : (s.commit k (statement.run snapshot s.table)).log = s.log := by
      rw [Sessions.commit, hc]
      rfl
    rw [Sessions.Bound, Sessions.after, hlog]
    exact ⟨h.1, fun hnone => (h.2 hnone).trans hrev.symm.le⟩
  · exact h.cons (by rw [Sessions.commit, hc]; rfl) fun _ => hrev
  · exact h.cons (c := ⟨k, true, s.missed k⟩) (by rw [Sessions.commit, hc]; rfl) nofun

def Phase.revision? : Phase → Option Nat
  | sent (.put _ revision) | running _ (.upsert _ _ revision) => some revision
  | _ => none

/-- What a session knows, and what it is about to know, are revisions of their time; and a request
    has the revision that the session knows. -/
structure Session.Ok (s : Sessions κ) (x : Session) : Prop where
  known : ∀ u ∈ x.known, s.Bound u.revision u.changes
  answered : ∀ dto n, x.phase = .answered (.ok dto) n → s.Bound dto.revision n
  expected : ∀ r, x.phase.revision? = some r → x.known.map (·.revision) = some r

omit [DecidableEq κ] in
theorem Session.Ok.mono {x : Session} (h : x.Ok s) (hbound : ∀ r n, s.Bound r n → t.Bound r n) :
    x.Ok t :=
  ⟨fun u hu => hbound _ _ (h.known u hu), fun dto n hx => hbound _ _ (h.answered dto n hx),
    h.expected⟩

theorem Sessions.ok_update {x : Session} (h : ∀ j, (s.sessions j).Ok s)
    (hbound : ∀ r n, s.Bound r n → t.Bound r n)
    (ht : t.sessions = Function.update s.sessions k x) (hx : x.Ok t) (j : κ) :
    (t.sessions j).Ok t := by
  rw [ht]
  by_cases hj : j = k
  · rw [hj, Function.update_self]
    exact hx
  · rw [Function.update_of_ne hj]
    exact (h j).mono hbound

theorem Sessions.Step.ok {a : SessionLabel κ} (hstep : s.Step a t)
    (h : ∀ j, (s.sessions j).Ok s) : ∀ j, (t.sessions j).Ok t := by
  cases hstep with
  | @send k request hphase hallowed =>
    refine ok_update h (fun _ _ => id) rfl ⟨(h k).known, nofun, fun r hr => ?_⟩
    cases request with
    | put body revision =>
      cases hr
      exact of_decide_eq_true hallowed
    | get | delete => cases hr
  | @start k request hphase =>
    have hexpected := (h k).expected
    rw [hphase] at hexpected
    cases request with
    | get =>
      refine ok_update h (fun _ _ => id) rfl ⟨(h k).known, fun dto n hanswer => ?_, nofun⟩
      obtain ⟨hdto, rfl⟩ := Phase.answered.inj hanswer
      exact bound_length (revision_get hdto).le
    | put body revision =>
      simp only [Sessions.start]
      split
      · exact ok_update h (fun _ _ => id) rfl ⟨(h k).known, nofun, nofun⟩
      · exact ok_update h (fun _ _ => id) rfl ⟨(h k).known, nofun, hexpected⟩
    | delete => exact ok_update h (fun _ _ => id) rfl ⟨(h k).known, nofun, nofun⟩
  | @commit k snapshot statement hphase =>
    refine ok_update h (fun _ _ => Bound.commit) rfl
      ⟨fun u hu => ((h k).known u hu).commit, fun dto n hanswer => ?_, nofun⟩
    obtain ⟨hdto, rfl⟩ := Phase.answered.inj hanswer
    exact bound_length (revision_le_of_run hdto)
  | @receive k response changes hphase =>
    refine ok_update h (fun _ _ => id) rfl ⟨fun u hu => ?_, nofun, nofun⟩
    cases response with
    | ok dto =>
      cases hu
      exact (h k).answered dto changes hphase
    | error e => exact (h k).known u hu
  | @giveUp k => exact ok_update h (fun _ _ => id) rfl ⟨(h k).known, nofun, nofun⟩

theorem ok_of_reachable (h : (sessionSystem κ).Reachable System.always s) (j : κ) :
    (s.sessions j).Ok s := by
  refine h.invariant (I := fun s => ∀ j, (s.sessions j).Ok s) ?_ ?_ j
  · exact fun _ => ⟨nofun, nofun, nofun⟩
  · exact fun s a t _ hs _ hstep => (Sessions.next_cases hstep).ok hs

omit [DecidableEq κ] in
/-- A session that stores a layout knows all the changes, if the layout was not deleted since its
    latest response. -/
theorem Sessions.since_eq_nil {body : PutBody} {widgets : List Widget}
    {snapshot : Option LayoutRow} (hok : (s.sessions k).Ok s)
    (hphase : (s.sessions k).phase = .running snapshot (.upsert body widgets s.table.revision))
    (hremoved : ∀ c ∈ s.since k, c.removed = false) : s.since k = [] := by
  have hrevision := hok.expected s.table.revision (by rw [hphase]; rfl)
  obtain ⟨⟨r, n⟩, hknown, hr⟩ := Option.map_eq_some_iff.1 hrevision
  have hsince : s.since k = s.after n := by rw [Sessions.since, hknown]; rfl
  -- The table has the revision that the session knows, so that nothing was stored after it.
  have hbound : r + (s.log.length - n) ≤ s.table.revision :=
    (hok.known _ hknown).2 (hsince ▸ hremoved)
  have hlength : s.log.length - n = 0 := by
    rw [← hr] at hbound
    exact Nat.le_zero.1 (Nat.le_of_add_le_add_left hbound)
  rw [hsince, Sessions.after, hlength, List.take_zero]

def notRemoved (s : Sessions κ) : SessionLabel κ → Bool
  | .commit k =>
    match (s.sessions k).phase with
    | .running _ (.upsert ..) => (s.since k).all fun c => !c.removed
    | _ => true
  | _ => true

def NotRemoved (s : Sessions κ) (a : SessionLabel κ) : Prop := notRemoved s a = true

instance (s : Sessions κ) (a : SessionLabel κ) : Decidable (NotRemoved s a) :=
  inferInstanceAs (Decidable (_ = true))

/-- No session stores a layout over a change that it has not seen. -/
theorem missed_eq_zero (h : (sessionSystem κ).Reachable NotRemoved s) :
    ∀ c ∈ s.log, c.removed = false → c.missed = 0 := by
  refine h.invariant (I := fun s => ∀ c ∈ s.log, c.removed = false → c.missed = 0) nofun ?_
  intro s a t hs hlog hremoved hnext c hc hstored
  have hok := ok_of_reachable hs.to_always
  cases Sessions.next_cases hnext with
  | @commit k snapshot statement hphase =>
    rcases List.mem_append.1 hc with hc | hc
    · -- The change is the one of this step.
      obtain ⟨removed, hchange, rfl⟩ := List.mem_map.1 hc
      cases hstored
      obtain ⟨body, widgets, rfl⟩ := revision_of_run (Option.mem_toList.1 hchange)
      simp only [NotRemoved, notRemoved, hphase, List.all_eq_true, Bool.not_eq_true'] at hremoved
      rw [Sessions.missed, Sessions.since_eq_nil (hok k) hphase hremoved, List.countP_nil]
    · exact hlog c hc hstored
  | @start k request hphase =>
    have hsame : (s.start k request).log = s.log := by
      cases request with
      | put body revision =>
        simp only [Sessions.start]
        split <;> rfl
      | get | delete => rfl
    exact hlog c (hsame ▸ hc) hstored
  | send | receive | giveUp => exact hlog c hc hstored

end

/-- A layout with the state of the platform `h` rows high, and the rest of the registry below. -/
def stateLayout (h : Nat) : PutBody := ⟨2, [⟨"edr-state", 0, 0, 12, h, false⟩]⟩

def reloadedRun : List (SessionLabel Bool) :=
  [.send true .get, .start true, .receive true,
    .send true (.put (stateLayout 2) 0), .start true, .commit true, .receive true,
    .send false .get, .start false, .receive false,
    .send false (.put (stateLayout 3) 1), .start false, .commit false]

theorem missed_eq_zero_reloadedRun :
    ∃ s, (sessionSystem Bool).runIf NotRemoved (sessionSystem Bool).init reloadedRun = some s ∧
      s.log.map (·.session) = [false, true] ∧ ∀ c ∈ s.log, c.removed = false → c.missed = 0 := by
  have hrun : (sessionSystem Bool).runIf NotRemoved (sessionSystem Bool).init reloadedRun =
    some _ := rfl
  exact ⟨_, hrun, rfl, missed_eq_zero (System.reachable_of_runIf hrun)⟩

/-! ## A layout that was not seen -/

def replacedRun : List (SessionLabel Bool) :=
  [.send false .get, .start false, .receive false,
    .send false (.put (stateLayout 2) 0), .start false, .commit false, .receive false,
    .send true .delete, .start true, .commit true, .receive true,
    .send true (.put (stateLayout 3) 0), .start true, .commit true, .receive true,
    .send false (.put (stateLayout 4) 1), .start false, .commit false]

/-- A session stores a layout over one that it has not seen: it has missed the deletion of its own
    layout, and the layout that was stored then. -/
theorem put_over_unseen :
    ∃ s, (sessionSystem Bool).run (sessionSystem Bool).init replacedRun = some s ∧
      s.log = [⟨false, false, 2⟩, ⟨true, false, 0⟩, ⟨true, true, 1⟩, ⟨false, false, 0⟩] ∧
      ¬∀ c ∈ s.log, c.removed = false → c.missed = 0 :=
  ⟨_, rfl, rfl, fun h => absurd (h ⟨false, false, 2⟩ List.mem_cons_self rfl) (by decide)⟩

end Edr.Layout
