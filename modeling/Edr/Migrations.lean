import Edr.Lib.Connection
import Edr.Migrations.Statements

/-!
# The migrations of PostgreSQL

When the service is deployed, `_apply_versioned_postgres_migrations` applies the migration files that
have no row in `schema_migrations` yet, in the order of their names, and adds a row for each. The
first six files are only recorded.
-/

namespace Edr.Migrations

open List Client

/-! ## The database -/

/-- What the statements of the files have done, and the table `schema_migrations`. A table that does
    not exist has no rows. -/
structure Db where
  effects : List (String × String)
  /-- `migration_name`, `checksum_sha256`. -/
  schemaMigrations : List (String × String)

namespace Db

def run (name : String) (statements : List String) (db : Db) : Db :=
  { db with effects := db.effects ++ statements.map fun statement => (name, statement) }

/-- A row of `schema_migrations`. -/
def record (name checksum : String) (db : Db) : Db :=
  { db with schemaMigrations := db.schemaMigrations ++ [(name, checksum)] }

def Recorded (name : String) (db : Db) : Prop := name ∈ db.schemaMigrations.map (·.1)

instance (name : String) (db : Db) : Decidable (db.Recorded name) :=
  inferInstanceAs (Decidable (_ ∈ _))

def effectsOf (name : String) (db : Db) : List String :=
  (db.effects.filter fun effect => effect.1 = name).map (·.2)

end Db

/-! ## The files -/

structure MigrationFile where
  name : String
  text : String

/-- The files `*.up.sql` of the directory, in the order of their names. -/
structure MigrationDirectory where
  paths : List MigrationFile
  sorted : paths.Pairwise fun path path' => path.name < path'.name

structure Env where
  classes : CharClasses
  sha256 : String → String

def postgresBaselineMigrations : List String :=
  ["0001_initial.up.sql", "0002_user_login_id.up.sql", "0003_user_locale.up.sql",
    "0004_user_dashboard_layouts.up.sql", "0005_query_search_sort_indexes.up.sql",
    "0006_backend_hardening.up.sql"]

/-! ## The program -/

inductive MigrationError
  /-- `unterminated quoted string or comment in SQL migration`. -/
  | unterminated
  /-- `PostgreSQL migration checksum drift: ..`. -/
  | checksumDrift (name : String)
  /-- The primary key of `schema_migrations`. -/
  | uniqueViolation

abbrev Program := Client Db (List Db) MigrationError

/-- `connection.execute(..)`. -/
def execute {α : Type} (f : Db → α × Db) : Program α := do
  .note
  .execute f

def commit : Program PUnit := do
  .note
  .commit

def executeAll (name : String) : List String → Program PUnit
  | [] => pure ⟨⟩
  | statement :: statements => do
    execute fun db => (.unit, db.run name [statement])
    executeAll name statements

/-- `INSERT INTO schema_migrations`. -/
def insertMigration (name checksum : String) : Program PUnit := do
  let inserted ← execute fun db =>
    if db.Recorded name then (false, db) else (true, db.record name checksum)
  if inserted then pure ⟨⟩ else raise .uniqueViolation

/-- `SELECT migration_name, checksum_sha256 FROM schema_migrations`. -/
def selectMigrations : Program (List (String × String)) :=
  execute fun db => (db.schemaMigrations, db)

variable (env : Env)

def applyPostgresFile (path : MigrationFile) : Program PUnit :=
  transaction (match splitSqlStatements env.classes path.text with
    | some statements => executeAll path.name statements
    | none => raise .unterminated)

def recordBaseline : List MigrationFile → Program PUnit
  | [] => pure ⟨⟩
  | path :: paths => do
    if path.name ∈ postgresBaselineMigrations then
      insertMigration path.name (env.sha256 path.text)
    recordBaseline paths

def applyPending (applied : List (String × String)) : List MigrationFile → Program PUnit
  | [] => pure ⟨⟩
  | path :: paths =>
    match applied.lookup path.name with
    | some recorded =>
      if recorded ≠ env.sha256 path.text then raise (.checksumDrift path.name)
      else applyPending applied paths
    | none => do
      applyPostgresFile env path
      insertMigration path.name (env.sha256 path.text)
      commit
      applyPending applied paths

def applyVersionedPostgresMigrations (dir : MigrationDirectory) : Program PUnit := do
  -- `CREATE TABLE IF NOT EXISTS schema_migrations`
  execute fun db => (.unit, db)
  commit
  let applied ← selectMigrations
  if applied.isEmpty then
    recordBaseline env dir.paths
    commit
    let applied ← selectMigrations
    applyPending env applied dir.paths
  else applyPending env applied dir.paths

/-! ## The files that a run comes to -/

def MigrationFile.statements (path : MigrationFile) : List String :=
  (splitSqlStatements env.classes path.text).getD []

def baselineRows (paths : List MigrationFile) : List (String × String) :=
  (paths.filter fun path => decide (path.name ∈ postgresBaselineMigrations)).map fun path =>
    (path.name, env.sha256 path.text)

/-- The rows of `schema_migrations` that the loop goes by: the table as it is, or the baseline if it
    is empty. -/
def appliedBefore (dir : MigrationDirectory) (db : Db) : List (String × String) :=
  if db.schemaMigrations.isEmpty then baselineRows env dir.paths else db.schemaMigrations

def pendingOf (applied : List (String × String)) (paths : List MigrationFile) :
    List MigrationFile :=
  paths.filter fun path => (applied.lookup path.name).isNone

def passes (applied : List (String × String)) (path : MigrationFile) : Bool :=
  match applied.lookup path.name with
  | some recorded => decide (recorded = env.sha256 path.text)
  | none => (splitSqlStatements env.classes path.text).isSome

def reachedOf (applied : List (String × String)) (paths : List MigrationFile) :
    List MigrationFile :=
  pendingOf applied (paths.takeWhile (passes env applied))

def Applied (path : MigrationFile) (db : Db) : Prop :=
  db.effectsOf path.name = if db.Recorded path.name then path.statements env else []

instance (path : MigrationFile) (db : Db) : Decidable (Applied env path db) :=
  inferInstanceAs (Decidable (_ = _))

/-- In this state, what the files have done is what their rows say. -/
abbrev AllApplied (paths : List MigrationFile) (db : Db) : Prop := ∀ path ∈ paths, Applied env path db

/-! ## What the statements do -/

section

variable {env} {c w : Db} {l : List Db}

theorem effectsOf_run (name name' : String) (statements : List String) (db : Db) :
    (db.run name statements).effectsOf name' =
      db.effectsOf name' ++ if name = name' then statements else [] := by
  rw [Db.effectsOf, Db.run, filter_append, map_append]
  congr 1
  split_ifs with h
  · rw [filter_eq_self.2, map_map]
    · exact map_id _
    · intro effect heffect
      obtain ⟨statement, -, rfl⟩ := mem_map.1 heffect
      exact decide_eq_true h
  · rw [filter_eq_nil_iff.2, map_nil]
    intro effect heffect
    obtain ⟨statement, -, rfl⟩ := mem_map.1 heffect
    exact fun hname => h (of_decide_eq_true hname)

theorem run_nil (name : String) (db : Db) : db.run name [] = db := by
  rw [Db.run, map_nil, append_nil]

theorem recorded_record {name name' checksum : String} {db : Db} :
    (db.record name checksum).Recorded name' ↔ db.Recorded name' ∨ name' = name := by
  rw [Db.Recorded, Db.record, map_append, mem_append, map_singleton,
    mem_singleton, Db.Recorded]

theorem executeAll_apply (name : String) (statements : List String) :
    executeAll name statements ⟨c, some w, l⟩ =
      (.ok ⟨⟩, ⟨c, some (w.run name statements), l ++ List.replicate statements.length c⟩) := by
  induction statements generalizing w l with
  | nil => simp [executeAll, Db.run, pure]
  | cons statement statements ih =>
    have hrun :
        (w.run name [statement]).run name statements = w.run name (statement :: statements) := by
      simp [Db.run]
    refine (Client.bind_of_ok (t := ⟨c, some (w.run name [statement]), l ++ [c]⟩) rfl).trans ?_
    rw [ih, hrun, append_assoc, singleton_append, length_cons, replicate_succ]

theorem insertMigration_apply {name : String} (checksum : String) {w : Option Db}
    (h : ¬ (w.getD c).Recorded name) :
    insertMigration name checksum ⟨c, w, l⟩ =
      (.ok ⟨⟩, ⟨c, some ((w.getD c).record name checksum), l ++ [c]⟩) := by
  have hexecute : execute (fun db : Db =>
      if db.Recorded name then (false, db) else (true, db.record name checksum)) ⟨c, w, l⟩ =
      (.ok true, ⟨c, some ((w.getD c).record name checksum), l ++ [c]⟩) := by
    change ((.ok (ite ((w.getD c).Recorded name) _ _ : Bool × Db).1,
      ⟨c, some (ite ((w.getD c).Recorded name) _ _ : Bool × Db).2, l ++ [c]⟩) :
        Except MigrationError Bool × Session Db (List Db)) = _
    rw [if_neg h]
  exact Client.bind_of_ok hexecute

theorem applyPostgresFile_open {path : MigrationFile} {statements : List String}
    (h : splitSqlStatements env.classes path.text = some statements) :
    applyPostgresFile env path ⟨c, some w, l⟩ =
      (.ok ⟨⟩, ⟨c, some (w.run path.name statements), l ++ List.replicate statements.length c⟩) := by
  rw [applyPostgresFile, h]
  exact transaction_of_ok rfl (executeAll_apply path.name statements)

theorem applyPostgresFile_idle {path : MigrationFile} {statements : List String}
    (h : splitSqlStatements env.classes path.text = some statements) :
    applyPostgresFile env path ⟨c, none, l⟩ =
      (.ok ⟨⟩, ⟨c.run path.name statements, none, l ++ List.replicate statements.length c⟩) := by
  rw [applyPostgresFile, h]
  exact transaction_of_idle rfl (executeAll_apply path.name statements)

theorem applyPostgresFile_unterminated {path : MigrationFile} {w : Option Db}
    (h : splitSqlStatements env.classes path.text = none) :
    applyPostgresFile env path ⟨c, w, l⟩ = (.error .unterminated, ⟨c, w, l⟩) := by
  rw [applyPostgresFile, h]
  cases w <;> rfl

theorem recordBaseline_apply (env : Env) (c : Db) (l : List Db) {paths : List MigrationFile}
    (hdistinct : paths.Pairwise fun path path' => path.name ≠ path'.name)
    (hnew : ∀ path ∈ paths, ¬ w.Recorded path.name) :
    ∃ n, recordBaseline env paths ⟨c, some w, l⟩ =
      (.ok ⟨⟩, ⟨c, some { w with
        schemaMigrations := w.schemaMigrations ++ baselineRows env paths },
        l ++ replicate n c⟩) := by
  induction paths generalizing w l with
  | nil => exact ⟨0, by simp [recordBaseline, baselineRows, pure]⟩
  | cons path paths ih =>
    obtain ⟨hpath, hdistinct⟩ := pairwise_cons.1 hdistinct
    obtain ⟨hnot, hnew⟩ := forall_mem_cons.1 hnew
    by_cases hbaseline : path.name ∈ postgresBaselineMigrations
    · obtain ⟨n, hn⟩ := @ih (w.record path.name (env.sha256 path.text)) (l ++ [c]) hdistinct
        fun path' hpath' hrecorded => (recorded_record.1 hrecorded).elim (hnew path' hpath')
          (hpath path' hpath').symm
      refine ⟨n + 1, ?_⟩
      rw [recordBaseline, if_pos hbaseline]
      refine (bind_of_ok (insertMigration_apply _ hnot)).trans (hn.trans ?_)
      simp [Db.record, baselineRows, hbaseline, replicate_succ]
    · obtain ⟨n, hn⟩ := @ih w l hdistinct hnew
      refine ⟨n, ?_⟩
      rw [recordBaseline, if_neg hbaseline]
      refine (bind_of_ok rfl).trans (hn.trans ?_)
      simp [baselineRows, hbaseline]

end

/-! ## The loop -/

section

variable {env} {applied : List (String × String)} {pending : List MigrationFile}
  {path : MigrationFile} {paths : List MigrationFile} {c : Db} {l : List Db}

theorem applied_run_iff (hc : AllApplied env pending c) (hpath : path ∈ pending)
    (hnew : ¬ c.Recorded path.name) :
    AllApplied env pending (c.run path.name (path.statements env)) ↔ path.statements env = [] := by
  constructor
  · intro h
    have hrun := h path hpath
    rw [Applied, effectsOf_run, if_pos rfl, hc path hpath, if_neg hnew, nil_append] at hrun
    exact hrun.trans (if_neg hnew)
  · intro hempty path' hpath'
    rw [hempty, Applied, effectsOf_run, ite_self, append_nil]
    exact hc path' hpath'

theorem applied_record (hnames : ∀ p ∈ pending, ∀ p' ∈ pending, p.name = p'.name → p = p')
    (hc : AllApplied env pending c) (hpath : path ∈ pending) (hnew : ¬ c.Recorded path.name)
    (checksum : String) : AllApplied env pending
      ((c.run path.name (path.statements env)).record path.name checksum) := by
  intro path' hpath'
  have hrun : ((c.run path.name (path.statements env)).record path.name checksum).effectsOf
      path'.name = _ := effectsOf_run path.name path'.name (path.statements env) c
  rw [Applied, hrun, hc path' hpath']
  by_cases hname : path.name = path'.name
  · cases hnames path hpath path' hpath' hname
    rw [if_neg hnew, if_pos rfl, if_pos (recorded_record.2 (.inr rfl)), nil_append]
  · rw [if_neg hname, append_nil]
    refine if_congr ?_ rfl rfl
    rw [recorded_record]
    exact ⟨.inl, fun h => h.elim id fun h => absurd h.symm hname⟩

def New (applied : List (String × String)) (pending paths : List MigrationFile) (c : Db) : Prop :=
  ∀ path ∈ paths, applied.lookup path.name = none → path ∈ pending ∧ ¬ c.Recorded path.name

theorem New.record (h : New applied pending (path :: paths) c)
    (hdistinct : (path :: paths).Pairwise fun path path' => path.name ≠ path'.name)
    (statements : List String) (checksum : String) :
    New applied pending paths ((c.run path.name statements).record path.name checksum) := by
  intro path' hpath' hlookup
  obtain ⟨hmem, hnew⟩ := h path' (mem_cons_of_mem _ hpath') hlookup
  refine ⟨hmem, fun hrecorded => ?_⟩
  rcases recorded_record.1 hrecorded with hrecorded | hname
  · exact hnew hrecorded
  · exact (pairwise_cons.1 hdistinct).1 path' hpath' hname.symm

/-- What becomes of the next file: the loop ends before it does anything, or it skips the file, or it
    applies it. -/
theorem applyPending_cons (env : Env) (applied : List (String × String)) (path : MigrationFile)
    (paths : List MigrationFile) (c : Db) (w : Option Db) (l : List Db) :
    ((applyPending env applied (path :: paths) ⟨c, w, l⟩).2 = ⟨c, w, l⟩ ∧
      reachedOf env applied (path :: paths) = []) ∨
    (applyPending env applied (path :: paths) ⟨c, w, l⟩ =
        applyPending env applied paths ⟨c, w, l⟩ ∧
      reachedOf env applied (path :: paths) = reachedOf env applied paths) ∨
    (applied.lookup path.name = none ∧
      splitSqlStatements env.classes path.text = some (path.statements env) ∧
      reachedOf env applied (path :: paths) = path :: reachedOf env applied paths) := by
  cases hlookup : applied.lookup path.name with
  | some recorded =>
    by_cases hsum : recorded = env.sha256 path.text
    · refine .inr (.inl ⟨?_, ?_⟩)
      · simp [applyPending, hlookup, hsum]
      · simp [reachedOf, pendingOf, passes, hlookup, hsum]
    · refine .inl ⟨?_, ?_⟩
      · simp [applyPending, hlookup, hsum, raise]
      · simp [reachedOf, pendingOf, passes, hlookup, hsum]
  | none =>
    cases hsplit : splitSqlStatements env.classes path.text with
    | none =>
      refine .inl ⟨?_, ?_⟩
      · simp only [applyPending, hlookup]
        rw [bind_of_error (applyPostgresFile_unterminated hsplit)]
      · simp [reachedOf, pendingOf, passes, hlookup, hsplit]
    | some statements =>
      refine .inr (.inr ⟨rfl, ?_, ?_⟩)
      · rw [MigrationFile.statements, hsplit, Option.getD_some]
      · simp [reachedOf, pendingOf, passes, hlookup, hsplit]

theorem applyPending_of_file {c' d : Db} {w w' : Option Db} {l' : List Db}
    (hlookup : applied.lookup path.name = none)
    (hfile : applyPostgresFile env path ⟨c, w, l⟩ = (.ok ⟨⟩, ⟨c', w', l'⟩)) (hd : w'.getD c' = d)
    (hnew : ¬ d.Recorded path.name) :
    applyPending env applied (path :: paths) ⟨c, w, l⟩ =
      applyPending env applied paths
        ⟨d.record path.name (env.sha256 path.text), none, l' ++ [c', c']⟩ := by
  subst hd
  simp only [applyPending, hlookup]
  refine (bind_of_ok hfile).trans ?_
  refine (bind_of_ok (insertMigration_apply _ hnew)).trans ?_
  rw [Client.bind_of_ok (m := commit) rfl, append_assoc _ [_] [_]]
  rfl

variable (hnames : ∀ p ∈ pending, ∀ p' ∈ pending, p.name = p'.name → p = p')
  (hdistinct : paths.Pairwise fun path path' => path.name ≠ path'.name)
  (hnew : New applied pending paths c)

include hnames hdistinct hnew

theorem applied_applyPending_idle :
    (∀ d ∈ (applyPending env applied paths ⟨c, none, l⟩).2.leaves, AllApplied env pending d) ↔
      (∀ d ∈ l ++ [c], AllApplied env pending d) ∧
        ∀ path ∈ reachedOf env applied paths, path.statements env = [] := by
  induction paths generalizing c l with
  | nil => simp [applyPending, pure, Session.leaves, reachedOf, pendingOf]
  | cons path paths ih =>
    have hrest := (pairwise_cons.1 hdistinct).2
    obtain ⟨hend, hreached⟩ | ⟨hskip, hreached⟩ | ⟨hlookup, hsplit, hreached⟩ :=
      applyPending_cons env applied path paths c none l
    · rw [hend, hreached]
      simp [Session.leaves]
    · rw [hskip, hreached]
      exact ih hrest fun path' hpath' => hnew path' (mem_cons_of_mem _ hpath')
    · obtain ⟨hmem, hnot⟩ := hnew path mem_cons_self hlookup
      rw [applyPending_of_file hlookup (applyPostgresFile_idle hsplit) rfl (by exact hnot), hreached,
        forall_mem_cons]
      refine (ih hrest (hnew.record hdistinct _ _)).trans ?_
      rw [← and_assoc]
      refine and_congr_left' ⟨fun h => ?_, fun ⟨h, hempty⟩ => ?_⟩
      · obtain ⟨hl, hcopies, hrun⟩ : (∀ d ∈ l, AllApplied env pending d) ∧
            (∀ d ∈ replicate (path.statements env).length c, AllApplied env pending d) ∧
            AllApplied env pending (c.run path.name (path.statements env)) :=
          ⟨fun d hd => h d (by simp [hd]), fun d hd => h d (by simp [mem_replicate.1 hd]),
            h _ (by simp)⟩
        have hc : AllApplied env pending c := by
          by_cases hempty : path.statements env = []
          · rwa [hempty, run_nil] at hrun
          · exact hcopies c (mem_replicate.2 ⟨mt length_eq_zero_iff.1 hempty, rfl⟩)
        exact ⟨forall_mem_append.2 ⟨hl, forall_mem_singleton.2 hc⟩,
          (applied_run_iff hc hmem hnot).1 hrun⟩
      · obtain ⟨hl, hc⟩ := forall_mem_append.1 h
        have hrow := applied_record hnames (forall_mem_singleton.1 hc) hmem hnot
          (env.sha256 path.text)
        simp only [hempty, run_nil, length_nil, replicate_zero, append_nil] at hrow ⊢
        simpa [or_imp, forall_and] using ⟨hl, forall_mem_singleton.1 hc, hrow⟩

theorem applied_applyPending_open :
    (∀ d ∈ (applyPending env applied paths ⟨c, some c, l⟩).2.leaves, AllApplied env pending d) ↔
      (∀ d ∈ l ++ [c], AllApplied env pending d) ∧
        ∀ path ∈ (reachedOf env applied paths).tail, path.statements env = [] := by
  induction paths with
  | nil => simp [applyPending, pure, Session.leaves, reachedOf, pendingOf]
  | cons path paths ih =>
    have hrest := (pairwise_cons.1 hdistinct).2
    obtain ⟨hend, hreached⟩ | ⟨hskip, hreached⟩ | ⟨hlookup, hsplit, hreached⟩ :=
      applyPending_cons env applied path paths c (some c) l
    · rw [hend, hreached]
      simp [Session.leaves]
    · rw [hskip, hreached]
      exact ih hrest fun path' hpath' => hnew path' (mem_cons_of_mem _ hpath')
    · obtain ⟨hmem, hnot⟩ := hnew path mem_cons_self hlookup
      rw [applyPending_of_file hlookup (applyPostgresFile_open hsplit) rfl (by exact hnot), hreached,
        tail_cons]
      refine (applied_applyPending_idle hnames hrest (hnew.record hdistinct _ _)).trans ?_
      refine and_congr_left' ⟨fun h => ?_, fun h => ?_⟩
      · refine fun d hd => h d ?_
        rcases mem_append.1 hd with hd | hd
        · simp [hd]
        · simp [mem_singleton.1 hd]
      · obtain ⟨hl, hc⟩ := forall_mem_append.1 h
        have hc := forall_mem_singleton.1 hc
        have hrow := applied_record hnames hc hmem hnot (env.sha256 path.text)
        simpa [or_imp, forall_and] using ⟨hl, fun _ => hc, hc, hrow⟩

end

/-! ## Every crash -/

section

variable {env} {dir : MigrationDirectory} {c : Db} {w : Option Db}

def pendingFiles (env : Env) (dir : MigrationDirectory) (db : Db) : List MigrationFile :=
  pendingOf (appliedBefore env dir db) dir.paths

/-- The function is called in a database in which the pending files have no effects and no rows. The
    connection may have a transaction open. -/
structure Clean (env : Env) (dir : MigrationDirectory) (c : Db) (w : Option Db) : Prop where
  not_recorded : ∀ path ∈ pendingFiles env dir (w.getD c), ¬ c.Recorded path.name
  effects : ∀ path ∈ pendingFiles env dir (w.getD c), c.effectsOf path.name = []
  effects_seen : ∀ path ∈ pendingFiles env dir (w.getD c), (w.getD c).effectsOf path.name = []

def atLoop (env : Env) (dir : MigrationDirectory) (db : Db) : Db :=
  { db with schemaMigrations := appliedBefore env dir db }

theorem distinct_paths (dir : MigrationDirectory) :
    dir.paths.Pairwise fun path path' => path.name ≠ path'.name :=
  dir.sorted.imp fun h => ne_of_lt h

theorem eq_of_name {path path' : MigrationFile} (hpath : path ∈ dir.paths)
    (hpath' : path' ∈ dir.paths) (h : path.name = path'.name) : path = path' :=
  inj_on_of_nodup_map (pairwise_map.2 (distinct_paths dir)) hpath hpath' h

theorem lookup_eq_none_iff_not_recorded {rows : List (String × String)} {name : String} :
    rows.lookup name = none ↔ name ∉ rows.map (·.1) := by
  rw [lookup_eq_none_iff]
  constructor
  · intro h hname
    obtain ⟨row, hrow, rfl⟩ := mem_map.1 hname
    simpa using h row hrow
  · intro h row hrow
    exact bne_iff_ne.2 fun e => h (mem_map.2 ⟨row, hrow, e.symm⟩)

/-- The function comes to its loop with nothing durable but what was durable or seen before, and
    then the baseline. -/
theorem applyVersionedPostgresMigrations_eq (env : Env) (dir : MigrationDirectory) (c : Db)
    (w : Option Db) :
    ∃ l, (∀ d ∈ l, d = c ∨ d = w.getD c ∨ d = atLoop env dir (w.getD c)) ∧
      applyVersionedPostgresMigrations env dir ⟨c, w, []⟩ =
        applyPending env (appliedBefore env dir (w.getD c)) dir.paths
          ⟨atLoop env dir (w.getD c), some (atLoop env dir (w.getD c)), l⟩ := by
  set v := w.getD c with hv
  have hselect : applyVersionedPostgresMigrations env dir ⟨c, w, []⟩ =
      (if v.schemaMigrations.isEmpty then do
        recordBaseline env dir.paths
        commit
        let applied ← selectMigrations
        applyPending env applied dir.paths
      else applyPending env v.schemaMigrations dir.paths : Program PUnit)
        ⟨v, some v, [c, c, v]⟩ := rfl
  rw [hselect]
  by_cases hempty : v.schemaMigrations.isEmpty
  · have hnew : ∀ path ∈ dir.paths, ¬ v.Recorded path.name := by
      simp [Db.Recorded, isEmpty_iff.1 hempty]
    obtain ⟨n, hn⟩ := recordBaseline_apply env v [c, c, v] (distinct_paths dir) hnew
    have happlied : appliedBefore env dir v = v.schemaMigrations ++ baselineRows env dir.paths := by
      rw [appliedBefore, if_pos hempty, isEmpty_iff.1 hempty, nil_append]
    rw [if_pos hempty]
    refine ⟨[c, c, v] ++ replicate n v ++ [v] ++ [atLoop env dir v], ?_, ?_⟩
    · intro d hd
      simp only [mem_append, mem_cons, not_mem_nil, or_false, mem_replicate] at hd
      tauto
    · refine (Client.bind_of_ok hn).trans ?_
      rw [atLoop, happlied]
      rfl
  · rw [if_neg hempty]
    have happlied : appliedBefore env dir v = v.schemaMigrations := if_neg hempty
    refine ⟨[c, c, v], ?_, ?_⟩
    · intro d hd
      simp only [mem_cons, not_mem_nil, or_false] at hd
      tauto
    · rw [atLoop, happlied]

theorem Clean.applied (h : Clean env dir c w) {d : Db}
    (hd : d = c ∨ d = w.getD c ∨ d = atLoop env dir (w.getD c)) :
    AllApplied env (pendingFiles env dir (w.getD c)) d := by
  intro path hpath
  have hnone : ¬ (atLoop env dir (w.getD c)).Recorded path.name :=
    lookup_eq_none_iff_not_recorded.1 (Option.isNone_iff_eq_none.1 (mem_filter.1 hpath).2)
  have hseen : ¬ (w.getD c).Recorded path.name := by
    intro hrecorded
    have hne : ¬ (w.getD c).schemaMigrations.isEmpty := by
      intro hempty
      rw [Db.Recorded, isEmpty_iff.1 hempty] at hrecorded
      exact absurd hrecorded not_mem_nil
    rw [Db.Recorded, atLoop, appliedBefore, if_neg hne] at hnone
    exact hnone hrecorded
  rw [Applied]
  rcases hd with rfl | rfl | rfl
  · rw [if_neg (h.not_recorded path hpath), h.effects path hpath]
  · rw [if_neg hseen, h.effects_seen path hpath]
  · rw [if_neg hnone]
    exact h.effects_seen path hpath

/-- Wherever the process is stopped, the effects of every pending migration are there once if its row
    is, and not at all otherwise, if and only if no file that the run applies, except the first, has
    a statement. -/
theorem applied_iff (env : Env) (dir : MigrationDirectory) (c : Db) (w : Option Db)
    (h : Clean env dir c w) :
    (∀ d ∈ (applyVersionedPostgresMigrations env dir).crashStates ⟨c, w, []⟩,
      AllApplied env (pendingFiles env dir (w.getD c)) d) ↔
      ∀ path ∈ (reachedOf env (appliedBefore env dir (w.getD c)) dir.paths).tail,
        path.statements env = [] := by
  obtain ⟨l, hl, heq⟩ := applyVersionedPostgresMigrations_eq env dir c w
  rw [crashStates, heq]
  refine (applied_applyPending_open ?_ (distinct_paths dir) ?_).trans (and_iff_right ?_)
  · intro path hpath path' hpath'
    exact eq_of_name (mem_of_mem_filter hpath) (mem_of_mem_filter hpath')
  · intro path hpath hlookup
    exact ⟨mem_filter.2 ⟨hpath, Option.isNone_iff_eq_none.2 hlookup⟩,
      lookup_eq_none_iff_not_recorded.1 hlookup⟩
  · intro d hd
    rcases mem_append.1 hd with hd | hd
    · exact h.applied (hl d hd)
    · exact h.applied (.inr (.inr (mem_singleton.1 hd)))

end

def sampleEnv : Env := ⟨⟨Char.isAlphanum, Char.isDigit⟩, id⟩

def oneFile : MigrationDirectory := ⟨[⟨"0007.up.sql", "a; b"⟩], by decide⟩

def twoFiles : MigrationDirectory :=
  ⟨[⟨"0007.up.sql", "a"⟩, ⟨"0008.up.sql", "b"⟩], by decide⟩

/-- A single file is left with its row or not at all. -/
theorem applied_iff_oneFile :
    Clean sampleEnv oneFile ⟨[], []⟩ none ∧
      ∀ d ∈ (applyVersionedPostgresMigrations sampleEnv oneFile).crashStates ⟨⟨[], []⟩, none, []⟩,
        AllApplied sampleEnv (pendingFiles sampleEnv oneFile ⟨[], []⟩) d := by
  have hclean : Clean sampleEnv oneFile ⟨[], []⟩ none :=
    ⟨by decide +kernel, by decide +kernel, by decide +kernel⟩
  exact ⟨hclean, (applied_iff sampleEnv oneFile ⟨[], []⟩ none hclean).2 (by decide +kernel)⟩

/-- The second of two files may be left without its row, and the next run applies it again. -/
theorem applied_twice :
    Clean sampleEnv twoFiles ⟨[], []⟩ none ∧
      (¬ ∀ d ∈ (applyVersionedPostgresMigrations sampleEnv twoFiles).crashStates
          ⟨⟨[], []⟩, none, []⟩,
        AllApplied sampleEnv (pendingFiles sampleEnv twoFiles ⟨[], []⟩) d) ∧
      ∃ d ∈ (applyVersionedPostgresMigrations sampleEnv twoFiles).crashStates
          ⟨⟨[], []⟩, none, []⟩,
        ((applyVersionedPostgresMigrations sampleEnv twoFiles) ⟨d, none, []⟩).2.committed.effectsOf
          "0008.up.sql" = ["b", "b"] :=
  ⟨⟨by decide +kernel, by decide +kernel, by decide +kernel⟩, by decide +kernel,
    by decide +kernel⟩

end Edr.Migrations
