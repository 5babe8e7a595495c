import Edr.Lib.Concurrent
import Edr.Lib.Rows

/-!
# A database with row locks

The tables of a database, and the statements of its transactions as programs. Every statement sees
what is committed when it begins, and what the transaction has written itself (the isolation level
is read committed). One that changes rows looks for them first, and then waits for the lock of each
of them, one after the other; when it has the lock, it looks again whether the row is still one that
it was looking for.
-/

namespace Edr

variable {ι : Type}

/-! ## Databases -/

/-- The tables, their rows, and the entries of a row in the unique indexes of its table. -/
structure Schema where
  Name : Type
  Row : Name → Type
  Entry : Name → Type
  entries : ∀ t, Row t → List (Entry t)

/-- How rows begin, and what may become of them. -/
structure Law (S : Schema) where
  Born : ∀ t, S.Row t → Prop
  Follows : ∀ t, S.Row t → S.Row t → Prop
  refl : ∀ t r, Follows t r r
  trans : ∀ t r r' r'', Follows t r r' → Follows t r' r'' → Follows t r r''

/-- What may have become of a row. -/
def Law.Lived {S : Schema} (L : Law S) (t : S.Name) (r : S.Row t) : Prop :=
  ∃ r₀, L.Born t r₀ ∧ L.Follows t r₀ r

section

variable [DecidableEq ι] {S : Schema}

/-- A database that is used by the transactions `ι`. -/
abbrev Db (ι : Type) [DecidableEq ι] (S : Schema) := ∀ t, Rows ι (S.Row t) (S.Entry t) (S.entries t)

/-- What a transaction may do to a row. -/
inductive Change (L : Law S) (t : S.Name) (i : ι) :
    Option (Cell ι (S.Row t)) → Option (Cell ι (S.Row t)) → Prop
  | same (x) : Change L t i x x
  | hold (c) : c.free i = true → Change L t i (some c) (some (c.hold i))
  | write (c) (r r' : S.Row t) : c.free i = true → c.seen i = some r → L.Follows t r r' →
      Change L t i (some c) (some (c.write i r'))
  | born (r : S.Row t) : L.Born t r → Change L t i none (some ⟨none, some (i, some r)⟩)
  | commit (c) : Change L t i (some c) (some (c.commit i))
  | rollback (c) : Change L t i (some c) (some (c.rollback i))

/-- All versions of the row have lived, and that of the transaction follows what is committed. -/
def Cell.Lawful (L : Law S) (t : S.Name) (c : Cell ι (S.Row t)) : Prop :=
  (∀ r, c.committed = some r → L.Lived t r) ∧
    ∀ i w, c.written i = some w → L.Lived t w ∧ ∀ r, c.committed = some r → L.Follows t r w

/-- What others do to a row: they leave one that is locked, and what they commit follows. -/
def Cell.Relies (L : Law S) (t : S.Name) (i : ι) (x y : Option (Cell ι (S.Row t))) : Prop :=
  (∀ c : Cell ι (S.Row t), c.Held i → (x = some c ↔ y = some c)) ∧
    ∀ c r, x = some c → c.committed = some r →
      ∃ c' r', y = some c' ∧ c'.committed = some r' ∧ L.Follows t r r'

section

variable {L : Law S} {t : S.Name} {i j : ι} {x y z : Option (Cell ι (S.Row t))}
  {c : Cell ι (S.Row t)}

open Cell Option

omit [DecidableEq ι] in
theorem Cell.Relies.refl (x : Option (Cell ι (S.Row t))) : Relies L t i x x :=
  ⟨fun _ _ => Iff.rfl, fun c r hc hr => ⟨c, r, hc, hr, L.refl t r⟩⟩

omit [DecidableEq ι] in
theorem Cell.Relies.trans (h : Relies L t i x y) (h' : Relies L t i y z) : Relies L t i x z := by
  refine ⟨fun c hc => (h.1 c hc).trans (h'.1 c hc), fun c r hc hr => ?_⟩
  obtain ⟨c', r', hc', hr', hfollows⟩ := h.2 c r hc hr
  obtain ⟨c'', r'', hc'', hr'', hfollows'⟩ := h'.2 c' r' hc' hr'
  exact ⟨c'', r'', hc'', hr'', L.trans t r r' r'' hfollows hfollows'⟩

theorem Cell.Lawful.seen (h : c.Lawful L t) {r : S.Row t} (hr : c.seen i = some r) :
    L.Lived t r ∧ ∀ r₀, c.committed = some r₀ → L.Follows t r₀ r := by
  rcases seen_eq_some.1 hr with hw | ⟨-, hcommitted⟩
  · exact h.2 i r hw
  · refine ⟨h.1 r hcommitted, fun r₀ hr₀ => ?_⟩
    cases hcommitted.symm.trans hr₀
    exact L.refl t r

theorem Cell.lawful_lock {committed : Option (S.Row t)} {w : Option (S.Row t)}
    (hcommitted : ∀ r, committed = some r → L.Lived t r)
    (hw : ∀ r', w = some r' → L.Lived t r' ∧ ∀ r, committed = some r → L.Follows t r r') :
    (⟨committed, some (i, w)⟩ : Cell ι (S.Row t)).Lawful L t := by
  refine ⟨hcommitted, fun j r' hr' => hw r' ?_⟩
  by_cases hj : i = j
  · subst hj
    rwa [written_of_lock rfl] at hr'
  · rw [written_of_not_held fun h => hj (held_lock.1 h).symm] at hr'
    cases hr'

theorem Cell.Lawful.release (h : c.Lawful L t) {v : Option (S.Row t)}
    (hv : ∀ r, v = some r → L.Lived t r) : (c.release i v).Lawful L t := by
  by_cases hc : c.Held i
  · rw [release_of_held hc]
    refine ⟨hv, fun j w hw => ?_⟩
    rw [written_of_not_held not_held_of_unlocked] at hw
    cases hw
  · rw [release_of_not_held hc]
    exact h

theorem Change.lawful (h : Change L t i x y) (hx : ∀ c, x = some c → c.Lawful L t) :
    ∀ c, y = some c → c.Lawful L t := by
  intro c' hc'
  cases h with
  | same => exact hx c' hc'
  | hold c hfree =>
    cases hc'
    have hc := hx c rfl
    exact lawful_lock hc.1 fun r' hr' => hc.2 i r' hr'
  | write c r r' hfree hseen hfollows =>
    cases hc'
    have hc := hx c rfl
    obtain ⟨⟨r₀, hborn, hlived⟩, hover⟩ := hc.seen hseen
    refine lawful_lock hc.1 ?_
    rintro _ ⟨⟩
    exact ⟨⟨r₀, hborn, L.trans t _ _ _ hlived hfollows⟩,
      fun r₁ hr₁ => L.trans t _ _ _ (hover r₁ hr₁) hfollows⟩
  | born r hborn =>
    cases hc'
    refine lawful_lock nofun ?_
    rintro _ ⟨⟩
    exact ⟨⟨r, hborn, L.refl t r⟩, nofun⟩
  | commit c =>
    cases hc'
    exact (hx c rfl).release fun r hr => ((hx c rfl).seen hr).1
  | rollback c =>
    cases hc'
    exact (hx c rfl).release (hx c rfl).1

theorem Change.follows (h : Change L t i x y) (hx : ∀ c, x = some c → c.Lawful L t) {c}
    {r : S.Row t} (hc : x = some c) (hr : c.committed = some r) :
    ∃ c' r', y = some c' ∧ c'.committed = some r' ∧ L.Follows t r r' := by
  cases h with
  | same => exact ⟨c, r, hc, hr, L.refl t r⟩
  | hold | write =>
    cases hc
    exact ⟨_, r, rfl, hr, L.refl t r⟩
  | born => cases hc
  | commit d =>
    cases hc
    -- What the transaction sees follows what was committed.
    cases hw : c.written i with
    | none =>
      refine ⟨_, r, rfl, ?_, L.refl t r⟩
      rw [committed_commit, Cell.seen, hw, none_or, hr]
    | some w =>
      refine ⟨_, w, rfl, ?_, ((hx c rfl).2 i w hw).2 r hr⟩
      rw [committed_commit, Cell.seen, hw, some_or]
  | rollback d =>
    cases hc
    exact ⟨_, r, rfl, committed_rollback.trans hr, L.refl t r⟩

theorem Change.kept (h : Change L t i x y) (hij : j ≠ i) {c} (hc : c.Held j) :
    x = some c ↔ y = some c := by
  -- Where the row has changed, the other transaction had no lock on it, and has none now.
  have hiff {d d' : Cell ι (S.Row t)} (hd : ¬d.Held j) (hd' : ¬d'.Held j) :
      some d = some c ↔ some d' = some c :=
    ⟨fun e => absurd ((Option.some.inj e).symm ▸ hc) hd,
      fun e => absurd ((Option.some.inj e).symm ▸ hc) hd'⟩
  have hrelease (d : Cell ι (S.Row t)) (v : Option (S.Row t)) :
      some d = some c ↔ some (d.release i v) = some c := by
    by_cases hd : d.Held i
    · have hj : ¬d.Held j := fun hj => hij (hj.unique hd)
      exact hiff hj fun h => hj (held_release.1 h).1
    · rw [release_of_not_held hd]
  cases h with
  | same => exact .rfl
  | hold d hfree | write d r r' hfree =>
    exact hiff (not_held_of_free hfree hij) fun h => hij (held_lock.1 h)
  | born r hborn =>
    refine ⟨(nomatch ·), ?_⟩
    rintro ⟨⟩
    exact absurd (held_lock.1 hc) hij
  | commit d => exact hrelease d _
  | rollback d => exact hrelease d _

end

namespace Db

open Cell

def empty : Db ι S := fun _ => Rows.empty

def commit (i : ι) (db : Db ι S) : Db ι S := fun t => (db t).commit i

def rollback (i : ι) (db : Db ι S) : Db ι S := fun t => (db t).rollback i

abbrev cell (db : Db ι S) (t : S.Name) (id : Nat) : Option (Cell ι (S.Row t)) := (db t).cells[id]?

def Lawful (L : Law S) (db : Db ι S) : Prop :=
  ∀ (t : S.Name) (id : Nat) (c : Cell ι (S.Row t)), db.cell t id = some c → c.Lawful L t

def Rely (L : Law S) (i : ι) (db db' : Db ι S) : Prop :=
  ∀ (t : S.Name) (id : Nat), Relies L t i (db.cell t id) (db'.cell t id)

def Guarantee (L : Law S) (i : ι) (db db' : Db ι S) : Prop :=
  ∀ (t : S.Name) (id : Nat), Change L t i (db.cell t id) (db'.cell t id)

def Idle (i : ι) (db : Db ι S) : Prop :=
  ∀ (t : S.Name) (id : Nat) (c : Cell ι (S.Row t)), db.cell t id = some c → ¬c.Held i

variable {κ ε α : Type} {L : Law S} {i j : ι} {db db' : Db ι S} {t : S.Name} {id : Nat}

def service (program : ι → κ → Prog (Db ι S) ε α) : Service ι κ (Db ι S) ε α where
  init := empty
  program := program
  commit := commit
  rollback := rollback

section

variable {f : ∀ t, Cell ι (S.Row t) → Cell ι (S.Row t)}
  (hcells : ∀ t, (db' t).cells = (db t).cells.map (f t))

include hcells

theorem guarantee_of_map (hf : ∀ t c, Change L t i (some c) (some (f t c))) :
    Guarantee L i db db' := by
  intro t id
  rw [cell, cell, hcells, List.getElem?_map]
  cases (db t).cells[id]? with
  | none => exact .same none
  | some c => exact hf t c

theorem idle_of_map (hf : ∀ t c, ¬(f t c).Held i) : Idle i db' := by
  intro t id c hc
  rw [cell, hcells, List.getElem?_map, Option.map_eq_some_iff] at hc
  obtain ⟨c, -, rfl⟩ := hc
  exact hf t c

end

theorem guarantee_of_effect {program : ι → κ → Prog (Db ι S) ε α}
    (h : Service.Effect (service program) (Guarantee L i) i db db') : Guarantee L i db db' := by
  cases h with
  | stmt h => exact h
  | commit => exact guarantee_of_map (fun _ => rfl) fun _ => .commit
  | rollback => exact guarantee_of_map (fun _ => rfl) fun _ => .rollback

theorem idle_commit : Idle i (db.commit i) :=
  idle_of_map (fun _ => rfl) fun _ _ h => (held_release.1 h).2 rfl

theorem idle_rollback : Idle i (db.rollback i) :=
  idle_of_map (fun _ => rfl) fun _ _ h => (held_release.1 h).2 rfl

theorem Idle.rely (h : Idle i db) (hR : Rely L i db db') : Idle i db' :=
  fun t id c hc hheld => h t id c (((hR t id).1 c hheld).2 hc) hheld

/-- What is committed follows what was committed before (`Db.Follows`), and what a transaction
    has locked stays as it is (`Db.Holds.rely`). -/
def discipline (L : Law S) (program : ι → κ → Prog (Db ι S) ε α) :
    Discipline (service program) where
  Inv := Lawful L
  Rely := Rely L
  Guarantee := Guarantee L
  Idle := Idle
  inv_init := nofun
  idle_init := nofun
  rely_refl := fun _ _ _ _ => .refl _
  rely_trans := fun h h' t id => (h t id).trans (h' t id)
  inv_effect := fun hI h t id c => (guarantee_of_effect h t id).lawful (hI t id) c
  rely_effect := fun hI h hij t id =>
    ⟨fun _ hc => (guarantee_of_effect h t id).kept hij hc,
      fun _ _ hc hr => (guarantee_of_effect h t id).follows (hI t id) hc hr⟩
  idle_rely := .rely
  idle_commit := idle_commit
  idle_rollback := idle_rollback

/-- What is committed follows what was committed before. -/
def Follows (L : Law S) (db db' : Db ι S) : Prop :=
  ∀ (t : S.Name) (id : Nat) (r : S.Row t), (db t).committed id = some r →
    ∃ r', (db' t).committed id = some r' ∧ L.Follows t r r'

theorem Follows.refl (db : Db ι S) : Follows L db db := fun t _ r hr => ⟨r, hr, L.refl t r⟩

theorem Follows.trans {db'' : Db ι S} (h : Follows L db db') (h' : Follows L db' db'') :
    Follows L db db'' := by
  intro t id r hr
  obtain ⟨r', hr', hfollows⟩ := h t id r hr
  obtain ⟨r'', hr'', hfollows'⟩ := h' t id r' hr'
  exact ⟨r'', hr'', L.trans t r r' r'' hfollows hfollows'⟩

variable {r : S.Row t}

theorem committed_eq_some : (db t).committed id = some r ↔
    ∃ c, db.cell t id = some c ∧ c.committed = some r :=
  Option.bind_eq_some_iff

theorem seen_eq_some : (db t).seen i id = some r ↔
    ∃ c, db.cell t id = some c ∧ c.seen i = some r :=
  Option.bind_eq_some_iff

theorem follows_of_cell (h : ∀ t id c r, db.cell t id = some c → c.committed = some r →
      ∃ c' r', db'.cell t id = some c' ∧ c'.committed = some r' ∧ L.Follows t r r') :
    Follows L db db' := by
  intro t id r hr
  obtain ⟨c, hc, hr⟩ := committed_eq_some.1 hr
  obtain ⟨c', r', hc', hr', hfollows⟩ := h t id c r hc hr
  exact ⟨r', committed_eq_some.2 ⟨c', hc', hr'⟩, hfollows⟩

theorem Rely.follows (h : Rely L i db db') : Follows L db db' :=
  follows_of_cell fun t id => (h t id).2

theorem follows_of_effect {program : ι → κ → Prog (Db ι S) ε α} (hI : Lawful L db)
    (h : Service.Effect (service program) (Guarantee L i) i db db') : Follows L db db' :=
  follows_of_cell fun t id _ _ hc hr => (guarantee_of_effect h t id).follows (hI t id) hc hr

theorem Idle.seen (h : Idle i db) : (db t).seen i id = (db t).committed id := by
  refine Option.bind_congr fun c hc => ?_
  exact seen_of_not_held (h t id c hc)

/-! ## Rows that are locked -/

/-- A transaction has locked a row, which it sees as `r`. -/
def Holds (i : ι) (t : S.Name) (id : Nat) (r : S.Row t) (db : Db ι S) : Prop :=
  ∃ c, db.cell t id = some c ∧ c.Held i ∧ c.seen i = some r

theorem Holds.rely (h : Holds i t id r db) (hR : Rely L i db db') : Holds i t id r db' := by
  obtain ⟨c, hc, hheld, hr⟩ := h
  exact ⟨c, ((hR t id).1 c hheld).1 hc, hheld, hr⟩

/-! ## Statements -/

end Db

/-- A statement violates a unique index, or the program raises an error of its own. -/
inductive DbError (ε : Type)
  | uniqueViolation
  | raised (e : ε)
  deriving DecidableEq

/-- The order in which a statement comes to the rows it has found. -/
abbrev Plan := ∀ l : List Nat, { l' : List Nat // l'.Perm l }

namespace Db

open Cell

def inOrder : Plan := fun l => ⟨l, .refl l⟩

variable {ε : Type} (i : ι) (t : S.Name)

/-- `SELECT .. WHERE p`. -/
def select (p : Nat → S.Row t → Bool) : Prog (Db ι S) (DbError ε) (List (Nat × S.Row t)) :=
  .execute fun db => some (.ok ((db t).select i p, db))

variable [DecidableEq S.Name]

def set (db : Db ι S) (t : S.Name) (rows : Rows ι (S.Row t) (S.Entry t) (S.entries t)) : Db ι S :=
  Function.update db t rows

/-- A row is locked, which gives the row if it still satisfies `p`. -/
def lockRow (p : Nat → S.Row t → Bool) (id : Nat) :
    Prog (Db ι S) (DbError ε) (Option (S.Row t)) :=
  .execute fun db =>
    match db.cell t id with
    | none => some (.ok (none, db))
    | some c =>
      if c.free i then
        some (.ok ((c.seen i).filter (p id), db.set t ((db t).hold i id)))
      else none

def lockRows (p : Nat → S.Row t → Bool) :
    List Nat → Prog (Db ι S) (DbError ε) (List (Nat × S.Row t))
  | [] => return []
  | id :: ids => do
    let row ← lockRow i t p id
    let rows ← lockRows p ids
    return (row.map fun r => (id, r)).toList ++ rows

/-- `SELECT .. WHERE p FOR UPDATE`. -/
def selectForUpdate (p : Nat → S.Row t → Bool) :
    Prog (Db ι S) (DbError ε) (List (Nat × S.Row t)) := do
  let found ← select i t p
  lockRows i t p (found.map Prod.fst)

variable [∀ t, DecidableEq (S.Entry t)]

/-- A row is locked, and changed if it still satisfies `p`. -/
def updateRow (p : Nat → S.Row t → Bool) (f : S.Row t → S.Row t) (id : Nat) :
    Prog (Db ι S) (DbError ε) Nat :=
  .execute fun db =>
    match db.cell t id with
    | none => some (.ok (0, db))
    | some c =>
      if c.free i then
        match (c.seen i).filter (p id) with
        | none => some (.ok (0, db.set t ((db t).hold i id)))
        | some r =>
          match (db t).write i id (f r) with
          | none => none
          | some (.error _) => some (.error .uniqueViolation)
          | some (.ok rows) => some (.ok (1, db.set t rows))
      else none

def updateRows (p : Nat → S.Row t → Bool) (f : S.Row t → S.Row t) :
    List Nat → Prog (Db ι S) (DbError ε) Nat
  | [] => return 0
  | id :: ids => do
    let n ← updateRow i t p f id
    let m ← updateRows p f ids
    return n + m

/-- `UPDATE .. SET f WHERE p`, with the number of rows. -/
def update (plan : Plan) (p : Nat → S.Row t → Bool) (f : S.Row t → S.Row t) :
    Prog (Db ι S) (DbError ε) Nat := do
  let found ← select i t p
  updateRows i t p f (plan (found.map Prod.fst)).1

/-- `INSERT`, with the id of the new row. -/
def insert (r : S.Row t) : Prog (Db ι S) (DbError ε) Nat :=
  .execute fun db =>
    match (db t).blank.write i (db t).cells.length r with
    | none => none
    | some (.error _) => some (.error .uniqueViolation)
    | some (.ok rows) => some (.ok ((db t).cells.length, db.set t rows))

/-! ## What the statements meet -/

variable {i t} {L : Law S} {db db' : Db ι S}

abbrev Meets {α : Type} (L : Law S) (i : ι) (Q : α → Db ι S → Prop)
    (p : Prog (Db ι S) (DbError ε) α) (db : Db ι S) : Prop :=
  p.Meets (Lawful L) (Rely L i) (Guarantee L i) Q db

omit [DecidableEq S.Name] [∀ t, DecidableEq (S.Entry t)] in
theorem guarantee_refl : Guarantee L i db db := fun _ _ => .same _

omit [DecidableEq S.Name] [∀ t, DecidableEq (S.Entry t)] in
theorem meets_select {p : Nat → S.Row t → Bool} {Q : List (Nat × S.Row t) → Db ι S → Prop}
    (h : ∀ db', Lawful L db' → Rely L i db db' → Q ((db' t).select i p) db') :
    Meets (ε := ε) L i Q (select i t p) db := by
  refine .execute fun db' hR hI rows db'' hf => ?_
  cases hf
  exact ⟨guarantee_refl, h db' hI hR⟩

section

omit [∀ t, DecidableEq (S.Entry t)]

variable {rows : Rows ι (S.Row t) (S.Entry t) (S.entries t)} {id id' : Nat}
  {c c' : Cell ι (S.Row t)}

theorem cell_set_self : (db.set t rows).cell t id = rows.cells[id]? := by
  rw [cell, set, Function.update_self]

theorem cell_set_of_ne {t' : S.Name} (h : t' ≠ t) : (db.set t rows).cell t' id = db.cell t' id := by
  rw [cell, set, Function.update_of_ne h]

theorem cell_set_row (hc : db.cell t id = some c) (hrows : rows.cells = (db t).cells.set id c') :
    (db.set t rows).cell t id' = if id' = id then some c' else db.cell t id' := by
  rw [cell_set_self, hrows, List.getElem?_set]
  split_ifs with h hlt h' h' h'
  · rfl
  · exact absurd h.symm h'
  · exact absurd (h ▸ (List.getElem?_eq_some_iff.1 hc).1) hlt
  · exact absurd (h ▸ (List.getElem?_eq_some_iff.1 hc).1) hlt
  · exact absurd h'.symm h
  · rfl

theorem guarantee_set (hc : db.cell t id = some c) (hrows : rows.cells = (db t).cells.set id c')
    (h : Change L t i (some c) (some c')) : Guarantee L i db (db.set t rows) := by
  intro t' id'
  by_cases ht : t' = t
  · subst ht
    rw [cell_set_row hc hrows]
    split_ifs with hid
    · rw [hid, hc]
      exact h
    · exact .same _
  · rw [cell_set_of_ne ht]
    exact .same _

variable {r : S.Row t}

theorem holds_set (hc : db.cell t id = some c) (hrows : rows.cells = (db t).cells.set id c')
    (hheld : c'.Held i) (hseen : c'.seen i = some r) : Holds i t id r (db.set t rows) :=
  ⟨c', by rw [cell_set_row hc hrows, if_pos rfl], hheld, hseen⟩

theorem Holds.set_of_ne (h : Holds i t id' r db) (hc : db.cell t id = some c)
    (hrows : rows.cells = (db t).cells.set id c') (hne : id' ≠ id) :
    Holds i t id' r (db.set t rows) := by
  obtain ⟨d, hd, h⟩ := h
  exact ⟨d, by rw [cell_set_row hc hrows, if_neg hne, hd], h⟩

theorem Holds.set_hold (h : Holds i t id' r db) (hc : db.cell t id = some c)
    (hrows : rows.cells = (db t).cells.set id (c.hold i)) : Holds i t id' r (db.set t rows) := by
  by_cases hid : id' = id
  · subst hid
    obtain ⟨d, hd, -, hseen⟩ := h
    cases hc.symm.trans hd
    exact holds_set hc hrows (held_lock.2 rfl) (seen_hold.trans hseen)
  · exact h.set_of_ne hc hrows hid

end

/-- What others do not change, and the transaction itself does not by locking rows of the table
    `t`. -/
structure KeptByLocks (L : Law S) (i : ι) (t : S.Name) (J : Db ι S → Prop) : Prop where
  rely : ∀ db db', Lawful L db' → Rely L i db db' → J db → J db'
  hold : ∀ db id c rows, db.cell t id = some c →
    rows.cells = (db t).cells.set id (c.hold i) → J db → J (db.set t rows)

/-- What others do not change, and the transaction itself does not by changing the table `t`. -/
structure Keeps (L : Law S) (i : ι) (t : S.Name) (J : Db ι S → Prop) : Prop where
  rely : ∀ db db', Lawful L db' → Rely L i db db' → J db → J db'
  other : ∀ db rows, J db → J (db.set t rows)

section

omit [∀ t, DecidableEq (S.Entry t)]

variable {J J' : Db ι S → Prop}

theorem Keeps.keptByLocks (h : Keeps L i t J) : KeptByLocks L i t J :=
  ⟨h.rely, fun db _ _ rows _ _ hJ => h.other db rows hJ⟩

theorem KeptByLocks.and (h : KeptByLocks L i t J) (h' : KeptByLocks L i t J') :
    KeptByLocks L i t fun db => J db ∧ J' db :=
  ⟨fun db db' hI hR hJ => ⟨h.rely db db' hI hR hJ.1, h'.rely db db' hI hR hJ.2⟩,
    fun db id c rows hc hrows hJ =>
      ⟨h.hold db id c rows hc hrows hJ.1, h'.hold db id c rows hc hrows hJ.2⟩⟩

theorem Keeps.and (h : Keeps L i t J) (h' : Keeps L i t J') : Keeps L i t fun db => J db ∧ J' db :=
  ⟨fun db db' hI hR hJ => ⟨h.rely db db' hI hR hJ.1, h'.rely db db' hI hR hJ.2⟩,
    fun db rows hJ => ⟨h.other db rows hJ.1, h'.other db rows hJ.2⟩⟩

theorem keeps_const {p : Prop} : Keeps L i t fun _ => p := ⟨fun _ _ _ _ h => h, fun _ _ h => h⟩

theorem keeps_exists {α : Type} {J : α → Db ι S → Prop} (h : ∀ a, Keeps L i t (J a)) :
    Keeps L i t fun db => ∃ a, J a db :=
  ⟨fun db db' hI hR ⟨a, ha⟩ => ⟨a, (h a).rely db db' hI hR ha⟩,
    fun db rows ⟨a, ha⟩ => ⟨a, (h a).other db rows ha⟩⟩

theorem keeps_holds {t' : S.Name} (h : t' ≠ t) {id : Nat} {r : S.Row t'} :
    Keeps L i t (Holds i t' id r) := by
  refine ⟨fun db db' _ hR hJ => hJ.rely hR, ?_⟩
  rintro db rows ⟨c, hc, hheld⟩
  exact ⟨c, (cell_set_of_ne h).trans hc, hheld⟩

end

section

variable {J : Db ι S → Prop} {p : Nat → S.Row t → Bool} {f : S.Row t → S.Row t}

omit [∀ t, DecidableEq (S.Entry t)] in
theorem meets_lockRow (hJ : KeptByLocks L i t J) (h : J db) (id : Nat) :
    Meets (ε := ε) L i (fun row db' => J db' ∧
      ∀ r, row = some r → Holds i t id r db' ∧ p id r = true) (lockRow i t p id) db := by
  refine .execute fun db' hR hI row db'' hf => ?_
  have hJ' := hJ.rely db db' hI hR h
  split at hf
  · cases hf
    exact ⟨guarantee_refl, hJ', nofun⟩
  · rename_i c hc
    split_ifs at hf with hfree
    cases hf
    have hrows := Rows.cells_hold hc hfree
    refine ⟨guarantee_set hc hrows (.hold c hfree), hJ.hold db' id c _ hc hrows hJ',
      fun r hr => ?_⟩
    obtain ⟨hseen, hp⟩ := Option.filter_eq_some_iff.1 hr
    exact ⟨holds_set hc hrows (held_lock.2 rfl) (seen_hold.trans hseen), hp⟩

omit [∀ t, DecidableEq (S.Entry t)] in
theorem meets_lockRows (hJ : KeptByLocks L i t J) (h : J db) (ids : List Nat) :
    Meets (ε := ε) L i (fun rows db' => J db' ∧
      ∀ x ∈ rows, Holds i t x.1 x.2 db' ∧ p x.1 x.2 = true) (lockRows i t p ids) db := by
  induction ids generalizing db J with
  | nil => exact .pure ⟨h, nofun⟩
  | cons id ids ih =>
    refine .bind ((meets_lockRow hJ h id).mono fun row db' hrow => ?_)
    have hJ' : KeptByLocks L i t fun db => J db ∧ ∀ r, row = some r → Holds i t id r db :=
      hJ.and ⟨fun _ _ _ hR h r hr => (h r hr).rely hR,
        fun _ _ _ _ hc hrows h r hr => (h r hr).set_hold hc hrows⟩
    refine .bind ((ih hJ' ⟨hrow.1, fun r hr => (hrow.2 r hr).1⟩).mono fun rows db'' hrows => ?_)
    refine .pure ⟨hrows.1.1, fun x hx => ?_⟩
    rcases List.mem_append.1 hx with hx | hx
    · obtain ⟨r, hr, rfl⟩ := Option.map_eq_some_iff.1 (Option.mem_toList.1 hx)
      exact ⟨hrows.1.2 r hr, (hrow.2 r hr).2⟩
    · exact hrows.2 x hx

omit [∀ t, DecidableEq (S.Entry t)] in
theorem meets_selectForUpdate {Q : List (Nat × S.Row t) → Db ι S → Prop}
    (hJ : KeptByLocks L i t J) (h : J db)
    (hQ : ∀ rows db', J db' → (∀ x ∈ rows, Holds i t x.1 x.2 db' ∧ p x.1 x.2 = true) →
      Q rows db') : Meets (ε := ε) L i Q (selectForUpdate i t p) db := by
  refine .bind (meets_select fun db' hI hR => ?_)
  exact (meets_lockRows hJ (hJ.rely db db' hI hR h) _).mono fun rows db'' hrows =>
    hQ rows db'' hrows.1 hrows.2

section

variable (hJ : KeptByLocks L i t J)
  (hwrite : ∀ db id c r, Lawful L db → J db → db.cell t id = some c → c.seen i = some r →
    p id r = true → L.Follows t r (f r) ∧
      ∀ rows, rows.cells = (db t).cells.set id (c.write i (f r)) → J (db.set t rows))

include hJ hwrite

theorem meets_updateRow (h : J db) (id : Nat) :
    Meets (ε := ε) L i (fun _ db' => J db') (updateRow i t p f id) db := by
  refine .execute fun db' hR hI n db'' hf => ?_
  have hJ' := hJ.rely db db' hI hR h
  split at hf
  · cases hf
    exact ⟨guarantee_refl, hJ'⟩
  · rename_i c hc
    split_ifs at hf with hfree
    split at hf
    · cases hf
      have hrows := Rows.cells_hold hc hfree
      exact ⟨guarantee_set hc hrows (.hold c hfree), hJ.hold db' id c _ hc hrows hJ'⟩
    · rename_i r hr
      obtain ⟨hseen, hp⟩ := Option.filter_eq_some_iff.1 hr
      split at hf
      · cases hf
      · cases hf
      · rename_i rows hrows
        cases hf
        obtain ⟨c', hc', -, hrows⟩ := Rows.write_eq_ok hrows
        cases hc.symm.trans hc'
        obtain ⟨hfollows, hkeep⟩ := hwrite db' id c r hI hJ' hc hseen hp
        exact ⟨guarantee_set hc hrows (.write c r (f r) hfree hseen hfollows), hkeep rows hrows⟩

variable {Q : Nat → Db ι S → Prop}

theorem meets_update {plan : Plan} (h : J db) (hQ : ∀ n db', J db' → Q n db') :
    Meets (ε := ε) L i Q (update i t plan p f) db := by
  refine .bind (meets_select fun db' hI hR => ?_)
  have hids (ids : List Nat) {db : Db ι S} (h : J db) :
      Meets (ε := ε) L i (fun _ db' => J db') (updateRows i t p f ids) db := by
    induction ids generalizing db with
    | nil => exact .pure h
    | cons id ids ih =>
      refine .bind ((meets_updateRow hJ hwrite h id).mono fun n db' h' => ?_)
      exact .bind ((ih h').mono fun m db'' h'' => .pure h'')
  exact (hids _ (hJ.rely db db' hI hR h)).mono hQ

end

variable {Q : Nat → Db ι S → Prop}

theorem meets_update_of_keeps (hJ : Keeps L i t J)
    (hfollows : ∀ id r, p id r = true → L.Follows t r (f r)) {plan : Plan} (h : J db)
    (hQ : ∀ n db', J db' → Q n db') : Meets (ε := ε) L i Q (update i t plan p f) db :=
  meets_update hJ.keptByLocks
    (fun db id _ r _ hJdb _ _ hp => ⟨hfollows id r hp, fun rows _ => hJ.other db rows hJdb⟩) h hQ

theorem meets_insert {r : S.Row t} (hborn : L.Born t r) (hJ : Keeps L i t J) (h : J db)
    (hQ : ∀ id db', J db' → Holds i t id r db' → Q id db') :
    Meets (ε := ε) L i Q (insert i t r) db := by
  refine .execute fun db' hR hI id db'' hf => ?_
  have hJ' := hJ.rely db db' hI hR h
  split at hf
  · cases hf
  · cases hf
  · rename_i rows hrows
    cases hf
    obtain ⟨c, hc, -, hrows⟩ := Rows.write_eq_ok hrows
    -- The row that is written is the place that was made for it.
    have hcells : rows.cells = (db' t).cells ++ [⟨none, some (i, some r)⟩] := by
      have hblank : (db' t).blank.cells = (db' t).cells ++ [⟨none, none⟩] := rfl
      rw [hblank, List.getElem?_append_right (Nat.le_refl _), Nat.sub_self] at hc
      cases hc
      rw [hrows, hblank, List.set_append_right _ _ (Nat.le_refl _), Nat.sub_self]
      rfl
    refine ⟨fun t' id' => ?_, hQ _ _ (hJ.other db' rows hJ') ?_⟩
    · by_cases ht : t' = t
      · subst ht
        rw [cell_set_self, hcells, List.getElem?_append]
        split_ifs with hlt
        · exact .same _
        · rw [cell, List.getElem?_eq_none (Nat.le_of_not_lt hlt)]
          cases hid : id' - (db' t').cells.length with
          | zero => exact .born r hborn
          | succ n => exact .same none
      · rw [cell_set_of_ne ht]
        exact .same _
    · refine ⟨⟨none, some (i, some r)⟩, ?_, ⟨_, rfl⟩, ?_⟩
      · rw [cell_set_self, hcells, List.getElem?_append_right (Nat.le_refl _), Nat.sub_self]
        rfl
      · rw [Cell.seen, written_of_lock rfl, Option.some_or]

end

end Db

end

end Edr
