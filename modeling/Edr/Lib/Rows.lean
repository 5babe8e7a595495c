import Mathlib

/-!
# Tables with row locks

A table that is used by several transactions at the same time, each of which sees what is committed
and what it has written itself. A transaction locks a row before it changes it, so that there are at
most two versions of a row: the committed one, and that of the transaction that has the lock
(`Cell`).
-/

namespace Edr

variable {ι ρ κ : Type}

/-! ## The versions of a row -/

/-- A row: what is committed of it, and the transaction that has locked it, with what this one has
    written. -/
structure Cell (ι ρ : Type) where
  committed : Option ρ
  lock : Option (ι × Option ρ)

namespace Cell

section

variable [DecidableEq ι]

/-- What the transaction has written, if it has the lock. -/
def written (i : ι) (c : Cell ι ρ) : Option ρ :=
  match c.lock with
  | some (j, w) => if j = i then w else none
  | none => none

/-- What the transaction sees. -/
def seen (i : ι) (c : Cell ι ρ) : Option ρ := (c.written i).or c.committed

/-- No other transaction has the lock. -/
def free (i : ι) (c : Cell ι ρ) : Bool :=
  match c.lock with
  | some (j, _) => decide (j = i)
  | none => true

def hold (i : ι) (c : Cell ι ρ) : Cell ι ρ := ⟨c.committed, some (i, c.written i)⟩

def write (i : ι) (r : ρ) (c : Cell ι ρ) : Cell ι ρ := ⟨c.committed, some (i, some r)⟩

/-- The lock of the transaction is gone, and `x` is committed. -/
def release (i : ι) (x : Option ρ) (c : Cell ι ρ) : Cell ι ρ :=
  match c.lock with
  | some (j, _) => if j = i then ⟨x, none⟩ else c
  | none => c

def commit (i : ι) (c : Cell ι ρ) : Cell ι ρ := c.release i (c.seen i)

def rollback (i : ι) (c : Cell ι ρ) : Cell ι ρ := c.release i c.committed

/-- The transaction has the lock. -/
def Held (i : ι) (c : Cell ι ρ) : Prop := ∃ w, c.lock = some (i, w)

variable {i j : ι} {c c' : Cell ι ρ} {r : ρ} {x : Option ρ}

omit [DecidableEq ι] in
theorem Held.unique (h : c.Held i) (h' : c.Held j) : i = j := by
  obtain ⟨w, hw⟩ := h
  obtain ⟨w', hw'⟩ := h'
  rw [hw] at hw'
  cases hw'
  rfl

omit [DecidableEq ι] in
theorem held_lock {w : Option ρ} : (⟨x, some (i, w)⟩ : Cell ι ρ).Held j ↔ j = i := by
  constructor
  · rintro ⟨w, hw⟩
    cases hw
    rfl
  · rintro rfl
    exact ⟨_, rfl⟩

omit [DecidableEq ι] in
theorem not_held_of_unlocked : ¬(⟨x, none⟩ : Cell ι ρ).Held i := by
  rintro ⟨w, hw⟩
  cases hw

theorem written_of_lock {w : Option ρ} (h : c.lock = some (i, w)) : c.written i = w := by
  simp [written, h]

theorem written_of_not_held (h : ¬c.Held i) : c.written i = none := by
  unfold written
  split
  · rename_i j w hlock
    refine if_neg fun hj => h ⟨w, ?_⟩
    rw [hlock, hj]
  · rfl

theorem seen_of_not_held (h : ¬c.Held i) : c.seen i = c.committed := by
  rw [seen, written_of_not_held h, Option.none_or]

theorem seen_eq_some : c.seen i = some r ↔
    c.written i = some r ∨ c.written i = none ∧ c.committed = some r :=
  Option.or_eq_some_iff

theorem not_held_of_free (h : c.free i = true) (hij : j ≠ i) : ¬c.Held j := by
  rintro ⟨w, hw⟩
  simp only [free, hw, decide_eq_true_eq] at h
  exact hij h

@[simp] theorem written_hold : (c.hold i).written i = c.written i := written_of_lock rfl

@[simp] theorem written_write : (c.write i r).written i = some r := written_of_lock rfl

@[simp] theorem seen_hold : (c.hold i).seen i = c.seen i := by
  rw [seen, written_hold]
  rfl

@[simp] theorem seen_write : (c.write i r).seen i = some r := by
  rw [seen, written_write, Option.some_or]

theorem release_of_held (h : c.Held i) : c.release i x = ⟨x, none⟩ := by
  obtain ⟨w, hw⟩ := h
  simp [release, hw]

theorem release_of_not_held (h : ¬c.Held i) : c.release i x = c := by
  unfold release
  split
  · rename_i j w hlock
    refine if_neg fun hj => h ⟨w, ?_⟩
    rw [hlock, hj]
  · rfl

theorem held_release : (c.release i x).Held j ↔ c.Held j ∧ j ≠ i := by
  by_cases h : c.Held i
  · rw [release_of_held h]
    exact ⟨fun hj => absurd hj not_held_of_unlocked, fun ⟨hj, hne⟩ => absurd (hj.unique h) hne⟩
  · rw [release_of_not_held h]
    exact ⟨fun hj => ⟨hj, fun e => h (e ▸ hj)⟩, And.left⟩

theorem committed_commit : (c.commit i).committed = c.seen i := by
  by_cases h : c.Held i
  · rw [commit, release_of_held h]
  · rw [commit, release_of_not_held h, seen_of_not_held h]

theorem committed_rollback : (c.rollback i).committed = c.committed := by
  by_cases h : c.Held i
  · rw [rollback, release_of_held h]
  · rw [rollback, release_of_not_held h]

theorem written_release : (c.release i x).written j = if j = i then none else c.written j := by
  split_ifs with hj
  · exact written_of_not_held fun h => (held_release.1 h).2 hj
  · by_cases h : c.Held i
    · rw [written_of_not_held fun h' => hj ((held_release.1 h').1.unique h),
        written_of_not_held fun h' => hj (h'.unique h)]
    · rw [release_of_not_held h]

end

/-! ## Unique indexes -/

section

variable (entries : ρ → List κ)

/-- Two versions without an entry in common. -/
def Apart (x y : Option ρ) : Prop :=
  ∀ r r' k, x = some r → y = some r' → k ∈ entries r → k ∉ entries r'

variable [DecidableEq ι]

/-- Two rows without an entry in common, in what is committed, in what any transaction sees, and in
    what two transactions have written. -/
structure Compatible (c c' : Cell ι ρ) : Prop where
  committed : Apart entries c.committed c'.committed
  seen : ∀ i, Apart entries (c.seen i) (c'.seen i)
  written : ∀ i j, i ≠ j → Apart entries (c.written i) (c'.written j)

/-- Whether a row may be written: another transaction may have to end first. -/
inductive Verdict
  | clear
  | wait
  | violation
  deriving DecidableEq

variable {entries}

theorem Apart.symm {x y : Option ρ} (h : Apart entries x y) : Apart entries y x :=
  fun r r' k hr hr' hk hk' => h r' r k hr' hr hk' hk

theorem apart_none_left {y : Option ρ} : Apart entries none y := nofun

theorem apart_none_right {x : Option ρ} : Apart entries x none := nofun

variable {c c' : Cell ι ρ} {i j : ι} {r : ρ}

theorem Compatible.symm (h : Compatible entries c c') : Compatible entries c' c :=
  ⟨h.committed.symm, fun i => (h.seen i).symm, fun i j hij => (h.written j i hij.symm).symm⟩

theorem compatible_blank : Compatible entries ⟨none, none⟩ c' where
  committed := apart_none_left
  seen i := by
    rw [seen_of_not_held not_held_of_unlocked]
    exact apart_none_left
  written i j _ := by
    rw [written_of_not_held not_held_of_unlocked]
    exact apart_none_left

theorem Compatible.cross (h : Compatible entries c c') (hij : i ≠ j) (hc : ¬c.Held j)
    (hc' : ¬c'.Held i) : Apart entries (c.seen i) (c'.seen j) := by
  intro r r' k hr hr'
  rcases seen_eq_some.1 hr with hw | ⟨-, hcommitted⟩ <;>
    rcases seen_eq_some.1 hr' with hw' | ⟨-, hcommitted'⟩
  · exact h.written i j hij r r' k hw hw'
  · exact h.seen i r r' k hr ((seen_of_not_held hc').trans hcommitted')
  · exact h.seen j r r' k ((seen_of_not_held hc).trans hcommitted) hr'
  · exact h.committed r r' k hcommitted hcommitted'

theorem apart_written_release {x x' : Option ρ} (h : Compatible entries c c') (i₁ i₂ : ι)
    (hne : i₁ ≠ i₂) :
    Apart entries ((c.release i x).written i₁) ((c'.release i x').written i₂) := by
  rw [written_release, written_release]
  split_ifs
  · exact apart_none_left
  · exact apart_none_left
  · exact apart_none_right
  · exact h.written i₁ i₂ hne

theorem Compatible.commit (h : Compatible entries c c') :
    Compatible entries (c.commit i) (c'.commit i) where
  committed := by
    rw [committed_commit, committed_commit]
    exact h.seen i
  seen j := by
    -- What the transaction has locked, all see as it has left it; the other rows are as they were.
    by_cases hc : c.Held i <;> by_cases hc' : c'.Held i
    · rw [Cell.commit, Cell.commit, release_of_held hc, release_of_held hc',
        seen_of_not_held not_held_of_unlocked, seen_of_not_held not_held_of_unlocked]
      exact h.seen i
    · rw [Cell.commit, Cell.commit, release_of_held hc, release_of_not_held hc',
        seen_of_not_held not_held_of_unlocked]
      by_cases hij : i = j
      · exact hij ▸ h.seen i
      · exact h.cross hij (fun hj => hij (hc.unique hj)) hc'
    · rw [Cell.commit, Cell.commit, release_of_not_held hc, release_of_held hc',
        seen_of_not_held not_held_of_unlocked]
      by_cases hij : i = j
      · exact hij ▸ h.seen i
      · exact h.cross (.symm hij) hc fun hj => hij (hc'.unique hj)
    · rw [Cell.commit, Cell.commit, release_of_not_held hc, release_of_not_held hc']
      exact h.seen j
  written := apart_written_release h

theorem seen_rollback (j : ι) : (c.rollback i).seen j = if j = i then c.committed else c.seen j := by
  by_cases hc : c.Held i
  · rw [rollback, release_of_held hc, seen_of_not_held not_held_of_unlocked]
    split_ifs with hj
    · rfl
    · rw [seen_of_not_held fun h => hj (h.unique hc)]
  · rw [rollback, release_of_not_held hc]
    split_ifs with hj
    · rw [hj, seen_of_not_held hc]
    · rfl

theorem Compatible.rollback (h : Compatible entries c c') :
    Compatible entries (c.rollback i) (c'.rollback i) where
  committed := by
    rw [committed_rollback, committed_rollback]
    exact h.committed
  seen j := by
    rw [seen_rollback, seen_rollback]
    split_ifs
    · exact h.committed
    · exact h.seen j
  written := apart_written_release h

theorem Compatible.lock (h : Compatible entries c c') (hfree : c.free i = true) {w : Option ρ}
    (hseen : Apart entries (w.or c.committed) (c'.seen i))
    (hwritten : ∀ j, j ≠ i → Apart entries w (c'.written j)) :
    Compatible entries ⟨c.committed, some (i, w)⟩ c' where
  committed := h.committed
  seen j := by
    by_cases hj : j = i
    · subst hj
      rw [Cell.seen, written_of_lock rfl]
      exact hseen
    · rw [seen_of_not_held fun h => hj (held_lock.1 h),
        ← seen_of_not_held (not_held_of_free hfree hj)]
      exact h.seen j
  written j j' hjj' := by
    by_cases hj : j = i
    · subst hj
      rw [written_of_lock rfl]
      exact hwritten j' hjj'.symm
    · rw [written_of_not_held fun h => hj (held_lock.1 h)]
      exact apart_none_left

theorem Compatible.hold (h : Compatible entries c c') (hfree : c.free i = true) :
    Compatible entries (c.hold i) c' :=
  h.lock hfree (h.seen i) fun j hj => h.written i j hj.symm

variable [DecidableEq κ]

def clashes (entries : ρ → List κ) (r : ρ) (x : Option ρ) : Bool :=
  x.any fun r' => (entries r).any fun k => (entries r').contains k

theorem apart_of_clashes_eq_false {x : Option ρ} (h : clashes entries r x = false) :
    Apart entries (some r) x := by
  rintro r₁ r' k ⟨⟩ rfl hk hk'
  simp only [clashes, Option.any_some, List.any_eq_false, List.contains_eq_mem,
    decide_eq_true_eq] at h
  exact h k hk hk'

/-- What a row says about a new version of another one, by the transaction `i`. -/
def verdict (entries : ρ → List κ) (i : ι) (r : ρ) (c : Cell ι ρ) : Verdict :=
  match c.lock with
  | some (j, w) =>
    if j = i then (if clashes entries r (c.seen i) then .violation else .clear)
    else if clashes entries r c.committed || clashes entries r w then .wait
    else .clear
  | none => if clashes entries r c.committed then .violation else .clear

theorem apart_of_verdict (h : c.verdict entries i r = .clear) :
    Apart entries (some r) (c.seen i) ∧ ∀ j, j ≠ i → Apart entries (some r) (c.written j) := by
  unfold verdict at h
  split at h
  · rename_i j w hlock
    split_ifs at h with hj hclash hclash'
    · refine ⟨apart_of_clashes_eq_false (Bool.eq_false_iff.2 hclash), fun j' hj' => ?_⟩
      rw [written_of_not_held fun hheld => hj' (hheld.unique ⟨w, hj ▸ hlock⟩)]
      exact apart_none_right
    · rw [Bool.not_eq_true, Bool.or_eq_false_iff] at hclash'
      have hheld : c.Held j := ⟨w, hlock⟩
      refine ⟨?_, fun j' hj' => ?_⟩
      · rw [seen_of_not_held fun h => hj (hheld.unique h)]
        exact apart_of_clashes_eq_false hclash'.1
      · by_cases hjj' : j' = j
        · rw [hjj', written_of_lock hlock]
          exact apart_of_clashes_eq_false hclash'.2
        · rw [written_of_not_held fun h => hjj' (h.unique hheld)]
          exact apart_none_right
  · rename_i hlock
    split_ifs at h with hclash
    have hfree : ∀ j, ¬c.Held j := by
      rintro j ⟨w, hw⟩
      cases hlock.symm.trans hw
    refine ⟨?_, fun j _ => ?_⟩
    · rw [seen_of_not_held (hfree i)]
      exact apart_of_clashes_eq_false (Bool.eq_false_iff.2 hclash)
    · rw [written_of_not_held (hfree j)]
      exact apart_none_right

theorem Compatible.write (h : Compatible entries c c') (hfree : c.free i = true)
    (hclear : c'.verdict entries i r = .clear) : Compatible entries (c.write i r) c' :=
  h.lock hfree (apart_of_verdict hclear).1 (apart_of_verdict hclear).2

end

end Cell

/-! ## Tables -/

/-- A table: its rows, whose ids are their places. No two of them have an entry in common. -/
structure Rows (ι ρ κ : Type) [DecidableEq ι] (entries : ρ → List κ) where
  cells : List (Cell ι ρ)
  unique : ∀ (id id' : Nat) (c c' : Cell ι ρ), cells[id]? = some c → cells[id']? = some c' →
    id ≠ id' → Cell.Compatible entries c c'

namespace Rows

open Cell Option

variable [DecidableEq ι] {entries : ρ → List κ}

def empty : Rows ι ρ κ entries := ⟨[], nofun⟩

variable (rows : Rows ι ρ κ entries)

def committed (id : Nat) : Option ρ := rows.cells[id]?.bind (·.committed)

def seen (i : ι) (id : Nat) : Option ρ := rows.cells[id]?.bind (·.seen i)

/-- The rows that satisfy `p`, as a transaction sees them. -/
def select (i : ι) (p : Nat → ρ → Bool) : List (Nat × ρ) :=
  rows.cells.zipIdx.filterMap fun x => ((x.1.seen i).filter (p x.2)).map fun r => (x.2, r)

theorem unique_of_apart {f : Cell ι ρ → Option ρ} {id id' : Nat} {r r' : ρ} {k : κ}
    (hf : ∀ c c', Compatible entries c c' → Apart entries (f c) (f c'))
    (hr : rows.cells[id]?.bind f = some r) (hr' : rows.cells[id']?.bind f = some r')
    (hk : k ∈ entries r) (hk' : k ∈ entries r') : id = id' := by
  obtain ⟨c, hc, hr⟩ := bind_eq_some_iff.1 hr
  obtain ⟨c', hc', hr'⟩ := bind_eq_some_iff.1 hr'
  by_contra hne
  exact hf c c' (rows.unique id id' c c' hc hc' hne) r r' k hr hr' hk hk'

def map (f : Cell ι ρ → Cell ι ρ)
    (hf : ∀ c c', Compatible entries c c' → Compatible entries (f c) (f c')) :
    Rows ι ρ κ entries where
  cells := rows.cells.map f
  unique id id' c c' hc hc' hne := by
    rw [List.getElem?_map, map_eq_some_iff] at hc hc'
    obtain ⟨d, hd, rfl⟩ := hc
    obtain ⟨d', hd', rfl⟩ := hc'
    exact hf d d' (rows.unique id id' d d' hd hd' hne)

def commit (i : ι) : Rows ι ρ κ entries := rows.map (.commit i) fun _ _ => .commit

def rollback (i : ι) : Rows ι ρ κ entries := rows.map (.rollback i) fun _ _ => .rollback

def set (id : Nat) (c : Cell ι ρ)
    (h : ∀ id' c', rows.cells[id']? = some c' → id' ≠ id → Compatible entries c c') :
    Rows ι ρ κ entries where
  cells := rows.cells.set id c
  unique id₁ id₂ c₁ c₂ h₁ h₂ hne := by
    rw [List.getElem?_set] at h₁ h₂
    split_ifs at h₁ h₂ with e₁ _ e₂ _ e₂
    · exact absurd (e₁.symm.trans e₂) hne
    · cases h₁
      exact h id₂ c₂ h₂ fun e => e₂ e.symm
    · cases h₂
      exact (h id₁ c₁ h₁ fun e => e₁ e.symm).symm
    · exact rows.unique id₁ id₂ c₁ c₂ h₁ h₂ hne

def blank : Rows ι ρ κ entries where
  cells := rows.cells ++ [⟨none, none⟩]
  unique id id' c c' hc hc' hne := by
    rw [List.getElem?_append] at hc hc'
    split_ifs at hc hc' with h h'
    · exact rows.unique id id' c c' hc hc' hne
    · cases List.mem_singleton.1 (List.mem_of_getElem? hc')
      exact compatible_blank.symm
    · cases List.mem_singleton.1 (List.mem_of_getElem? hc)
      exact compatible_blank
    · have hlt := (List.getElem?_eq_some_iff.1 hc).1
      have hlt' := (List.getElem?_eq_some_iff.1 hc').1
      rw [List.length_singleton] at hlt hlt'
      omega

/-- `FOR UPDATE` on a row that no other transaction has locked. -/
def hold (i : ι) (id : Nat) : Rows ι ρ κ entries :=
  match hc : rows.cells[id]? with
  | none => rows
  | some c =>
    if hfree : c.free i = true then
      rows.set id (c.hold i) fun id' c' hc' hne =>
        (rows.unique id id' c c' hc hc' hne.symm).hold hfree
    else rows

variable [DecidableEq κ]

/-- What the other rows say. -/
def verdict (i : ι) (id : Nat) (r : ρ) : Verdict :=
  let verdicts := (rows.cells.eraseIdx id).map (Cell.verdict entries i r)
  if .violation ∈ verdicts then .violation
  else if .wait ∈ verdicts then .wait
  else .clear

theorem clear_of_verdict {i : ι} {id : Nat} {r : ρ} (h : rows.verdict i id r = .clear) {id' : Nat}
    {c : Cell ι ρ} (hc : rows.cells[id']? = some c) (hne : id' ≠ id) :
    c.verdict entries i r = .clear := by
  simp only [verdict] at h
  have hmem : c.verdict entries i r ∈
      (rows.cells.eraseIdx id).map (Cell.verdict entries i r) :=
    List.mem_map_of_mem (List.mem_eraseIdx_iff_getElem?.2 ⟨id', hne, hc⟩)
  split_ifs at h with hviolation hwait
  cases hv : c.verdict entries i r with
  | clear => rfl
  | wait => exact absurd (hv ▸ hmem) hwait
  | violation => exact absurd (hv ▸ hmem) hviolation

/-- A row is written: none if the transaction has to wait, and an error for a unique violation. -/
def write (i : ι) (id : Nat) (r : ρ) : Option (Except Unit (Rows ι ρ κ entries)) :=
  match hc : rows.cells[id]? with
  | none => none
  | some c =>
    if hfree : c.free i = true then
      match hv : rows.verdict i id r with
      | .clear =>
        some (.ok (rows.set id (c.write i r) fun id' c' hc' hne =>
          (rows.unique id id' c c' hc hc' hne.symm).write hfree (rows.clear_of_verdict hv hc' hne)))
      | .wait => none
      | .violation => some (.error ())
    else none

variable {rows} {rows' : Rows ι ρ κ entries} {i : ι} {id : Nat} {r : ρ}

theorem write_eq_ok (h : rows.write i id r = some (.ok rows')) :
    ∃ c, rows.cells[id]? = some c ∧ c.free i = true ∧
      rows'.cells = rows.cells.set id (c.write i r) := by
  unfold write at h
  split at h
  · cases h
  · rename_i c hc
    split_ifs at h with hfree
    split at h
    · cases h
      exact ⟨c, hc, hfree, rfl⟩
    · cases h
    · cases h

omit [DecidableEq κ] in
theorem cells_hold {c : Cell ι ρ} (hc : rows.cells[id]? = some c) (hfree : c.free i = true) :
    (rows.hold i id).cells = rows.cells.set id (c.hold i) := by
  unfold hold
  split
  · rename_i hnone
    cases hnone.symm.trans hc
  · rename_i c' hc'
    cases hc'.symm.trans hc
    rw [dif_pos hfree]
    rfl

omit [DecidableEq κ] in
theorem mem_select {p : Nat → ρ → Bool} {x : Nat × ρ} :
    x ∈ rows.select i p ↔ rows.seen i x.1 = some x.2 ∧ p x.1 x.2 = true := by
  simp only [select, List.mem_filterMap, List.mem_zipIdx_iff_getElem?, map_eq_some_iff,
    filter_eq_some_iff, seen, bind_eq_some_iff]
  constructor
  · rintro ⟨⟨c, n⟩, hc, r, ⟨hseen, hp⟩, rfl⟩
    exact ⟨⟨c, hc, hseen⟩, hp⟩
  · rintro ⟨⟨c, hc, hseen⟩, hp⟩
    exact ⟨(c, x.1), hc, x.2, ⟨hseen, hp⟩, rfl⟩

end Rows

end Edr
