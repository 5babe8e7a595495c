import Mathlib

/-!
# Tables with a primary key

A table is a list of rows, each under its key, in which no key occurs twice: the
primary key is part of the type. The operations are those of the statements of
a relational database, as functions of the table.

* `Table.OneRowFor S`: there is one row for each key of `S`, and there are no others.
-/

namespace Edr

open List

structure Table (κ ρ : Type*) where
  rows : List (κ × ρ)
  nodup : (rows.map Prod.fst).Nodup

namespace Table

variable {κ ρ : Type*}

def empty : Table κ ρ := ⟨[], List.nodup_nil⟩

/-- `f` on all the rows that satisfy `p`. -/
def update (p : κ → ρ → Bool) (f : ρ → ρ) (t : Table κ ρ) : Table κ ρ where
  rows := t.rows.map fun x => if p x.1 x.2 then (x.1, f x.2) else x
  nodup := by
    have : (Prod.fst ∘ fun x : κ × ρ => if p x.1 x.2 then (x.1, f x.2) else x) = Prod.fst := by
      funext x
      by_cases h : p x.1 x.2 <;> simp [h]
    rw [List.map_map, this]
    exact t.nodup

/-- The rows that satisfy `p` are removed. -/
def delete (p : κ → ρ → Bool) (t : Table κ ρ) : Table κ ρ where
  rows := t.rows.filter fun x => !p x.1 x.2
  nodup := t.nodup.sublist (List.filter_sublist.map _)

/-- Is there a row that satisfies `p`? -/
def any (p : κ → ρ → Bool) (t : Table κ ρ) : Bool := t.rows.any fun x => p x.1 x.2

/-- Do all the rows satisfy `p`? -/
def all (p : κ → ρ → Bool) (t : Table κ ρ) : Bool := t.rows.all fun x => p x.1 x.2

/-- The rows that satisfy `p`, with their keys. -/
def select (p : κ → ρ → Bool) (t : Table κ ρ) : List (κ × ρ) := t.rows.filter fun x => p x.1 x.2

variable [DecidableEq κ]

def get? (t : Table κ ρ) (k : κ) : Option ρ := t.rows.lookup k

variable {k : κ} {r : ρ} {t : Table κ ρ}

theorem mem_rows : (k, r) ∈ t.rows ↔ t.get? k = some r := by
  obtain ⟨l, hl⟩ := t
  simp only [get?]
  induction l with
  | nil => simp
  | cons x l ih =>
    obtain ⟨k', r'⟩ := x
    rw [map_cons, nodup_cons] at hl
    rw [lookup_cons, mem_cons]
    by_cases hk : k = k'
    · subst hk
      -- The key occurs only here, so the row is this one.
      have hn : (k, r) ∉ l := fun h => hl.1 (mem_map.2 ⟨_, h, rfl⟩)
      simp [hn, eq_comm]
    · simp [hk, beq_false_of_ne hk, ih hl.2]

theorem get?_eq_none : t.get? k = none ↔ k ∉ t.rows.map Prod.fst := by
  simp only [Option.eq_none_iff_forall_ne_some, mem_map, Prod.exists, exists_and_right,
    exists_eq_right, not_exists, mem_rows, ne_eq]

/-- A new row under the key `k`; refused when the key is taken. -/
def insert (k : κ) (r : ρ) (t : Table κ ρ) : Table κ ρ :=
  if h : t.get? k = none then
    ⟨t.rows ++ [(k, r)], by
      rw [List.map_append, List.nodup_append]
      refine ⟨t.nodup, List.nodup_singleton _, fun a ha b hb hab => ?_⟩
      rw [List.map_singleton, List.mem_singleton] at hb
      rw [hab, hb] at ha
      exact get?_eq_none.1 h ha⟩
  else t

/-- The row under `k` becomes `f` of the row that is there, if any. -/
def upsert (k : κ) (f : Option ρ → ρ) (t : Table κ ρ) : Table κ ρ :=
  if t.get? k = none then t.insert k (f none)
  else t.update (fun k' _ => decide (k' = k)) fun r => f (some r)

def putAll (rows : List (κ × ρ)) (t : Table κ ρ) : Table κ ρ :=
  rows.foldl (fun t x => t.upsert x.1 fun _ => x.2) t

@[simp] theorem get?_empty (k : κ) : (empty : Table κ ρ).get? k = none := rfl

theorem get?_update (p : κ → ρ → Bool) (f : ρ → ρ) (t : Table κ ρ) (k : κ) :
    (t.update p f).get? k = (t.get? k).map fun r => if p k r then f r else r := by
  obtain ⟨l, hl⟩ := t
  simp only [get?, update]
  clear hl
  induction l with
  | nil => rfl
  | cons x l ih =>
    obtain ⟨k', r'⟩ := x
    by_cases hk : k = k'
    · subst hk
      by_cases hp : p k r' <;> simp [hp]
    · have hk' := beq_false_of_ne hk
      by_cases hp : p k' r' <;> simpa [hp, lookup_cons, hk'] using ih

theorem get?_insert (t : Table κ ρ) (k k' : κ) (r : ρ) :
    (t.insert k r).get? k' = if k' = k then some ((t.get? k).getD r) else t.get? k' := by
  unfold insert
  split_ifs with h hk hk
  · subst hk
    rw [h, Option.getD_none]
    exact mem_rows.1 (by simp)
  · rw [Option.ext_iff]
    intro r'
    rw [← mem_rows, ← mem_rows]
    simp [hk]
  · subst hk
    obtain ⟨r', hr'⟩ := Option.ne_none_iff_exists'.1 h
    rw [hr', Option.getD_some]
  · rfl

theorem get?_upsert (t : Table κ ρ) (k k' : κ) (f : Option ρ → ρ) :
    (t.upsert k f).get? k' = if k' = k then some (f (t.get? k)) else t.get? k' := by
  unfold upsert
  split_ifs with h hk hk
  · rw [get?_insert, if_pos hk, h, Option.getD_none]
  · rw [get?_insert, if_neg hk]
  · subst hk
    obtain ⟨r, hr⟩ := Option.ne_none_iff_exists'.1 h
    simp [get?_update, hr]
  · simp [get?_update, hk]

variable {rows : List (κ × ρ)}

theorem get?_putAll_of_not_mem (h : ∀ x ∈ rows, x.1 ≠ k) (t : Table κ ρ) :
    (t.putAll rows).get? k = t.get? k := by
  induction rows generalizing t with
  | nil => rfl
  | cons x rows ih =>
    rw [putAll, foldl_cons]
    refine (ih (fun y hy => h y (mem_cons_of_mem x hy)) _).trans ?_
    rw [get?_upsert, if_neg (h x mem_cons_self).symm]

theorem get?_putAll_of_mem (hr : (k, r) ∈ rows) (h : ∀ x ∈ rows, x.1 = k → x.2 = r) (t : Table κ ρ)
    : (t.putAll rows).get? k = some r := by
  induction rows generalizing t with
  | nil => cases hr
  | cons x rows ih =>
    have h' : ∀ y ∈ rows, y.1 = k → y.2 = r := fun y hy => h y (mem_cons_of_mem x hy)
    rw [putAll, foldl_cons]
    by_cases hk : ∃ y ∈ rows, y.1 = k
    · obtain ⟨⟨k', r'⟩, hy, hk⟩ := hk
      cases hk
      cases h' _ hy rfl
      exact ih hy h' _
    · have hx : x = (k, r) := by
        rcases mem_cons.1 hr with hx | hr
        · exact hx.symm
        · exact absurd ⟨_, hr, rfl⟩ hk
      refine (get?_putAll_of_not_mem (fun y hy hk' => hk ⟨y, hy, hk'⟩) _).trans ?_
      rw [get?_upsert, hx, if_pos rfl]

theorem get?_putAll_empty {o : Option ρ} (h : ∀ r, (k, r) ∈ rows ↔ o = some r) :
    (empty.putAll rows).get? k = o := by
  cases o with
  | none =>
    refine (get?_putAll_of_not_mem (fun x hx hk => ?_) _).trans (get?_empty k)
    subst hk
    exact Option.some_ne_none _ ((h x.2).1 hx).symm
  | some r =>
    refine get?_putAll_of_mem ((h r).2 rfl) (fun x hx hk => ?_) _
    subst hk
    exact (Option.some.inj ((h x.2).1 hx)).symm

theorem get?_delete (p : κ → ρ → Bool) (t : Table κ ρ) (k : κ) :
    (t.delete p).get? k = (t.get? k).filter fun r => !p k r := by
  rw [Option.ext_iff]
  intro r
  rw [← mem_rows, Option.filter_eq_some_iff, ← mem_rows]
  simp [delete]

variable {p : κ → ρ → Bool}

theorem any_iff : t.any p = true ↔ ∃ k r, t.get? k = some r ∧ p k r = true := by
  simp [any, mem_rows]

theorem all_iff : t.all p = true ↔ ∀ k r, t.get? k = some r → p k r = true := by
  simp [all, mem_rows]

theorem mem_select : (k, r) ∈ t.select p ↔ t.get? k = some r ∧ p k r = true := by
  rw [select, mem_filter, mem_rows]

omit [DecidableEq κ] in
theorem select_nodup (p : κ → ρ → Bool) (t : Table κ ρ) :
    ((t.select p).map Prod.fst).Nodup :=
  t.nodup.sublist (filter_sublist.map _)

/-- The table has exactly one row for each key of `S`, and no other rows. -/
def OneRowFor (t : Table κ ρ) (S : Set κ) : Prop :=
  ∀ k, (k ∈ S → (t.rows.map Prod.fst).count k = 1) ∧ (k ∉ S → (t.rows.map Prod.fst).count k = 0)

theorem oneRowFor_of_get? {S : Set κ} (h : ∀ k, k ∈ S ↔ ∃ r, t.get? k = some r) :
    t.OneRowFor S := by
  intro k
  have hmem : k ∈ t.rows.map Prod.fst ↔ k ∈ S := by
    rw [h k, mem_map, Prod.exists]
    constructor
    · rintro ⟨k', r, hr, rfl⟩
      exact ⟨r, mem_rows.1 hr⟩
    · rintro ⟨r, hr⟩
      exact ⟨k, r, mem_rows.2 hr, rfl⟩
  exact ⟨fun hk => count_eq_one_of_mem t.nodup (hmem.2 hk),
    fun hk => count_eq_zero.2 (mt hmem.1 hk)⟩

end Table

end Edr
