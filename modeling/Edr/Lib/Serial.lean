import Edr.Lib.Table

/-!
# Tables with serial ids

A table with a unique key, whose rows get an id from a sequence when they are inserted. Other tables
refer to a row by its id. A value of the sequence is used up by every insertion, also by one that
finds its key taken.
-/

namespace Edr

open Option Table

structure Serial (κ ρ : Type*) [DecidableEq κ] where
  table : Table κ (Nat × ρ)
  next : Nat
  lt_next : ∀ k id r, table.get? k = some (id, r) → id < next
  inj : ∀ k k' id r r', table.get? k = some (id, r) → table.get? k' = some (id, r') → k = k'

namespace Serial

variable {κ ρ : Type*} [DecidableEq κ]

def empty : Serial κ ρ where
  table := .empty
  next := 1
  lt_next _ _ _ h := nomatch h
  inj _ _ _ _ _ h := nomatch h

def get? (t : Serial κ ρ) (k : κ) : Option (Nat × ρ) := t.table.get? k

def find? (id : Nat) (t : Serial κ ρ) : Option (κ × ρ) :=
  (t.table.rows.find? fun x => decide (x.2.1 = id)).map fun x => (x.1, x.2.2)

variable {t t' t'' : Serial κ ρ} {k k' : κ} {id : Nat} {r r' : ρ}

theorem find?_eq_some : t.find? id = some (k, r) ↔ t.get? k = some (id, r) := by
  rw [find?, map_eq_some_iff, get?]
  constructor
  · rintro ⟨⟨k', id', r'⟩, hx, he⟩
    cases he
    have hid := List.find?_some hx
    rw [decide_eq_true_eq] at hid
    exact hid ▸ mem_rows.1 (List.mem_of_find?_eq_some hx)
  · intro h
    have hsome : (t.table.rows.find? fun x => decide (x.2.1 = id)).isSome = true :=
      List.find?_isSome.2 ⟨_, mem_rows.2 h, decide_eq_true rfl⟩
    obtain ⟨⟨k', id', r'⟩, hx⟩ := isSome_iff_exists.1 hsome
    have hid := List.find?_some hx
    rw [decide_eq_true_eq] at hid
    subst hid
    have h' := mem_rows.1 (List.mem_of_find?_eq_some hx)
    cases t.inj k k' id' r r' h h'
    cases h.symm.trans h'
    exact ⟨_, hx, rfl⟩

theorem nodup_ids (t : Serial κ ρ) : (t.table.rows.map fun x => x.2.1).Nodup := by
  refine .map_on (fun x hx y hy hid => ?_) (.of_map _ t.table.nodup)
  obtain ⟨k, id, r⟩ := x
  obtain ⟨k', id', r'⟩ := y
  cases hid
  have h := mem_rows.1 hx
  have h' := mem_rows.1 hy
  cases t.inj k k' id r r' h h'
  cases h.symm.trans h'
  rfl

/-- A table after an operation that gave the next id to the key `k`, or to none. -/
def Follows (t : Serial κ ρ) (k : κ) (u : Table κ (Nat × ρ)) : Prop :=
  ∀ k' id r, u.get? k' = some (id, r) →
    (∃ r', t.table.get? k' = some (id, r')) ∨ k' = k ∧ id = t.next

theorem Follows.lt_next {u : Table κ (Nat × ρ)} (h : t.Follows k u) (hk : u.get? k' = some (id, r)) :
    id < t.next + 1 := by
  rcases h k' id r hk with ⟨r', hr'⟩ | ⟨-, rfl⟩
  · exact Nat.lt_succ_of_lt (t.lt_next k' id r' hr')
  · exact Nat.lt_succ_self _

theorem Follows.inj {u : Table κ (Nat × ρ)} {k₁ k₂ : κ} {r₁ r₂ : ρ} (h : t.Follows k u)
    (h₁ : u.get? k₁ = some (id, r₁)) (h₂ : u.get? k₂ = some (id, r₂)) : k₁ = k₂ := by
  rcases h k₁ id r₁ h₁ with ⟨r₁', h₁'⟩ | ⟨rfl, hid⟩ <;>
    rcases h k₂ id r₂ h₂ with ⟨r₂', h₂'⟩ | ⟨rfl, hid'⟩
  · exact t.inj k₁ k₂ id r₁' r₂' h₁' h₂'
  · exact absurd hid' (Nat.ne_of_lt (t.lt_next k₁ id r₁' h₁'))
  · exact absurd hid (Nat.ne_of_lt (t.lt_next k₂ id r₂' h₂'))
  · rfl

theorem follows_upsert (t : Serial κ ρ) (k : κ) (r : ρ) (f : ρ → ρ) :
    t.Follows k (t.table.upsert k fun x => x.elim (t.next, r) fun x => (x.1, f x.2)) := by
  intro k' id r' h
  rw [get?_upsert] at h
  split_ifs at h with hk
  · subst hk
    cases hx : t.table.get? k' with
    | none =>
      rw [hx] at h
      cases h
      exact .inr ⟨rfl, rfl⟩
    | some x =>
      rw [hx] at h
      cases h
      exact .inl ⟨x.2, rfl⟩
  · exact .inl ⟨r', h⟩

theorem follows_insert (t : Serial κ ρ) (k : κ) (r : ρ) :
    t.Follows k (t.table.insert k (t.next, r)) := by
  intro k' id r' h
  refine follows_upsert t k r (fun r => r) k' id r' ?_
  rw [get?_upsert, ← h, get?_insert]
  cases t.table.get? k <;> rfl

/-- A new row under the key `k`, unless it is taken. -/
def insert (k : κ) (r : ρ) (t : Serial κ ρ) : Serial κ ρ where
  table := t.table.insert k (t.next, r)
  next := t.next + 1
  lt_next _ _ _ h := (t.follows_insert k r).lt_next h
  inj _ _ _ _ _ h h' := (t.follows_insert k r).inj h h'

/-- A new row under the key `k`, or `f` on the row that is there. -/
def upsert (k : κ) (r : ρ) (f : ρ → ρ) (t : Serial κ ρ) : Serial κ ρ where
  table := t.table.upsert k fun x => x.elim (t.next, r) fun x => (x.1, f x.2)
  next := t.next + 1
  lt_next _ _ _ h := (t.follows_upsert k r f).lt_next h
  inj _ _ _ _ _ h h' := (t.follows_upsert k r f).inj h h'

theorem exists_of_update {p : Nat → ρ → Bool} {f : ρ → ρ}
    (h : (t.table.update (fun _ x => p x.1 x.2) fun x => (x.1, f x.2)).get? k = some (id, r)) :
    ∃ r', t.table.get? k = some (id, r') := by
  rw [get?_update, map_eq_some_iff] at h
  obtain ⟨⟨id', r'⟩, hx, he⟩ := h
  split_ifs at he <;> cases he <;> exact ⟨_, hx⟩

/-- `f` on all the rows that satisfy `p`. -/
def update (p : Nat → ρ → Bool) (f : ρ → ρ) (t : Serial κ ρ) : Serial κ ρ where
  table := t.table.update (fun _ x => p x.1 x.2) fun x => (x.1, f x.2)
  next := t.next
  lt_next k' id r' h := by
    obtain ⟨r, hr⟩ := exists_of_update h
    exact t.lt_next k' id r hr
  inj k₁ k₂ id r₁ r₂ h₁ h₂ := by
    obtain ⟨r₁', h₁'⟩ := exists_of_update h₁
    obtain ⟨r₂', h₂'⟩ := exists_of_update h₂
    exact t.inj k₁ k₂ id r₁' r₂' h₁' h₂'

theorem get?_insert (t : Serial κ ρ) (k k' : κ) (r : ρ) :
    (t.insert k r).get? k' =
      if k' = k then some ((t.get? k).getD (t.next, r)) else t.get? k' :=
  t.table.get?_insert k k' _

theorem get?_upsert (t : Serial κ ρ) (k k' : κ) (r : ρ) (f : ρ → ρ) :
    (t.upsert k r f).get? k' =
      if k' = k then some ((t.get? k).elim (t.next, r) fun x => (x.1, f x.2)) else t.get? k' :=
  t.table.get?_upsert k k' _

theorem get?_update (p : Nat → ρ → Bool) (f : ρ → ρ) (t : Serial κ ρ) (k : κ) :
    (t.update p f).get? k =
      (t.get? k).map fun x => if p x.1 x.2 then (x.1, f x.2) else x :=
  t.table.get?_update _ _ k

theorem get?_update_eq_some {p : Nat → ρ → Bool} {f : ρ → ρ} :
    (t.update p f).get? k = some (id, r) ↔
      t.get? k = some (id, r) ∧ p id r = false ∨
        ∃ r', t.get? k = some (id, r') ∧ p id r' = true ∧ r = f r' := by
  rw [get?_update, map_eq_some_iff]
  constructor
  · rintro ⟨⟨id', r'⟩, hget, he⟩
    split_ifs at he with hp
    · cases he
      exact .inr ⟨r', hget, hp, rfl⟩
    · cases he
      exact .inl ⟨hget, Bool.eq_false_iff.2 hp⟩
  · rintro (⟨hget, hp⟩ | ⟨r', hget, hp, rfl⟩)
    · exact ⟨_, hget, by rw [hp, if_neg Bool.false_ne_true]⟩
    · exact ⟨_, hget, by rw [hp, if_pos rfl]⟩

theorem exists_of_get?_update {p : Nat → ρ → Bool} {f : ρ → ρ}
    (h : (t.update p f).get? k = some (id, r)) : ∃ r', t.get? k = some (id, r') :=
  exists_of_update h

/-! ## Extensions -/

/-- The rows of one table are in the other, under the same ids. -/
def Extends (t t' : Serial κ ρ) : Prop :=
  ∀ k id r, t.get? k = some (id, r) → ∃ r', t'.get? k = some (id, r')

theorem Extends.refl (t : Serial κ ρ) : t.Extends t := fun _ _ r h => ⟨r, h⟩

theorem extends_upsert (k : κ) (r : ρ) (f : ρ → ρ) (t : Serial κ ρ) :
    t.Extends (t.upsert k r f) := by
  intro k' id r' h
  rw [get?_upsert]
  split_ifs with hk
  · subst hk
    rw [h]
    exact ⟨f r', rfl⟩
  · exact ⟨r', h⟩

theorem extends_update (p : Nat → ρ → Bool) (f : ρ → ρ) (t : Serial κ ρ) :
    t.Extends (t.update p f) := by
  intro k id r h
  rw [get?_update, h, map_some]
  by_cases hp : p id r = true
  · exact ⟨f r, by rw [if_pos hp]⟩
  · exact ⟨r, by rw [if_neg hp]⟩

end Serial

end Edr
