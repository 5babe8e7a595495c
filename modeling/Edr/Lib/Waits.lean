import Edr.Lib.System

/-!
# Transactions that wait for each other

Transactions of the parties `P` that lock resources `R`, in a shared or in an exclusive mode. A
transaction makes its requests one after the other, and keeps what it is granted until it ends,
which it may do at any time. A request is granted if no other transaction holds the resource in a
mode that conflicts, and none that asked before waits for it in such a mode.

A transaction *waits for* those that are in the way of its request (`Locking.WaitsFor`).
-/

namespace Edr

open List Function

inductive LockMode
  | shared
  | exclusive
  deriving DecidableEq

namespace LockMode

def conflicts : LockMode → LockMode → Bool
  | .shared, .shared => false
  | .shared, .exclusive => true
  | .exclusive, _ => true

def covers : LockMode → LockMode → Bool
  | .shared, .shared => true
  | .shared, .exclusive => false
  | .exclusive, _ => true

theorem conflicts_comm (m m' : LockMode) : m.conflicts m' = m'.conflicts m := by
  cases m <;> cases m' <;> rfl

theorem conflicts_of_covers {m m' n : LockMode} (h : m.covers m') (hn : n.conflicts m') :
    n.conflicts m := by
  cases m <;> cases m' <;> cases n <;> first | rfl | exact absurd h Bool.false_ne_true | exact hn

end LockMode

structure LockRequest (R : Type*) where
  resource : R
  mode : LockMode
  keep : Bool
  deriving DecidableEq

/-- A transaction: its requests, how many of them have been granted, and the ticket of the next one
    if it waits. -/
structure Transaction (R : Type*) where
  plan : List (LockRequest R)
  granted : Nat
  ticket : Option Nat
  deriving DecidableEq

namespace Transaction

variable {R : Type*}

def idle : Transaction R := ⟨[], 0, none⟩

def held (t : Transaction R) : List (LockRequest R) := (t.plan.take t.granted).filter (·.keep)

def wanted (t : Transaction R) : Option (LockRequest R) := t.plan[t.granted]?

def awaits (t : Transaction R) : Option (LockRequest R × Nat) :=
  t.ticket.bind fun n => t.wanted.map fun q => (q, n)

def covered [DecidableEq R] (t : Transaction R) (q : LockRequest R) : Bool :=
  t.held.any fun l => l.resource = q.resource ∧ l.mode.covers q.mode

def grant (t : Transaction R) : Transaction R := ⟨t.plan, t.granted + 1, none⟩

def wait (t : Transaction R) (n : Nat) : Transaction R := ⟨t.plan, t.granted, some n⟩

variable {t : Transaction R} {q : LockRequest R} {n : Nat}

theorem awaits_eq_some : t.awaits = some (q, n) ↔ t.ticket = some n ∧ t.wanted = some q := by
  rw [awaits]
  rcases t.ticket with _ | k <;> rcases t.wanted with _ | q' <;> simp [and_comm]

theorem held_grant (h : t.wanted = some q) :
    t.grant.held = t.held ++ if q.keep then [q] else [] := by
  have htake : t.plan.take (t.granted + 1) = t.plan.take t.granted ++ [q] := by
    rw [take_add_one, show t.plan[t.granted]? = some q from h]
    rfl
  rw [held, held, grant, htake, filter_append]
  cases hkeep : q.keep <;> simp [hkeep]

theorem mem_held_grant {l : LockRequest R} (h : t.wanted = some q) (hl : l ∈ t.grant.held) :
    l ∈ t.held ∨ l = q := by
  rw [held_grant h, mem_append] at hl
  refine hl.imp_right fun hl => ?_
  split_ifs at hl
  · exact mem_singleton.1 hl
  · exact absurd hl not_mem_nil

theorem rel_of_pairwise {S : LockRequest R → LockRequest R → Prop} {l : LockRequest R}
    (h : t.plan.Pairwise S) (hl : l ∈ t.held) (hq : t.wanted = some q) : S l q := by
  rw [← take_append_drop t.granted t.plan, pairwise_append] at h
  refine h.2.2 l (mem_filter.1 hl).1 q ?_
  have hdrop : (t.plan.drop t.granted)[0]? = some q := by
    rw [getElem?_drop]
    exact hq
  exact mem_of_getElem? hdrop

theorem mem_plan_of_held {l : LockRequest R} (hl : l ∈ t.held) : l ∈ t.plan :=
  mem_of_mem_take (mem_filter.1 hl).1

theorem mem_plan_of_wanted (hq : t.wanted = some q) : q ∈ t.plan := mem_of_getElem? hq

theorem mem_held_of_head {l : LockRequest R} {rest : List (LockRequest R)} (hl : l ∈ t.held)
    (hplan : t.plan = q :: rest) (hkeep : q.keep) : q ∈ t.held := by
  refine mem_filter.2 ⟨?_, hkeep⟩
  rw [held, hplan] at hl
  rw [hplan]
  rcases hgranted : t.granted with _ | k
  · rw [hgranted] at hl
    exact absurd hl not_mem_nil
  · exact mem_cons_self

end Transaction

@[ext] structure Locking (P R : Type*) where
  txn : P → Transaction R
  clock : Nat

inductive LockLabel (P R : Type*)
  | start (p : P) (plan : List (LockRequest R))
  | request (p : P)
  | wake (p : P)
  | finish (p : P)

namespace Locking

variable {P R : Type*} [DecidableEq P] [DecidableEq R]

def blocks (s : Locking P R) (p : P) (q : LockRequest R) (n : Nat) : Bool :=
  ((s.txn p).held.any fun l => l.resource = q.resource ∧ l.mode.conflicts q.mode) ||
    (s.txn p).awaits.any fun w =>
      w.1.resource = q.resource ∧ w.2 < n ∧ w.1.mode.conflicts q.mode

/-- The transaction of `p` waits for the one of `p'`. -/
def WaitsFor (s : Locking P R) (p p' : P) : Prop :=
  ∃ q n, (s.txn p).awaits = some (q, n) ∧ p' ≠ p ∧ s.blocks p' q n

instance (s : Locking P R) (p p' : P) : Decidable (s.WaitsFor p p') :=
  decidable_of_iff (∃ w ∈ (s.txn p).awaits, p' ≠ p ∧ s.blocks p' w.1 w.2)
    ⟨fun ⟨w, hw, h⟩ => ⟨w.1, w.2, hw, h⟩, fun ⟨q, n, hw, h⟩ => ⟨(q, n), hw, h⟩⟩

def Grantable (s : Locking P R) (p : P) (q : LockRequest R) (n : Nat) : Prop :=
  ∀ p', p' ≠ p → s.blocks p' q n = false

instance [Fintype P] (s : Locking P R) (p : P) (q : LockRequest R) (n : Nat) :
    Decidable (s.Grantable p q n) :=
  inferInstanceAs (Decidable (∀ p', p' ≠ p → s.blocks p' q n = false))

def set (s : Locking P R) (p : P) (t : Transaction R) : Locking P R :=
  { s with txn := update s.txn p t }

def next [Fintype P] (s : Locking P R) : LockLabel P R → Option (Locking P R)
  | .start p plan => if s.txn p = .idle then some (s.set p ⟨plan, 0, none⟩) else none
  | .request p =>
    match (s.txn p).ticket, (s.txn p).wanted with
    | none, some q =>
      if (s.txn p).covered q ∨ s.Grantable p q s.clock then
        some (s.set p (s.txn p).grant)
      else
        some { s.set p ((s.txn p).wait s.clock) with clock := s.clock + 1 }
    | _, _ => none
  | .wake p =>
    match (s.txn p).awaits with
    | some (q, n) => if s.Grantable p q n then some (s.set p (s.txn p).grant) else none
    | none => none
  | .finish p => some (s.set p .idle)

def system (P R : Type*) [DecidableEq P] [DecidableEq R] [Fintype P] :
    System (Locking P R) (LockLabel P R) where
  init := ⟨fun _ => .idle, 0⟩
  next := next

def Follows (Runs : P → List (LockRequest R) → Prop) (_ : Locking P R) : LockLabel P R → Prop
  | .start p plan => Runs p plan
  | .request _ | .wake _ | .finish _ => True

section

variable {s s' : Locking P R} {p p' : P} {t : Transaction R} {q : LockRequest R} {n : Nat}

/-- What a step does to the transaction of one party; the others are left alone. -/
inductive Moves (s : Locking P R) (p : P) : LockLabel P R → Transaction R → Prop
  | start {plan : List (LockRequest R)} : Moves s p (.start p plan) ⟨plan, 0, none⟩
  | grant {q : LockRequest R} {n : Nat} {a : LockLabel P R} :
    (s.txn p).wanted = some q → (s.txn p).covered q ∨ s.Grantable p q n →
      Moves s p a (s.txn p).grant
  | wait {q : LockRequest R} : (s.txn p).wanted = some q → (s.txn p).covered q = false →
      Moves s p (.request p) ((s.txn p).wait s.clock)
  | finish : Moves s p (.finish p) .idle

theorem exists_moves [Fintype P] {a : LockLabel P R} (h : s.next a = some s') :
    ∃ p t, Moves s p a t ∧ s'.txn = update s.txn p t := by
  cases a with
  | start p plan =>
    rw [next] at h
    split_ifs at h
    cases h
    exact ⟨p, _, .start, rfl⟩
  | request p =>
    rw [next] at h
    split at h
    · rename_i q _ hq
      split_ifs at h with hgrant
      · cases h
        exact ⟨p, _, .grant hq hgrant, rfl⟩
      · cases h
        have huncovered : (s.txn p).covered q = false :=
          Bool.eq_false_iff.2 fun hc => hgrant (.inl hc)
        exact ⟨p, _, .wait hq huncovered, rfl⟩
    · cases h
  | wake p =>
    rw [next] at h
    split at h
    · rename_i q n hawaits
      split_ifs at h with hgrant
      cases h
      exact ⟨p, _, .grant (Transaction.awaits_eq_some.1 hawaits).2 (.inr hgrant), rfl⟩
    · cases h
  | finish p =>
    cases h
    exact ⟨p, _, .finish, rfl⟩

end

/-! ## What holds in every state -/

/-- No two transactions hold a resource in modes that conflict, none waits for what it holds, and
    each is one that its party runs. -/
structure Sound (Runs : P → List (LockRequest R) → Prop) (s : Locking P R) : Prop where
  compatible : ∀ p p', p ≠ p' → ∀ l ∈ (s.txn p).held, ∀ l' ∈ (s.txn p').held,
    l.resource = l'.resource → l.mode.conflicts l'.mode = false
  uncovered : ∀ p q n, (s.txn p).awaits = some (q, n) → (s.txn p).covered q = false
  plan : ∀ p, (s.txn p).plan = [] ∨ Runs p (s.txn p).plan

namespace Sound

variable {Runs : P → List (LockRequest R) → Prop} {s s' : Locking P R} {p : P} {t : Transaction R}
  {q : LockRequest R} {a : LockLabel P R}

omit [DecidableEq P] in
theorem compatible_grant {n : Nat} (h : s.Sound Runs)
    (hgrant : (s.txn p).covered q ∨ s.Grantable p q n) {p' : P} (hp : p' ≠ p)
    {l : LockRequest R} (hl : l ∈ (s.txn p').held) (hr : l.resource = q.resource) :
    l.mode.conflicts q.mode = false := by
  rw [← Bool.not_eq_true]
  intro hconflict
  rcases hgrant with hcovered | hgrantable
  · -- it conflicts with the lock that covers the request, too
    rw [Transaction.covered, any_eq_true] at hcovered
    obtain ⟨own, hown, hcovers⟩ := hcovered
    rw [decide_eq_true_eq] at hcovers
    have hcompatible := h.compatible p' p hp l hl own hown (hr.trans hcovers.1.symm)
    rw [LockMode.conflicts_of_covers hcovers.2 hconflict] at hcompatible
    cases hcompatible
  · have hblocks : s.blocks p' q n = true := by
      rw [blocks, Bool.or_eq_true, any_eq_true]
      exact .inl ⟨l, hl, decide_eq_true ⟨hr, hconflict⟩⟩
    rw [hgrantable p' hp] at hblocks
    cases hblocks

theorem update (h : s.Sound Runs) (htxn : s'.txn = update s.txn p t)
    (hheld : ∀ p', p' ≠ p → ∀ l ∈ t.held, ∀ l' ∈ (s.txn p').held, l.resource = l'.resource →
      l'.mode.conflicts l.mode = false)
    (huncovered : ∀ q n, t.awaits = some (q, n) → t.covered q = false)
    (hplan : t.plan = [] ∨ Runs p t.plan) : s'.Sound Runs where
  compatible p₁ p₂ hne l hl l' hl' hr := by
    rw [htxn] at hl hl'
    by_cases h₁ : p₁ = p <;> by_cases h₂ : p₂ = p
    · exact absurd (h₁.trans h₂.symm) hne
    · subst h₁
      rw [update_self] at hl
      rw [update_of_ne h₂] at hl'
      rw [LockMode.conflicts_comm]
      exact hheld p₂ h₂ l hl l' hl' hr
    · subst h₂
      rw [update_self] at hl'
      rw [update_of_ne h₁] at hl
      exact hheld p₁ h₁ l' hl' l hl hr.symm
    · rw [update_of_ne h₁] at hl
      rw [update_of_ne h₂] at hl'
      exact h.compatible p₁ p₂ hne l hl l' hl' hr
  uncovered p' q n := by
    rw [htxn, update_apply]
    split_ifs
    · exact huncovered q n
    · exact h.uncovered p' q n
  plan p' := by
    rw [htxn, update_apply]
    split_ifs with hp
    · exact hp ▸ hplan
    · exact h.plan p'

theorem moves (h : s.Sound Runs) (ha : Follows Runs s a) (hm : Moves s p a t)
    (htxn : s'.txn = Function.update s.txn p t) : s'.Sound Runs := by
  cases hm with
  | @start plan =>
    exact h.update htxn nofun nofun
      (.inr ha)
  | @grant q n _ hwanted hgrant =>
    refine h.update htxn (fun p' hp l hl l' hl' hr => ?_) nofun (h.plan p)
    rcases Transaction.mem_held_grant hwanted hl with hold | rfl
    · exact h.compatible p' p hp l' hl' l hold hr.symm
    · exact h.compatible_grant hgrant hp hl' hr.symm
  | @wait q hwanted huncovered =>
    refine h.update htxn (fun p' hp l hl l' hl' hr => ?_) (fun q' n hq => ?_) (h.plan p)
    · exact h.compatible p' p hp l' hl' l hl hr.symm
    · obtain rfl := Option.some.inj (hwanted.symm.trans (Transaction.awaits_eq_some.1 hq).2)
      exact huncovered
  | finish =>
    exact h.update htxn nofun nofun
      (.inl rfl)

end Sound

theorem sound_of_reachable [Fintype P] {Runs : P → List (LockRequest R) → Prop} {s : Locking P R}
    (h : (system P R).Reachable (Follows Runs) s) : s.Sound Runs := by
  refine h.invariant ⟨?_, ?_, fun _ => .inl rfl⟩ fun s a s' _ hs ha hn => ?_
  · exact nofun
  · exact nofun
  · obtain ⟨p, t, hm, htxn⟩ := exists_moves hn
    exact hs.moves ha hm htxn

/-! ## No circles -/

section

variable {s : Locking P R} {β : Type*} [Preorder β] {rank : R → β}

def place (rank : R → β) (w : LockRequest R × Nat) : β ×ₗ ℕᵒᵈ :=
  toLex (rank w.1.resource, .toDual w.2)

omit [DecidableEq P] in
theorem WaitsFor.place_lt {p p' : P} {w w' : LockRequest R × Nat}
    (hrank : ∀ p q n, (s.txn p).awaits = some (q, n) →
      ∀ l ∈ (s.txn p).held, rank l.resource < rank q.resource)
    (h : s.WaitsFor p p') (hw : (s.txn p).awaits = some w) (hw' : (s.txn p').awaits = some w') :
    place rank w < place rank w' := by
  obtain ⟨q, n, hq, -, hblocks⟩ := h
  obtain rfl := Option.some.inj (hq.symm.trans hw)
  rw [place, place, Prod.Lex.toLex_lt_toLex]
  rw [blocks, Bool.or_eq_true, any_eq_true, hw', Option.any_some, decide_eq_true_eq] at hblocks
  rcases hblocks with ⟨l, hl, hconflict⟩ | ⟨hresource, hticket, -⟩
  · rw [decide_eq_true_eq] at hconflict
    exact .inl (hconflict.1 ▸ hrank p' w'.1 w'.2 hw' l hl)
  · exact .inr ⟨by rw [hresource], hticket⟩

omit [DecidableEq P] in
/-- If whoever waits for a resource holds only lower ones, no transactions wait for each other in a
    circle. The order may depend on the state. -/
theorem acyclic_of_rank (rank : R → β)
    (hrank : ∀ p q n, (s.txn p).awaits = some (q, n) →
      ∀ l ∈ (s.txn p).held, rank l.resource < rank q.resource) (p : P) :
    ¬ Relation.TransGen s.WaitsFor p p := by
  have hplace (p p' : P) (h : Relation.TransGen s.WaitsFor p p') : ∀ w w',
      (s.txn p).awaits = some w → (s.txn p').awaits = some w' → place rank w < place rank w' := by
    induction h with
    | single h => exact fun w w' => h.place_lt hrank
    | tail _ hlast ih =>
      intro w w' hw hw'
      obtain ⟨q, n, hq, -⟩ := id hlast
      exact (ih w _ hw hq).trans (hlast.place_lt hrank hq hw')
  intro h
  obtain ⟨_, ⟨q, n, hq, -⟩, -⟩ := Relation.TransGen.head'_iff.1 h
  exact lt_irrefl _ (hplace p p h _ _ hq hq)

end

end Locking

end Edr
