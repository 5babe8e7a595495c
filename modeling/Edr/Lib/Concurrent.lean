import Edr.Lib.System

/-!
# Interleaved programs

Programs that run at the same time on a shared state. A program is a tree of statements (`Prog`): a
statement is one atomic step on the shared state, which may have to wait, and what is left of the
program depends on what it returns. The calls of a `Service` each run their program as a transaction
of their own: it commits when the program has ended, and is rolled back when it raises, or at any
time before.
-/

namespace Edr

/-- A program on a shared state `σ` that returns an `α` or raises an `ε`. -/
inductive Prog (σ ε α : Type) : Type 1
  | done (a : α)
  | raise (e : ε)
  | stmt {β : Type} (f : σ → Option (Except ε (β × σ))) (k : β → Prog σ ε α)

namespace Prog

variable {σ ε α β : Type}

/-- The second program goes on with what the first one returns. -/
def bind : Prog σ ε α → (α → Prog σ ε β) → Prog σ ε β
  | .done a, k' => k' a
  | .raise e, _ => .raise e
  | .stmt f k, k' => .stmt f fun b => (k b).bind k'

instance : Monad (Prog σ ε) where
  pure := done
  bind := bind

/-- A program of one statement. -/
def execute (f : σ → Option (Except ε (α × σ))) : Prog σ ε α := .stmt f .done

def raiseIf (condition : Bool) (e : ε) : Prog σ ε Unit := if condition then .raise e else .done ()

section

variable (Inv : σ → Prop) (R G : σ → σ → Prop)

/-- From the state `s`, with the others doing what `R` allows and keeping `Inv`, every statement of
    the program is one that `G` allows, and `Q` holds when it returns. -/
def Meets (Q : α → σ → Prop) : Prog σ ε α → σ → Prop
  | .done a, s => Q a s
  | .raise _, _ => True
  | .stmt f k, s => ∀ s', R s s' → Inv s' → ∀ b t, f s' = some (.ok (b, t)) →
      G s' t ∧ Meets Q (k b) t

variable {Inv R G} {Q Q' : α → σ → Prop} {s t : σ}

theorem Meets.pure {a : α} (h : Q a s) : Meets Inv R G Q (Pure.pure a : Prog σ ε α) s := h

theorem Meets.raiseIf {condition : Bool} {e : ε} {Q : Unit → σ → Prop}
    (h : condition = false → Q () s) : Meets Inv R G Q (.raiseIf condition e) s := by
  cases condition with
  | false => exact h rfl
  | true => trivial

theorem Meets.execute {f : σ → Option (Except ε (α × σ))}
    (h : ∀ s', R s s' → Inv s' → ∀ a t, f s' = some (.ok (a, t)) → G s' t ∧ Q a t) :
    Meets Inv R G Q (.execute f) s := h

theorem Meets.bind {p : Prog σ ε α} {k : α → Prog σ ε β} {Q : β → σ → Prop}
    (h : Meets Inv R G (fun a t => Meets Inv R G Q (k a) t) p s) :
    Meets Inv R G Q (p >>= k) s := by
  induction p generalizing s with
  | done a => exact h
  | raise e => trivial
  | stmt f k' ih =>
    intro s' hR hI b t hf
    obtain ⟨hG, hk⟩ := h s' hR hI b t hf
    exact ⟨hG, ih b hk⟩

theorem Meets.mono {p : Prog σ ε α} (h : Meets Inv R G Q p s) (hQ : ∀ a t, Q a t → Q' a t) :
    Meets Inv R G Q' p s := by
  induction p generalizing s with
  | done a => exact hQ a s h
  | raise e => trivial
  | stmt f k ih =>
    intro s' hR hI b t hf
    obtain ⟨hG, hk⟩ := h s' hR hI b t hf
    exact ⟨hG, ih b hk⟩

end

end Prog

/-! ## Transactions -/

/-- The calls `κ`, each with its program, and what the end of a transaction does to the shared
    state. -/
structure Service (ι κ σ ε α : Type) where
  init : σ
  program : ι → κ → Prog σ ε α
  commit : ι → σ → σ
  rollback : ι → σ → σ

/-- The shared state, and for each transaction that is running its call and what is left of the
    program. -/
structure Pool (ι κ σ ε α : Type) where
  shared : σ
  threads : ι → Option (κ × Prog σ ε α)

/-- What may happen next: a transaction starts, takes a step, commits or is rolled back. -/
inductive Action (ι κ : Type)
  | start (i : ι) (call : κ)
  | step (i : ι)
  | commit (i : ι)
  | abort (i : ι)
  deriving DecidableEq

namespace Service

variable {ι κ σ ε α : Type} (S : Service ι κ σ ε α)

/-- The effects of a transaction on the shared state, where `G` is what its statements do. -/
inductive Effect (G : σ → σ → Prop) (i : ι) (s : σ) : σ → Prop
  | stmt {t : σ} : G s t → Effect G i s t
  | commit : Effect G i s (S.commit i s)
  | rollback : Effect G i s (S.rollback i s)

variable [DecidableEq ι]

/-- What an action does, if it is possible. -/
def next (pool : Pool ι κ σ ε α) : Action ι κ → Option (Pool ι κ σ ε α)
  | .start i call =>
    match pool.threads i with
    | none => some ⟨pool.shared, Function.update pool.threads i (some (call, S.program i call))⟩
    | some _ => none
  | .step i =>
    match pool.threads i with
    | some (call, .stmt f k) =>
      match f pool.shared with
      | some (.ok (b, s)) => some ⟨s, Function.update pool.threads i (some (call, k b))⟩
      | some (.error e) =>
        some ⟨pool.shared, Function.update pool.threads i (some (call, .raise e))⟩
      | none => none
    | _ => none
  | .commit i =>
    match pool.threads i with
    | some (_, .done _) =>
      some ⟨S.commit i pool.shared, Function.update pool.threads i none⟩
    | _ => none
  | .abort i =>
    match pool.threads i with
    | some _ => some ⟨S.rollback i pool.shared, Function.update pool.threads i none⟩
    | none => none

def system : System (Pool ι κ σ ε α) (Action ι κ) where
  init := ⟨S.init, fun _ => none⟩
  next := S.next

/-- The actions that are possible. -/
inductive Step (pool : Pool ι κ σ ε α) : Pool ι κ σ ε α → Prop
  | start (i : ι) (call : κ) : pool.threads i = none →
      Step pool ⟨pool.shared, Function.update pool.threads i (some (call, S.program i call))⟩
  | stmt (i : ι) (call : κ) {β : Type} (f : σ → Option (Except ε (β × σ)))
      (k : β → Prog σ ε α) (b : β) (s : σ) : pool.threads i = some (call, .stmt f k) →
      f pool.shared = some (.ok (b, s)) →
      Step pool ⟨s, Function.update pool.threads i (some (call, k b))⟩
  | raise (i : ι) (call : κ) (e : ε) :
      Step pool ⟨pool.shared, Function.update pool.threads i (some (call, .raise e))⟩
  | commit (i : ι) (call : κ) (a : α) : pool.threads i = some (call, .done a) →
      Step pool ⟨S.commit i pool.shared, Function.update pool.threads i none⟩
  | abort (i : ι) : Step pool ⟨S.rollback i pool.shared, Function.update pool.threads i none⟩

variable {S} {pool pool' : Pool ι κ σ ε α}

theorem step_of_next {a : Action ι κ} (h : S.next pool a = some pool') : S.Step pool pool' := by
  fun_cases next S pool a <;> simp only [next, *] at h <;> try cases h
  all_goals grind [Step]

end Service

open Service Function

variable {ι κ σ ε α : Type}

/-- What all states have, what a transaction relies on and guarantees, and what one that is not
    running has of the state; with what makes these fit. -/
structure Discipline (S : Service ι κ σ ε α) where
  Inv : σ → Prop
  Rely : ι → σ → σ → Prop
  Guarantee : ι → σ → σ → Prop
  Idle : ι → σ → Prop
  inv_init : Inv S.init
  idle_init : ∀ i, Idle i S.init
  rely_refl : ∀ i s, Rely i s s
  rely_trans : ∀ {i s t u}, Rely i s t → Rely i t u → Rely i s u
  inv_effect : ∀ {i s t}, Inv s → Effect S (Guarantee i) i s t → Inv t
  rely_effect : ∀ {i j s t}, Inv s → Effect S (Guarantee i) i s t → j ≠ i → Rely j s t
  idle_rely : ∀ {i s t}, Idle i s → Rely i s t → Idle i t
  idle_commit : ∀ {i s}, Idle i (S.commit i s)
  idle_rollback : ∀ {i s}, Idle i (S.rollback i s)

namespace Discipline

variable {S : Service ι κ σ ε α} (D : Discipline S)

/-- What a program of the transaction `i` guarantees and ends with. -/
abbrev Meets {β : Type} (i : ι) (Q : β → σ → Prop) (p : Prog σ ε β) (s : σ) : Prop :=
  p.Meets D.Inv (D.Rely i) (D.Guarantee i) Q s

variable {D}

variable (D) in
/-- What is known of a transaction: where its program has ended, `P` of what it returned. -/
def Holds (Q P : ι → κ → α → σ → Prop) (s : σ) (i : ι) : Option (κ × Prog σ ε α) → Prop
  | none => D.Idle i s
  | some (call, .done a) => P i call a s
  | some (_, .raise _) => True
  | some (call, .stmt f k) => D.Meets i (Q i call) (.stmt f k) s

/-- The calls end with `Q`, and what is left of it until the commit, `P`, is not changed by others. -/
structure Contract (D : Discipline S) (Q P : ι → κ → α → σ → Prop) : Prop where
  program : ∀ {i call s}, D.Inv s → D.Idle i s → D.Meets i (Q i call) (S.program i call) s
  post : ∀ {i call a s}, D.Inv s → Q i call a s → P i call a s
  stable : ∀ {i call a s t}, D.Inv t → D.Rely i s t → P i call a s → P i call a t

namespace Contract

variable {Q P : ι → κ → α → σ → Prop} (C : D.Contract Q P) {i : ι} {t : σ} {call : κ}
  {x : Option (κ × Prog σ ε α)}

include C

theorem holds_rely {s : σ} (hI : D.Inv t) (hR : D.Rely i s t) (h : D.Holds Q P s i x) :
    D.Holds Q P t i x := by
  match x with
  | none => exact D.idle_rely h hR
  | some (call, .done a) => exact C.stable hI hR h
  | some (_, .raise _) => trivial
  | some (call, .stmt f k) => exact fun s' hs' hI => h s' (D.rely_trans hR hs') hI

theorem holds_of_meets {p : Prog σ ε α} {s : σ} (hI : D.Inv s) (h : D.Meets i (Q i call) p s) :
    D.Holds Q P s i (some (call, p)) := by
  match p with
  | .done a => exact C.post hI h
  | .raise _ => trivial
  | .stmt f k => exact h

omit C in
/-- The invariant, and what is known of each transaction. -/
def Sound (D : Discipline S) (Q P : ι → κ → α → σ → Prop) (pool : Pool ι κ σ ε α) : Prop :=
  D.Inv pool.shared ∧ ∀ i, D.Holds Q P pool.shared i (pool.threads i)

variable [DecidableEq ι] {pool : Pool ι κ σ ε α}

theorem update (h : Sound D Q P pool) (hI : D.Inv t)
    (hR : ∀ j, j ≠ i → D.Rely j pool.shared t) (hx : D.Holds Q P t i x) :
    Sound D Q P ⟨t, update pool.threads i x⟩ := by
  refine ⟨hI, fun j => ?_⟩
  change D.Holds Q P t j (Function.update pool.threads i x j)
  by_cases hj : j = i
  · subst hj
    rw [update_self]
    exact hx
  · rw [update_of_ne hj]
    exact C.holds_rely hI (hR j hj) (h.2 j)

theorem effect (h : Sound D Q P pool) (heffect : Effect S (D.Guarantee i) i pool.shared t)
    (hx : D.Inv t → D.Holds Q P t i x) : Sound D Q P ⟨t, Function.update pool.threads i x⟩ :=
  have hI := D.inv_effect h.1 heffect
  C.update h hI (fun _ hj => D.rely_effect h.1 heffect hj) (hx hI)

omit [DecidableEq ι] C in
theorem Sound.stmt (h : Sound D Q P pool) {β : Type} {f : σ → Option (Except ε (β × σ))}
    {k : β → Prog σ ε α} {b : β} (hi : pool.threads i = some (call, .stmt f k))
    (hf : f pool.shared = some (.ok (b, t))) :
    D.Guarantee i pool.shared t ∧ D.Meets i (Q i call) (k b) t := by
  have hmeets := h.2 i
  rw [hi] at hmeets
  exact hmeets pool.shared (D.rely_refl i _) h.1 b t hf

variable {pool' : Pool ι κ σ ε α}

theorem step (h : Sound D Q P pool) (hstep : S.Step pool pool') : Sound D Q P pool' := by
  have hrefl (i j : ι) (_ : j ≠ i) : D.Rely j pool.shared pool.shared := D.rely_refl j _
  cases hstep with
  | start i call hi =>
    have hidle := h.2 i
    rw [hi] at hidle
    exact C.update h h.1 (hrefl i) (C.holds_of_meets h.1 (C.program h.1 hidle))
  | stmt i call f k b s hi hf =>
    obtain ⟨hG, hk⟩ := h.stmt hi hf
    exact C.effect h (.stmt hG) fun hI => C.holds_of_meets hI hk
  | raise i call e => exact C.update h h.1 (hrefl i) trivial
  | commit i call a hi => exact C.effect h .commit fun _ => D.idle_commit
  | abort i => exact C.effect h .rollback fun _ => D.idle_rollback

theorem reachable (h : S.system.Reachable System.always pool) : Sound D Q P pool := by
  refine h.invariant ⟨D.inv_init, fun i => ?_⟩ fun _ _ _ _ hs _ hn => C.step hs (step_of_next hn)
  exact D.idle_init i

/-- When the program of a transaction has ended, it had already done so before the step, or `Q`
    holds of what it returns. -/
theorem ended {action : Action ι κ} (h : S.system.Reachable System.always pool)
    (hn : S.next pool action = some pool') {a : α} (hi : pool'.threads i = some (call, .done a)) :
    pool.threads i = some (call, .done a) ∨ Q i call a pool'.shared := by
  have hsound := C.reachable h
  -- Only the transaction that takes the step changes.
  have hthread (j : ι) (x : Option (κ × Prog σ ε α)) (s : σ)
      (hx : x = some (call, .done a) → j = i → Q i call a s)
      (hi : Function.update pool.threads j x i = some (call, .done a)) :
      pool.threads i = some (call, .done a) ∨ Q i call a s := by
    by_cases hj : i = j
    · subst hj
      rw [update_self] at hi
      exact .inr (hx hi rfl)
    · rw [update_of_ne hj] at hi
      exact .inl hi
  -- A program that has ended meets what it should iff `Q` holds.
  have hdone {j : ι} {call' : κ} {p : Prog σ ε α} {s : σ} (hmeets : D.Meets j (Q j call') p s)
      (hx : some (call', p) = some (call, .done a)) (hj : j = i) : Q i call a s := by
    obtain ⟨hcall, hp⟩ := Prod.mk.inj (Option.some.inj hx)
    subst hcall hp hj
    exact hmeets
  cases step_of_next hn with
  | start j call' hj =>
    have hidle := hsound.2 j
    rw [hj] at hidle
    exact hthread j _ _ (hdone (C.program hsound.1 hidle)) hi
  | stmt j call' f k b s hj hf => exact hthread j _ _ (hdone (hsound.stmt hj hf).2) hi
  | raise j call' e => exact hthread j (some (call', .raise e)) _ nofun hi
  | commit j call' a' hj => exact hthread j none _ nofun hi
  | abort j => exact hthread j none _ nofun hi

/-- What every effect of every transaction respects, every run does. -/
theorem path {W : σ → σ → Prop} (hrefl : ∀ s, W s s) (htrans : ∀ s t u, W s t → W t u → W s u)
    (heffect : ∀ i s t, D.Inv s → Effect S (D.Guarantee i) i s t → W s t)
    (h : S.system.Reachable System.always pool) (hpath : S.system.Path System.always pool pool') :
    W pool.shared pool'.shared := by
  induction hpath with
  | refl => exact hrefl _
  | step hp _ hn ih =>
    refine htrans _ _ _ ih ?_
    have hsound := C.reachable (h.path hp)
    cases step_of_next hn with
    | start i call hi => exact hrefl _
    | stmt i call f k b s hi hf => exact heffect i _ _ hsound.1 (.stmt (hsound.stmt hi hf).1)
    | raise i call e => exact hrefl _
    | commit i call a hi => exact heffect i _ _ hsound.1 .commit
    | abort i => exact heffect i _ _ hsound.1 .rollback

end Contract

end Discipline

end Edr
