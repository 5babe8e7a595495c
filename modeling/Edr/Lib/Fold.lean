import Mathlib

/-!
# Loops that may raise

A loop whose body may raise is a monadic fold in `Except`. Where it has returned, its body has
returned each time.
-/

namespace Edr

open List

universe u

variable {ε α γ : Type*} {β β' : Type u} {b : β}

theorem bind_eq_ok {x : Except ε β'} {f : β' → Except ε β} :
    (x >>= f) = .ok b ↔ ∃ a, x = .ok a ∧ f a = .ok b := by
  cases x with
  | error e => exact ⟨nofun, fun ⟨_, h, _⟩ => nomatch h⟩
  | ok a => exact ⟨fun h => ⟨a, rfl, h⟩, fun ⟨_, h, hf⟩ => by cases h; exact hf⟩

theorem forM_eq_ok {f : α → Except ε PUnit} {l : List α} :
    l.forM f = .ok ⟨⟩ ↔ ∀ a ∈ l, f a = .ok ⟨⟩ := by
  induction l with
  | nil => exact ⟨nofun, fun _ => rfl⟩
  | cons a l ih =>
    rw [forall_mem_cons, ← ih]
    exact bind_eq_ok.trans ⟨fun ⟨_, h, h'⟩ => ⟨h, h'⟩, fun ⟨h, h'⟩ => ⟨⟨⟩, h, h'⟩⟩

def Lockstep {α β : Type*} (R : α → β → Prop) : Except ε α → Except ε β → Prop
  | .ok a, .ok b => R a b
  | .error e, .error e' => e = e'
  | .ok _, .error _ => False
  | .error _, .ok _ => False

namespace Lockstep

variable {α₁ α₂ : Type*} {R : α₁ → α₂ → Prop} {x : Except ε α₁} {y : Except ε α₂}

theorem of_ok {a : α₁} {b : α₂} (hx : x = .ok a) (hy : y = .ok b) (h : R a b) :
    Lockstep R x y := by
  rw [hx, hy]
  exact h

theorem of_eq {x y : Except ε α₁} (h : x = y) : Lockstep Eq x y := by
  subst h
  cases x <;> rfl

theorem exists_ok {a : α₁} (h : Lockstep R x y) (hx : x = .ok a) : ∃ b, y = .ok b ∧ R a b := by
  subst hx
  cases y with
  | error e => exact h.elim
  | ok b => exact ⟨b, rfl, h⟩

theorem bind {α₁ α₂ β₁ β₂ : Type u} {R : α₁ → α₂ → Prop} {S : β₁ → β₂ → Prop}
    {x : Except ε α₁} {y : Except ε α₂} {f : α₁ → Except ε β₁} {g : α₂ → Except ε β₂}
    (h : Lockstep R x y) (hfg : ∀ a b, R a b → Lockstep S (f a) (g b)) :
    Lockstep S (x >>= f) (y >>= g) := by
  cases x with
  | error e =>
    cases y with
    | error e' => exact h
    | ok b => exact h.elim
  | ok a =>
    cases y with
    | error e' => exact h.elim
    | ok b => exact hfg a b h

end Lockstep

theorem mem_of_mapM {α : Type*} {f : α → Except ε β} {l : List α} {l' : List β}
    (h : l.mapM f = .ok l') : ∀ b ∈ l', ∃ a ∈ l, f a = .ok b := by
  induction l generalizing l' with
  | nil =>
    cases h
    exact nofun
  | cons a l ih =>
    rw [mapM_cons] at h
    obtain ⟨b, hb, h⟩ := bind_eq_ok.1 h
    obtain ⟨bs, hbs, h⟩ := bind_eq_ok.1 h
    cases h
    refine forall_mem_cons.2 ⟨⟨a, mem_cons_self, hb⟩, fun b' hb' => ?_⟩
    obtain ⟨a', ha', h'⟩ := ih hbs b' hb'
    exact ⟨a', mem_cons_of_mem a ha', h'⟩

variable {F : β → α → Except ε β} {b' : β}

theorem foldlM_sum {m : β → Nat} {g : α → Nat} (hF : ∀ b a b', F b a = .ok b' → m b' = m b + g a)
    {l : List α} (h : l.foldlM F b = .ok b') : m b' = m b + (l.map g).sum := by
  induction l generalizing b with
  | nil =>
    cases h
    rfl
  | cons a l ih =>
    rw [foldlM_cons, bind_eq_ok] at h
    obtain ⟨b₁, hb₁, h⟩ := h
    rw [ih h, hF _ _ _ hb₁, map_cons, sum_cons, Nat.add_assoc]

theorem foldlM_flatMap {f : β → γ → Except ε β} {g : α → List γ}
    (hF : ∀ b a b', F b a = .ok b' → (g a).foldlM f b = .ok b') {l : List α}
    (h : l.foldlM F b = .ok b') : (l.flatMap g).foldlM f b = .ok b' := by
  induction l generalizing b with
  | nil => exact h
  | cons a l ih =>
    rw [foldlM_cons, bind_eq_ok] at h
    obtain ⟨b₁, hb₁, h⟩ := h
    rw [flatMap_cons, foldlM_append, bind_eq_ok]
    exact ⟨b₁, hF _ _ _ hb₁, ih h⟩

theorem foldlM_eq_flatMap {f : β → γ → Except ε β} {g : α → List γ} {l : List α}
    (hF : ∀ a ∈ l, ∀ b, F b a = (g a).foldlM f b) (b : β) :
    l.foldlM F b = (l.flatMap g).foldlM f b := by
  induction l generalizing b with
  | nil => rfl
  | cons a l ih =>
    obtain ⟨ha, hl⟩ := forall_mem_cons.1 hF
    rw [foldlM_cons, flatMap_cons, foldlM_append, ha]
    exact bind_congr (ih hl)

/-- What an iteration establishes for its element, and the others keep. -/
theorem foldlM_forall {I : β → α → Prop} (hF : ∀ b a b', F b a = .ok b' → I b' a)
    (hkeep : ∀ b a b' x, F b a = .ok b' → I b x → I b' x) {l : List α} (h : l.foldlM F b = .ok b') :
    ∀ a ∈ l, I b' a := by
  -- By induction on the list, with what holds before the loop kept too.
  suffices hall : (∀ x, I b x → I b' x) ∧ ∀ a ∈ l, I b' a from hall.2
  induction l generalizing b with
  | nil =>
    cases h
    exact ⟨fun _ hx => hx, nofun⟩
  | cons a l ih =>
    rw [foldlM_cons, bind_eq_ok] at h
    obtain ⟨b₁, hb₁, h⟩ := h
    obtain ⟨hold, hnew⟩ := ih h
    exact ⟨fun x hx => hold x (hkeep _ _ _ x hb₁ hx),
      forall_mem_cons.2 ⟨hold a (hF _ _ _ hb₁), hnew⟩⟩

end Edr
