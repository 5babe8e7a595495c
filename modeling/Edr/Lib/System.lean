import Mathlib

/-!
# Labelled systems

A system with states `σ` and labels `α`: from a state, a label is a step to at
most one next state, so that all the nondeterminism (the schedule, and what the
environment answers) is in the choice of the labels.

* `System.runIf P`: a run whose steps all meet `P`, where this can be decided.
-/

namespace Edr

open Option

instance neZero_one : NeZero 1 := ⟨by decide⟩

instance neZero_two : NeZero 2 := ⟨by decide⟩

structure System (σ α : Type*) where
  init : σ
  next : σ → α → Option σ

namespace System

variable {σ α : Type*} (sys : System σ α)

def always (_ : σ) (_ : α) : Prop := True

/-- The state after the labels `l`, from `s`. -/
def run (s : σ) : List α → Option σ
  | [] => some s
  | a :: l => (sys.next s a).bind fun t => run t l

/-- The system gets from `s` to `t` by steps that meet `P`. -/
inductive Path (P : σ → α → Prop) (s : σ) : σ → Prop
  | refl : Path P s s
  | step {t u : σ} {a : α} : Path P s t → P t a → sys.next t a = some u → Path P s u

/-- The states the system gets to by steps that meet `P`. -/
def Reachable (P : σ → α → Prop) (t : σ) : Prop := sys.Path P sys.init t

variable {sys} {P Q : σ → α → Prop} {s t u : σ}

theorem Path.trans (h : sys.Path P s t) (h' : sys.Path P t u) : sys.Path P s u := by
  induction h' with
  | refl => exact h
  | step _ hP hn ih => exact .step ih hP hn

theorem Reachable.init : sys.Reachable P sys.init := .refl

theorem Reachable.step {a : α} (h : sys.Reachable P s) (hP : P s a) (hn : sys.next s a = some t) :
    sys.Reachable P t := Path.step h hP hn

theorem Reachable.path (h : sys.Reachable P s) (h' : sys.Path P s t) : sys.Reachable P t :=
  .trans h h'

theorem Path.stable {I : σ → Prop}
    (hstep : ∀ s a t, I s → P s a → sys.next s a = some t → I t) (h : sys.Path P s t)
    (hs : I s) : I t := by
  induction h with
  | refl => exact hs
  | step _ hP hn ih => exact hstep _ _ _ ih hP hn

theorem Reachable.invariant {I : σ → Prop} (hinit : I sys.init)
    (hstep : ∀ s a t, sys.Reachable P s → I s → P s a → sys.next s a = some t → I t)
    (h : sys.Reachable P t) : I t := by
  suffices hr : ∀ t, sys.Path P sys.init t → sys.Reachable P t ∧ I t from (hr t h).2
  intro t h
  induction h with
  | refl => exact ⟨.init, hinit⟩
  | step _ hP hn ih => exact ⟨ih.1.step hP hn, hstep _ _ _ ih.1 ih.2 hP hn⟩

/-- A path under one condition is a path under any other that its steps are seen
    to meet, from the states it visits. -/
theorem Reachable.weaken
    (hPQ : ∀ s a t, sys.Reachable P s → sys.Reachable Q s → P s a → sys.next s a = some t → Q s a)
    (h : sys.Reachable P t) : sys.Reachable Q t :=
  h.invariant .init fun s a t hs hq hP hn => hq.step (hPQ s a t hs hq hP hn) hn

theorem Reachable.to_always (h : sys.Reachable P t) : sys.Reachable always t :=
  h.weaken fun _ _ _ _ _ _ _ => trivial

theorem path_of_run_of_forall : ∀ {l : List α} {s t : σ}, (∀ a ∈ l, ∀ s, P s a) →
    sys.run s l = some t → sys.Path P s t
  | [], s, t, _, h => by
    cases h
    exact .refl
  | a :: l, s, t, hP, h => by
    rw [run, bind_eq_some_iff] at h
    obtain ⟨u, hu, h⟩ := h
    obtain ⟨ha, hl⟩ := List.forall_mem_cons.1 hP
    exact (Path.step .refl (ha s) hu).trans (path_of_run_of_forall hl h)

theorem path_of_run {l : List α} (h : sys.run s l = some t) : sys.Path always s t :=
  path_of_run_of_forall (fun _ _ _ => trivial) h

theorem run_stable {Q : α → Prop} {V : σ → Prop}
    (hstay : ∀ s a t, Q a → V s → sys.next s a = some t → V t) {l : List α} (hQ : ∀ a ∈ l, Q a)
    (hs : V s) (h : sys.run s l = some t) : V t :=
  (path_of_run_of_forall (fun a ha _ => hQ a ha) h).stable
    (fun s a t hs ha hn => hstay s a t ha hs hn) hs

/-- The state after the labels `l`, from `s`, if every step of the run meets `P`. -/
def runIf (sys : System σ α) (P : σ → α → Prop) [∀ s a, Decidable (P s a)] (s : σ) :
    List α → Option σ
  | [] => some s
  | a :: l => if P s a then (sys.next s a).bind fun t => runIf sys P t l else none

theorem runIf_stable [∀ s a, Decidable (P s a)] {Q : α → Prop} {I : σ → Prop}
    (hkeep : ∀ s a t, Q a → I s → P s a → sys.next s a = some t → I t) :
    ∀ {l : List α} {s t : σ}, (∀ a ∈ l, Q a) → I s → sys.runIf P s l = some t → I t
  | [], s, t, _, hs, h => by
    cases h
    exact hs
  | a :: l, s, t, hQ, hs, h => by
    rw [runIf] at h
    split_ifs at h with hP
    rw [bind_eq_some_iff] at h
    obtain ⟨u, hu, h⟩ := h
    obtain ⟨ha, hl⟩ := List.forall_mem_cons.1 hQ
    exact runIf_stable hkeep hl (hkeep s a u ha hs hP hu) h

theorem path_of_runIf [∀ s a, Decidable (P s a)] {l : List α} (h : sys.runIf P s l = some t) :
    sys.Path P s t :=
  runIf_stable
    (fun _ _ _ _ hu hP hn => .step hu hP hn) (fun _ _ => trivial) .refl h

theorem reachable_of_runIf [∀ s a, Decidable (P s a)] {l : List α}
    (h : sys.runIf P sys.init l = some t) : sys.Reachable P t :=
  path_of_runIf h

/-- The steps of a run all meet `P`, or there is one that does not, and `V` holds ever after. The
    labels are those of `Q`, and `I` is kept while the steps meet `P`. -/
theorem runIf_or [∀ s a, Decidable (P s a)] {Q : α → Prop} {I V : σ → Prop}
    (hkeep : ∀ s a t, Q a → I s → P s a → sys.next s a = some t → I t)
    (hviolate : ∀ s a t, Q a → I s → ¬P s a → sys.next s a = some t → V t)
    (hstay : ∀ s a t, Q a → V s → sys.next s a = some t → V t) :
    ∀ {l : List α} {s t : σ}, (∀ a ∈ l, Q a) → I s → sys.run s l = some t →
      sys.runIf P s l = some t ∨ V t
  | [], s, t, _, hs, h => .inl h
  | a :: l, s, t, hQ, hs, h => by
    rw [run, bind_eq_some_iff] at h
    obtain ⟨u, hu, h⟩ := h
    obtain ⟨ha, hl⟩ := List.forall_mem_cons.1 hQ
    by_cases hP : P s a
    · rw [runIf, if_pos hP, hu]
      exact runIf_or hkeep hviolate hstay hl (hkeep s a u ha hs hP hu) h
    · exact .inr (run_stable hstay hl (hviolate s a u ha hs hP hu) h)

theorem reachable_of_run {l : List α} (h : sys.run sys.init l = some t) : sys.Reachable always t :=
  path_of_run h

end System

end Edr
