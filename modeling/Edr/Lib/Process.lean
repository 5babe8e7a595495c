import Mathlib

/-!
# Processes in an environment

A program that calls its environment, may raise, and may be stopped at any point. What the
environment answers is a script: every call takes the next answer from it, and the process is
stopped at the first call for which no answer is left. So a statement about all scripts is one about
all the answers, and about a crash between any two calls.

A `Post` says what holds where a program returns, where it raises and where it is stopped, and
`Process.Meets` that it does so whatever the script, with a rule for each construct. Where the
environment gives the same answer to every call, a program has one end: `Process.Yields`, with the
same rules.
-/

namespace Edr

open List

inductive Outcome (ε α : Type*)
  | returned (a : α)
  | raised (e : ε)
  | stopped
  deriving DecidableEq

/-- Programs on states `σ`, for an environment whose answers are of type `ρ`. -/
def Process (ρ σ ε : Type*) (α : Type*) := List ρ → σ → Outcome ε α × List ρ × σ

namespace Process

universe u

variable {ρ σ ε : Type*} {α β : Type u}

instance : Monad (Process ρ σ ε) where
  pure a script s := (.returned a, script, s)
  bind m f script s :=
    match m script s with
    | (.returned a, rest, t) => f a rest t
    | (.raised e, rest, t) => (.raised e, rest, t)
    | (.stopped, rest, t) => (.stopped, rest, t)

theorem bind_apply (m : Process ρ σ ε α) (f : α → Process ρ σ ε β) (script : List ρ) (s : σ) :
    (m >>= f) script s = match m script s with
      | (.returned a, rest, t) => f a rest t
      | (.raised e, rest, t) => (.raised e, rest, t)
      | (.stopped, rest, t) => (.stopped, rest, t) := rfl

def raise (e : ε) : Process ρ σ ε α := fun script s => (.raised e, script, s)

/-- `try: m except Exception as e: h(e)`: no handler runs in a process that is stopped. -/
def handle (m : Process ρ σ ε α) (h : ε → Process ρ σ ε α) : Process ρ σ ε α := fun script s =>
  match m script s with
  | (.returned a, rest, t) => (.returned a, rest, t)
  | (.raised e, rest, t) => h e rest t
  | (.stopped, rest, t) => (.stopped, rest, t)

def call (f : ρ → σ → Except ε α × σ) : Process ρ σ ε α := fun script s =>
  match script with
  | [] => (.stopped, [], s)
  | r :: rest =>
    match f r s with
    | (.ok a, t) => (.returned a, rest, t)
    | (.error e, t) => (.raised e, rest, t)

theorem call_cons (f : ρ → σ → Except ε α × σ) (r : ρ) (rest : List ρ) (s : σ) :
    call f (r :: rest) s = match f r s with
      | (.ok a, t) => (.returned a, rest, t)
      | (.error e, t) => (.raised e, rest, t) := rfl

def read (f : σ → α) : Process ρ σ ε α := fun script s => (.returned (f s), script, s)

def update (f : σ → σ) : Process ρ σ ε Unit := fun script s => (.returned (), script, f s)

def within {τ ε' : Type*} (part : τ → σ) (put : σ → τ → τ) (wrap : ε → ε')
    (m : Process ρ σ ε α) : Process ρ τ ε' α := fun script t =>
  match m script (part t) with
  | (.returned a, rest, s) => (.returned a, rest, put s t)
  | (.raised e, rest, s) => (.raised (wrap e), rest, put s t)
  | (.stopped, rest, s) => (.stopped, rest, put s t)

/-! ## What holds when a program ends -/

structure Post (σ ε : Type*) (α : Type*) where
  returned : α → σ → Prop
  raised : ε → σ → Prop
  stopped : σ → Prop

def Post.holds (Q : Post σ ε α) : Outcome ε α × List ρ × σ → Prop
  | (.returned a, _, t) => Q.returned a t
  | (.raised e, _, t) => Q.raised e t
  | (.stopped, _, t) => Q.stopped t

def Post.admits (Q : Post σ ε α) : Except ε α × σ → Prop
  | (.ok a, t) => Q.returned a t
  | (.error e, t) => Q.raised e t

/-- Whatever the environment answers, the program ends from `s` as `Q` says. -/
def Meets (m : Process ρ σ ε α) (Q : Post σ ε α) (s : σ) : Prop :=
  ∀ script, Q.holds (m script s)

section

variable {m : Process ρ σ ε α} {s : σ} {Q Q' : Post σ ε α}

theorem Meets.pure {a : α} (h : Q.returned a s) :
    Meets (Pure.pure a : Process ρ σ ε α) Q s := fun _ => h

theorem Meets.raise {e : ε} (h : Q.raised e s) :
    Meets (.raise e : Process ρ σ ε α) Q s := fun _ => h

theorem Meets.read {f : σ → α} (h : Q.returned (f s) s) :
    Meets (.read f : Process ρ σ ε α) Q s := fun _ => h

theorem Meets.update {f : σ → σ} {Q : Post σ ε Unit} (h : Q.returned () (f s)) :
    Meets (.update f : Process ρ σ ε Unit) Q s := fun _ => h

theorem Meets.bind {f : α → Process ρ σ ε β} {Q : Post σ ε β}
    (h : m.Meets ⟨fun a t => (f a).Meets Q t, Q.raised, Q.stopped⟩ s) : (m >>= f).Meets Q s := by
  intro script
  have hm := h script
  rw [bind_apply]
  generalize m script s = r at hm
  obtain ⟨_ | _ | _, rest, t⟩ := r
  · exact hm rest
  · exact hm
  · exact hm

theorem Meets.handle {h : ε → Process ρ σ ε α}
    (hm : m.Meets ⟨Q.returned, fun e t => (h e).Meets Q t, Q.stopped⟩ s) :
    (m.handle h).Meets Q s := by
  intro script
  have hs := hm script
  unfold Process.handle
  generalize m script s = r at hs
  obtain ⟨_ | _ | _, rest, t⟩ := r
  · exact hs
  · exact hs rest
  · exact hs

theorem Meets.call {f : ρ → σ → Except ε α × σ} (hs : Q.stopped s)
    (hf : ∀ r, Q.admits (f r s)) : (Process.call f).Meets Q s := by
  rintro (_ | ⟨r, rest⟩)
  · exact hs
  · have hr := hf r
    rw [call_cons]
    generalize f r s = a at hr
    obtain ⟨_ | _, t⟩ := a
    · exact hr
    · exact hr

/-- The rule of consequence. -/
theorem Meets.mono (h : m.Meets Q s) (hr : ∀ a t, Q.returned a t → Q'.returned a t)
    (he : ∀ e t, Q.raised e t → Q'.raised e t) (hs : ∀ t, Q.stopped t → Q'.stopped t) :
    m.Meets Q' s := by
  intro script
  have hm := h script
  generalize m script s = r at hm
  obtain ⟨_ | _ | _, rest, t⟩ := r
  · exact hr _ _ hm
  · exact he _ _ hm
  · exact hs _ hm

/-- The rule of composition, with what holds between the two. -/
theorem Meets.seq {P : α → σ → Prop} {f : α → Process ρ σ ε β} {Q : Post σ ε β}
    (h : m.Meets ⟨P, Q.raised, Q.stopped⟩ s) (hf : ∀ a t, P a t → (f a).Meets Q t) :
    (m >>= f).Meets Q s :=
  .bind (h.mono hf (fun _ _ he => he) fun _ ht => ht)

theorem Meets.map {f : α → β} {Q : Post σ ε β}
    (h : m.Meets ⟨fun a => Q.returned (f a), Q.raised, Q.stopped⟩ s) : (f <$> m).Meets Q s :=
  h.seq fun _ _ ha => .pure ha

theorem Meets.final {I : σ → Prop} (h : m.Meets ⟨fun _ => I, fun _ => I, I⟩ s) (script : List ρ) :
    I (m script s).2.2 := by
  have hm := h script
  generalize m script s = r at hm
  obtain ⟨_ | _ | _, rest, t⟩ := r <;> exact hm

theorem Meets.of_forall (hr : ∀ a t, Q.returned a t) (he : ∀ e t, Q.raised e t)
    (hs : ∀ t, Q.stopped t) : m.Meets Q s := by
  intro script
  obtain ⟨_ | _ | _, rest, t⟩ := m script s
  · exact hr _ t
  · exact he _ t
  · exact hs t

theorem Meets.ite {m' : Process ρ σ ε α} {p : Prop} [Decidable p] (h : p → m.Meets Q s)
    (h' : ¬ p → m'.Meets Q s) : Meets (if p then m else m') Q s := by
  by_cases hp : p
  · rw [if_pos hp]
    exact h hp
  · rw [if_neg hp]
    exact h' hp

theorem Meets.within {τ ε' : Type*} {part : τ → σ} {put : σ → τ → τ} {wrap : ε → ε'} {t : τ}
    {Q : Post τ ε' α}
    (h : m.Meets ⟨fun a s => Q.returned a (put s t), fun e s => Q.raised (wrap e) (put s t),
      fun s => Q.stopped (put s t)⟩ (part t)) : (m.within part put wrap).Meets Q t := by
  intro script
  have hm := h script
  unfold Process.within
  generalize m script (part t) = r at hm
  obtain ⟨_ | _ | _, rest, s⟩ := r <;> exact hm

theorem Meets.forM {γ : Type*} {f : γ → Process ρ σ ε PUnit} {l : List γ} {I : σ → Prop}
    {E : ε → σ → Prop} {C : σ → Prop}
    (hf : ∀ c ∈ l, ∀ t, I t → (f c).Meets ⟨fun _ => I, E, C⟩ t) (hs : I s) :
    (l.forM f).Meets ⟨fun _ => I, E, C⟩ s := by
  induction l generalizing s with
  | nil => exact .pure hs
  | cons c l ih =>
    exact (hf c mem_cons_self s hs).seq fun _ t ht =>
      ih (fun c' hc => hf c' (mem_cons_of_mem c hc)) ht

/-! ## One answer to every call -/

/-- With the answer `r` to every call, the program ends from `s` with the outcome `o` in the state
    `t`, after at most `n` calls. -/
def Yields (m : Process ρ σ ε α) (r : ρ) (n : Nat) (s : σ) (o : Outcome ε α) (t : σ) : Prop :=
  ∃ used ≤ n, ∀ rest, m (.replicate used r ++ rest) s = (o, rest, t)

variable {r : ρ} {t u : σ} {n k : Nat} {a : α} {e : ε}

theorem Yields.pure : Yields (Pure.pure a : Process ρ σ ε α) r 0 s (.returned a) s :=
  ⟨0, Nat.le.refl, fun _ => rfl⟩

theorem Yields.raise : Yields (.raise e : Process ρ σ ε α) r 0 s (.raised e) s :=
  ⟨0, Nat.le.refl, fun _ => rfl⟩

theorem Yields.mono {o : Outcome ε α} (h : m.Yields r n s o t) (hn : n ≤ k) :
    m.Yields r k s o t := by
  obtain ⟨used, hused, hm⟩ := h
  exact ⟨used, Nat.le_trans hused hn, hm⟩

theorem Yields.bind {f : α → Process ρ σ ε β} {o : Outcome ε β}
    (hm : m.Yields r n s (.returned a) t) (hf : (f a).Yields r k t o u) :
    (m >>= f).Yields r (n + k) s o u := by
  obtain ⟨used, hused, hm⟩ := hm
  obtain ⟨used', hused', hf⟩ := hf
  refine ⟨used + used', Nat.add_le_add hused hused', fun rest => ?_⟩
  rw [bind_apply, replicate_add, append_assoc, hm]
  exact hf rest

theorem Yields.bind_raised {f : α → Process ρ σ ε β} (hm : m.Yields r n s (.raised e) t) :
    (m >>= f).Yields r n s (.raised e) t := by
  obtain ⟨used, hused, hm⟩ := hm
  exact ⟨used, hused, fun rest => by rw [bind_apply, hm]⟩

theorem Yields.map (f : α → β) (hm : m.Yields r n s (.returned a) t) :
    (f <$> m).Yields r n s (.returned (f a)) t :=
  .bind (f := fun a => Pure.pure (f a)) hm .pure

theorem Yields.map_raised (f : α → β) (hm : m.Yields r n s (.raised e) t) :
    (f <$> m).Yields r n s (.raised e) t :=
  .bind_raised hm

theorem Yields.handle_returned {h : ε → Process ρ σ ε α} (hm : m.Yields r n s (.returned a) t) :
    (m.handle h).Yields r n s (.returned a) t := by
  obtain ⟨used, hused, hm⟩ := hm
  exact ⟨used, hused, fun rest => by rw [Process.handle, hm]⟩

theorem Yields.handle_raised {h : ε → Process ρ σ ε α} {o : Outcome ε α}
    (hm : m.Yields r n s (.raised e) t) (hh : (h e).Yields r k t o u) :
    (m.handle h).Yields r (n + k) s o u := by
  obtain ⟨used, hused, hm⟩ := hm
  obtain ⟨used', hused', hh⟩ := hh
  refine ⟨used + used', Nat.add_le_add hused hused', fun rest => ?_⟩
  rw [Process.handle, replicate_add, append_assoc, hm]
  exact hh rest

theorem Yields.call_ok {f : ρ → σ → Except ε α × σ} (h : f r s = (.ok a, t)) :
    (Process.call f).Yields r 1 s (.returned a) t :=
  ⟨1, Nat.le.refl, fun rest => by rw [replicate_one, singleton_append, call_cons, h]⟩

theorem Yields.call_error {f : ρ → σ → Except ε α × σ} (h : f r s = (.error e, t)) :
    (Process.call f).Yields r 1 s (.raised e) t :=
  ⟨1, Nat.le.refl, fun rest => by rw [replicate_one, singleton_append, call_cons, h]⟩

theorem Yields.within {τ ε' : Type*} {part : τ → σ} {put : σ → τ → τ} {wrap : ε → ε'} {x : τ}
    (hm : m.Yields r n (part x) (.returned a) t) :
    (m.within part put wrap).Yields r n x (.returned a) (put t x) := by
  obtain ⟨used, hused, hm⟩ := hm
  exact ⟨used, hused, fun rest => by rw [Process.within, hm]⟩

theorem Yields.run {o : Outcome ε α} (h : m.Yields r n s o t) {script : List ρ}
    (hlength : n ≤ script.length) (hscript : ∀ x ∈ script, x = r) :
    ∃ rest, m script s = (o, rest, t) := by
  obtain ⟨used, hused, hm⟩ := h
  refine ⟨replicate (script.length - used) r, ?_⟩
  have heq : script = replicate used r ++ replicate (script.length - used) r := by
    rw [replicate_append_replicate, Nat.add_sub_cancel' (Nat.le_trans hused hlength)]
    exact eq_replicate_of_mem hscript
  rw [← hm, ← heq]

end

end Process

end Edr
