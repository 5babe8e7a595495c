import Edr.Lib.Fold
import Edr.Lib.Json.RoundTrip

/-!
# What is read is well formed

A value that `json.loads` returns is not nested more deeply than allowed, its integers are not too
long and the keys of its objects are distinct, whatever the text.
-/

namespace Edr

open List Json Nat

variable {F : Type} {floats : Floats F} {limits : Limits}

/-- The value is well formed, and nested at most `n` deep. -/
structure Json.Ok (limits : Limits) (n : Nat) (v : Json F) : Prop where
  depth : v.depth ≤ n
  fits : v.fits limits
  distinct : v.distinct

namespace Json

variable {n : Nat}

theorem ok_array {items : List (Json F)} (h : ∀ v ∈ items, v.Ok limits n) :
    (array items).Ok limits (n + 1) where
  depth := succ_le_succ (depthItems_le.2 fun v hv => (h v hv).depth)
  fits := by
    rw [fits, all_array, all_eq_true]
    exact fun v hv => (h v hv).fits
  distinct := by
    rw [distinct, all_array, all_eq_true]
    exact fun v hv => (h v hv).distinct

theorem ok_object {members : List (Text × Json F)} (hdistinct : (members.map (·.1)).Nodup)
    (h : ∀ m ∈ members, m.2.Ok limits n) : (object members).Ok limits (n + 1) where
  depth := succ_le_succ (depthMembers_le.2 fun m hm => (h m hm).depth)
  fits := by
    rw [fits, all_object, Bool.true_and, all_eq_true]
    exact fun m hm => Bool.and_eq_true_iff.2 ⟨rfl, (h m hm).fits⟩
  distinct := by
    rw [distinct, all_object, Bool.and_eq_true, all_eq_true]
    exact ⟨decide_eq_true hdistinct, fun m hm => Bool.and_eq_true_iff.2 ⟨rfl, (h m hm).distinct⟩⟩

theorem Ok.mono {n' : Nat} {v : Json F} (h : v.Ok limits n) (hn : n ≤ n') : v.Ok limits n' :=
  ⟨le_trans h.depth hn, h.fits, h.distinct⟩

/-! ## Numbers -/

theorem ofDigits_lt (digits : List Digit) : ofDigits digits < 10 ^ digits.length := by
  induction digits using reverseRecOn with
  | nil => decide
  | append_singleton digits d ih =>
    rw [Scan.ofDigits_append, length_append, length_singleton, Nat.pow_succ]
    omega

theorem length_digitsAux {fuel k : Nat} (h : n ≤ fuel) (hn : n < 10 ^ (k + 1)) :
    (digitsAux fuel n).length ≤ k + 1 := by
  induction fuel generalizing n k with
  | zero => exact Nat.succ_le_succ (Nat.zero_le k)
  | succ fuel ih =>
    rw [digitsAux]
    split_ifs with hlt
    · exact Nat.succ_le_succ (Nat.zero_le k)
    · cases k with
      | zero => omega
      | succ k =>
        have := @ih (n / 10) k (by omega) (by rw [Nat.pow_succ] at hn; omega)
        rw [length_append, length_singleton]
        omega

theorem length_digitsOf {digits : List Digit} (h : digits ≠ []) :
    (digitsOf (ofDigits digits)).length ≤ digits.length := by
  obtain ⟨k, hk⟩ : ∃ k, digits.length = k + 1 :=
    ⟨digits.length - 1, by have := length_pos_iff.2 h; omega⟩
  have hlt := ofDigits_lt digits
  rw [hk] at hlt ⊢
  exact length_digitsAux Nat.le.refl hlt

theorem ok_value {token : NumberToken} {v : Json F} (h : token.value floats limits = .ok v)
    (n : Nat) : v.Ok limits n := by
  rw [NumberToken.value] at h
  by_cases hwhole : token.whole = []
  · rw [if_pos hwhole] at h
    cases h
  rw [if_neg hwhole] at h
  by_cases hint : token.fraction = none ∧ token.exponent = none
  · rw [if_pos hint] at h
    split_ifs at h with hlong <;> cases h
    all_goals
      refine ⟨zero_le n, decide_eq_true ?_, rfl⟩
      simp only [Int.natAbs_neg, Int.natAbs_natCast]
      exact le_trans (length_digitsOf hwhole) (not_lt.1 hlong)
  · rw [if_neg hint] at h
    split_ifs at h
    cases h
    exact ⟨zero_le n, rfl, rfl⟩

end Json

/-! ## The machine -/

def Frame.Ok (limits : Limits) (n : Nat) : Frame F → Prop
  | .items done => ∀ v ∈ done, v.Ok limits n
  | .members done | .member done _ =>
    (done.map (·.1)).Nodup ∧ ∀ m ∈ done, m.2.Ok limits n

def StackOk (limits : Limits) : List (Frame F) → Prop
  | [] => True
  | frame :: stack =>
    stack.length < limits.depth ∧ frame.Ok limits (limits.depth - (stack.length + 1)) ∧
      StackOk limits stack

def ScanMode.Ok (limits : Limits) : ScanMode F → Prop
  | .done v => v.Ok limits limits.depth
  | .literal _ v => v.Ok limits 0
  | .value | .firstItem | .firstKey | .key | .colon _ | .next | .string _ _ | .number _ => True

structure Scan.Ok (limits : Limits) (s : Scan F) : Prop where
  mode : s.mode.Ok limits
  stack : StackOk limits s.stack

namespace Scan

theorem setMember_keys (key : Text) (v : Json F) (members : List (Text × Json F)) :
    (setMember key v members).map (·.1) =
      if key ∈ members.map (·.1) then members.map (·.1) else members.map (·.1) ++ [key] := by
  induction members with
  | nil => rfl
  | cons m members ih =>
    by_cases hkey : m.1 = key
    · rw [setMember, if_pos hkey, map_cons, map_cons, if_pos (hkey ▸ mem_cons_self),
        hkey]
    · rw [setMember, if_neg hkey, map_cons, ih, map_cons]
      simp only [mem_cons, or_iff_right (Ne.symm hkey)]
      split_ifs <;> rfl

variable {v : Json F}

theorem mem_setMember {key : Text} {members : List (Text × Json F)} {m : Text × Json F}
    (h : m ∈ setMember key v members) : m = (key, v) ∨ m ∈ members := by
  induction members with
  | nil => exact .inl (mem_singleton.1 h)
  | cons m' members ih =>
    rw [setMember] at h
    split_ifs at h with hkey
    · exact (mem_cons.1 h).imp_right (mem_cons_of_mem _)
    · rcases mem_cons.1 h with rfl | h
      · exact .inr mem_cons_self
      · exact (ih h).imp_right (mem_cons_of_mem _)

variable {stack : List (Frame F)}

theorem ok_close (hv : v.Ok limits (limits.depth - stack.length)) (hstack : StackOk limits stack) :
    (close v stack).Ok limits := by
  rcases stack with _ | ⟨frame, stack⟩
  · exact ⟨hv, trivial⟩
  · obtain ⟨hlength, hframe, hstack⟩ := hstack
    rw [length_cons] at hv
    cases frame with
    | items done =>
      refine ⟨trivial, hlength, ?_, hstack⟩
      intro w hw
      rcases mem_append.1 hw with hw | hw
      · exact hframe w hw
      · rwa [mem_singleton.1 hw]
    | members done => exact ⟨trivial, hlength, hframe, hstack⟩
    | member done key =>
      refine ⟨trivial, hlength, ⟨?_, ?_⟩, hstack⟩
      · rw [setMember_keys]
        split_ifs with hkey
        · exact hframe.1
        · exact nodup_append.2 ⟨hframe.1, nodup_singleton _, fun a ha b hb e =>
            hkey (by rwa [← mem_singleton.1 hb, ← e])⟩
      · intro m hm
        rcases mem_setMember hm with rfl | hm
        · exact hv
        · exact hframe.2 m hm

variable {c : CodePoint} {s : Scan F}

theorem ok_beginValue (hstack : StackOk limits stack) (h : beginValue limits c stack = .ok s) :
    s.Ok limits := by
  have hopen (mode : ScanMode F) (frame : Frame F) (hmode : mode.Ok limits)
      (hframe : frame.Ok limits (limits.depth - (stack.length + 1)))
      (h : openFrame limits mode frame stack = .ok s) : s.Ok limits := by
    rw [openFrame] at h
    split_ifs at h with hdepth
    cases h
    exact ⟨hmode, hdepth, hframe, hstack⟩
  have hword {rest : Text} {v : Json F} (h : word c = some (rest, v)) : v.Ok limits 0 := by
    rw [word] at h
    split_ifs at h <;> cases h <;> exact ⟨Nat.le.refl, rfl, rfl⟩
  rw [beginValue] at h
  split_ifs at h
  · cases h
    exact ⟨trivial, hstack⟩
  · exact hopen .firstItem (.items []) trivial nofun h
  · exact hopen .firstKey (.members []) trivial ⟨nodup_nil, nofun⟩ h
  · cases h
    exact ⟨trivial, hstack⟩
  · split at h
    · cases h
      exact ⟨trivial, hstack⟩
    · rename_i hnone
      cases h
      exact ⟨hword hnone, hstack⟩
    · cases h

variable {s' : Scan F}

theorem ok_afterValue (hs : s.Ok limits) (h : s.afterValue c = .ok s') : s'.Ok limits := by
  obtain ⟨mode, stack⟩ := s
  obtain ⟨hmode, hstack⟩ := hs
  rw [afterValue] at h
  split at h
  · cases h
    exact ⟨hmode, hstack⟩
  split at h
  · rename_i done stack hnext hitems
    cases hitems
    obtain ⟨hlength, hframe, hrest⟩ := hstack
    split_ifs at h <;> cases h
    · exact ⟨trivial, hlength, hframe, hrest⟩
    · refine ok_close ((ok_array hframe).mono ?_) hrest
      omega
  · rename_i done stack hnext hmembers
    cases hmembers
    obtain ⟨hlength, hframe, hrest⟩ := hstack
    split_ifs at h <;> cases h
    · exact ⟨trivial, hlength, hframe, hrest⟩
    · refine ok_close ((ok_object hframe.1 hframe.2).mono ?_) hrest
      omega
  · cases h

theorem ok_scalar (hv : v.Ok limits 0) (hstack : StackOk limits stack) :
    (close v stack).Ok limits :=
  ok_close (hv.mono (zero_le _)) hstack

theorem Ok.step (hs : s.Ok limits) (h : s.step floats limits c = .ok s') : s'.Ok limits := by
  obtain ⟨mode, stack⟩ := s
  obtain ⟨hmode, hstack⟩ := hs
  cases mode with
  | next | done v => exact ok_afterValue ⟨hmode, hstack⟩ h
  | firstItem =>
    simp only [Scan.step] at h
    split at h
    · cases h
      exact ⟨trivial, hstack⟩
    split at h
    · split_ifs at h
      · cases h
        obtain ⟨hlength, hframe, hrest⟩ := hstack
        refine ok_close ((ok_array hframe).mono ?_) hrest
        omega
      · exact ok_beginValue hstack h
    · cases h
  | firstKey =>
    simp only [Scan.step] at h
    split at h
    · cases h
      exact ⟨trivial, hstack⟩
    split at h
    · cases h
      exact ⟨trivial, hstack⟩
    split at h
    · split_ifs at h
      cases h
      obtain ⟨hlength, hframe, hrest⟩ := hstack
      refine ok_close ((ok_object hframe.1 hframe.2).mono ?_) hrest
      omega
    · cases h
  | number token =>
    simp only [Scan.step] at h
    split at h
    · cases h
      exact ⟨trivial, hstack⟩
    split_ifs at h
    · cases h
      exact ⟨⟨Nat.le.refl, rfl, rfl⟩, hstack⟩
    obtain ⟨v, hvalue, h⟩ := bind_eq_ok.1 h
    exact ok_afterValue (ok_scalar (ok_value hvalue 0) hstack) h
  | string isKey scan =>
    have hscalar : (string scan.text : Json F).Ok limits 0 := ⟨Nat.le.refl, rfl, rfl⟩
    grind [Scan.step, stringStep, Scan.Ok, ScanMode.Ok, ok_scalar]
  | value | key | colon key | literal rest v =>
    grind [Scan.step, Scan.Ok, ScanMode.Ok, StackOk, Frame.Ok, ok_beginValue, ok_scalar]

theorem Ok.run {text : Text} (hs : s.Ok limits) (h : Scan.run floats limits text s = .ok s') :
    s'.Ok limits := by
  induction text generalizing s with
  | nil =>
    cases h
    exact hs
  | cons c text ih =>
    obtain ⟨t, hstep, h⟩ := bind_eq_ok.1 h
    exact ih (hs.step hstep) h

theorem ok_finish (hs : s.Ok limits) (h : s.finish floats limits = .ok v) :
    v.Ok limits limits.depth := by
  obtain ⟨mode, stack⟩ := s
  cases mode with
  | done w =>
    cases h
    exact hs.mode
  | number token =>
    obtain ⟨w, hvalue, h⟩ := bind_eq_ok.1 h
    cases stack with
    | nil =>
      cases h
      exact ok_value hvalue _
    | cons frame stack => cases h
  | value | firstItem | firstKey | key | colon | next | string | literal => cases h

end Scan

/-- A value that is read is well formed. -/
theorem Json.ok_of_loads {bytes : Bytes} {v : Json F} (h : loads floats limits bytes = .ok v) :
    v.Ok limits limits.depth := by
  rw [loads] at h
  split at h
  · rename_i text _
    obtain ⟨s, hrun, h⟩ := bind_eq_ok.1 h
    have hinit : (⟨.value, []⟩ : Scan F).Ok limits := ⟨trivial, trivial⟩
    exact Scan.ok_finish (hinit.run hrun) h
  · cases h

end Edr
