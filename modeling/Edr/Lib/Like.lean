import Mathlib

/-!
# Patterns of SQL

`text LIKE pattern ESCAPE '\'`: a `%` stands for any characters, a `_` for any one of them, and a
character after the escape character for itself.
-/

namespace Edr

open List String.Slice String.Slice.Pattern String.Slice.Pattern.Model

def like : List Char → List Char → Bool
  | [], text => text.isEmpty
  | ['\\'], _ => false
  | '\\' :: c :: pattern, text =>
    match text with
    | [] => false
    | x :: text => decide (x = c) && like pattern text
  | '%' :: pattern, text => text.tails.any (like pattern)
  | '_' :: pattern, text =>
    match text with
    | [] => false
    | _ :: text => like pattern text
  | c :: pattern, text =>
    match text with
    | [] => false
    | x :: text => decide (x = c) && like pattern text

def escapeLike (c : Char) : List Char := if c = '\\' ∨ c = '%' ∨ c = '_' then ['\\', c] else [c]

theorem like_escape (c : Char) (pattern text : List Char) :
    like (escapeLike c ++ pattern) text = true ↔
      ∃ rest, text = c :: rest ∧ like pattern rest = true := by
  have hcons : like (escapeLike c ++ pattern) text =
      match text with
      | [] => false
      | x :: rest => decide (x = c) && like pattern rest := by
    unfold escapeLike
    split_ifs with h
    · cases text <;> rfl
    · cases text <;> rw [singleton_append, like.eq_def] <;> split <;> simp_all
  rw [hcons]
  cases text <;> simp

/-- The text of a value is escaped character by character. -/
theorem like_escapes (value text : List Char) :
    like (value.flatMap escapeLike ++ ['%']) text = true ↔ value <+: text := by
  induction value generalizing text with
  | nil =>
    have hany : like ['%'] text = true := by simp [like]
    simp [hany]
  | cons c value ih =>
    rw [flatMap_cons, append_assoc, like_escape]
    simp [ih, cons_prefix_iff]

theorem toList_of_search {s : String.Slice} {c : Char} {pattern t : String}
    (hpattern : pattern.toList = [c]) {pos : s.Pos} {steps : List (SearchStep s)}
    (h : IsValidSearchFrom pattern pos steps) {before after : String} (hpos : pos.Splits before after)
    (sofar : String) :
    (steps.foldl (fun
      | sofar, .matched .. => sofar ++ t.toSlice
      | sofar, .rejected start stop => sofar ++ s.slice! start stop) sofar).toList =
      sofar.toList ++ after.toList.flatMap fun x => if x = c then t.toList else [x] := by
  induction h generalizing before after sofar with
  | endPos =>
    obtain rfl : after = "" := hpos.eq_endPos_iff.1 rfl
    simp
  | matched hmatch _ ih =>
    obtain ⟨_, rest, hstart, hstop⟩ := ForwardStringSearcher.isLongestMatchAt_iff_splits.1 hmatch
    obtain rfl := hpos.eq_right hstart
    rw [foldl_cons, ih hstop]
    simp [hpattern]
  | @mismatched _ start stop hlt hnone _ ih =>
    have hstop := stop.splits
    obtain ⟨piece, -, hbefore, rfl⟩ := (hpos.lt_iff_exists_eq_append hstop).1 hlt
    rw [hbefore] at hstop
    have hpiece : c ∉ piece.toList := by
      intro hc
      obtain ⟨a, b, hab⟩ := append_of_mem hc
      obtain rfl : String.ofList a ++ (pattern ++ String.ofList b) = piece := by
        simp [← String.toList_inj, hab, hpattern]
      have hcopy := hpos.eq_append
      simp only [String.append_assoc] at hcopy hstop
      rw [← String.append_assoc] at hcopy
      have hmid := Pos.splits_ofEqAppend hcopy
      refine hnone _ ?_ ?_ (ForwardStringSearcher.matchesAt_iff_splits.2 ⟨_, _, hmid⟩)
      · exact (hpos.le_iff_exists_eq_append hmid).2 ⟨_, rfl, by simp only [String.append_assoc]⟩
      · refine (hmid.lt_iff_exists_eq_append hstop).2 ⟨pattern ++ String.ofList b, ?_, ?_, ?_⟩
        · simp [← String.toList_inj, hpattern]
        · simp only [String.append_assoc]
        · simp only [String.append_assoc]
    obtain ⟨hle, hslice⟩ := copy_slice_eq_iff_splits.2 ⟨_, _, hpos, hstop⟩
    have hkept : (piece.toList.flatMap fun x => if x = c then t.toList else [x]) = piece.toList := by
      calc _ = piece.toList.flatMap fun x => [x] := flatMap_congr fun x hx =>
              if_neg (ne_of_mem_of_not_mem hx hpiece)
        _ = piece.toList := by simp
    rw [foldl_cons, ih hstop]
    dsimp only
    rw [← slice_eq_slice! (h := hle)]
    simp [hkept, hslice]

/-- `replace`, which is a search, replaces character by character. -/
theorem toList_replace {c : Char} {pattern : String} (hpattern : pattern.toList = [c])
    (s t : String) :
    (s.replace pattern t).toList = s.toList.flatMap fun x => if x = c then t.toList else [x] := by
  have hne : pattern ≠ "" := by
    rintro rfl
    cases hpattern
  have hvalid := (ForwardStringSearcher.lawfulToForwardSearcherModel hne).isValidSearchFrom_toList
    s.toSlice
  have hsearch := toList_of_search (t := t) hpattern hvalid s.toSlice.splits_startPos ""
  rwa [Std.Iter.foldl_toList, String.copy_toSlice] at hsearch

end Edr
