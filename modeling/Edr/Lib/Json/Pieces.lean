import Edr.Lib.Json.Bytes

/-!
# JSON texts from pieces

The text of a value, as a program writes it that puts it together from strings: pieces joined by
commas within brackets, numbers in decimal digits. Such a text is `Json.print` of the value, so it is
read as that value (`Json.loads_print`).
-/

namespace Edr

open List Text CodePoint Nat

namespace Text

theorem ofString_append (s t : String) : ofString (s ++ t) = ofString s ++ ofString t := by
  rw [ofString, String.toList_append, map_append]
  rfl

def commaEach (pieces : List Text) : Text := pieces.flatMap fun piece => ch ',' :: piece

theorem ofString_intercalate (pieces : List String) :
    ofString (",".intercalate pieces) = (commaEach (pieces.map ofString)).drop 1 := by
  induction pieces with
  | nil => rfl
  | cons piece pieces ih =>
    cases pieces with
    | nil =>
      rw [String.intercalate_singleton, map_singleton, commaEach, flatMap_singleton]
      rfl
    | cons next pieces =>
      rw [String.intercalate_cons_of_ne_nil (cons_ne_nil _ _), ofString_append, ofString_append,
        ih, map_cons, commaEach, flatMap_cons, cons_append, drop_succ_cons,
        drop_zero, append_assoc, map_cons, commaEach, flatMap_cons]
      rfl

end Text

namespace Json

variable {F : Type} {floats : Floats F}

theorem printItems_eq (items : List (Json F)) :
    printItems floats items = commaEach (items.map (print floats)) := by
  induction items with
  | nil => rfl
  | cons v items ih =>
    rw [printItems, ih, map_cons, commaEach, commaEach, flatMap_cons]

theorem printMembers_eq (members : List (Text × Json F)) :
    printMembers floats members =
      commaEach (members.map fun m => printString m.1 ++ ch ':' :: m.2.print floats) := by
  induction members with
  | nil => rfl
  | cons m members ih =>
    rw [printMembers, ih, map_cons, commaEach, commaEach, flatMap_cons]
    simp

theorem ofString_digits {fuel n : Nat} (h : n ≤ fuel) :
    (Nat.toDigits 10 n).map ofChar = (digitsAux fuel n).map Digit.print := by
  have hdigit (n : Nat) (hn : n < 10) :
      ofChar n.digitChar = Digit.print (Fin.ofNat 10 n) := by
    have hall : ∀ k : Fin 10, ofChar k.val.digitChar = Digit.print (Fin.ofNat 10 k.val) := by
      decide
    exact hall ⟨n, hn⟩
  induction fuel generalizing n with
  | zero =>
    rw [le_zero.1 h]
    rfl
  | succ fuel ih =>
    rw [digitsAux]
    split_ifs with hlt
    · rw [toDigits_of_lt_base hlt, map_singleton, map_singleton, hdigit n hlt]
    · have hmod : Fin.ofNat 10 n = Fin.ofNat 10 (n % 10) := Fin.ext (mod_mod _ _).symm
      rw [toDigits_of_base_le (by decide) (by omega), map_append, map_append,
        ih (by omega), map_singleton, map_singleton, hdigit _ (mod_lt _ (by decide)),
        hmod]

theorem ofString_toString (n : Int) : ofString (toString n) = printInt n := by
  have hnat (n : Nat) : ofString n.repr = (digitsOf n).map Digit.print := by
    rw [repr_eq_ofList_toDigits, ofString, String.toList_ofList]
    exact ofString_digits Nat.le.refl
  rw [show toString n = n.repr from rfl, printInt]
  cases n with
  | ofNat n =>
    rw [if_neg (by simp)]
    exact hnat n
  | negSucc n =>
    rw [if_pos (Int.negSucc_lt_zero n)]
    exact (ofString_append "-" _).trans (congrArg _ (hnat _))

theorem loads_print {limits : Limits} {v : Json F} (hdepth : v.depth ≤ limits.depth)
    (hfits : v.fits limits) (hdistinct : v.distinct) :
    loads floats limits ((v.print floats).flatMap Utf8.encodeChar) = .ok v := by
  rw [loads, decodeBytes_print]
  exact loadsText_print hdepth hfits hdistinct

theorem le_of_mem_print {v : Json F} {c : CodePoint} (hc : c ∈ v.print floats) : 32 ≤ c.val := by
  have hall : (v.print floats).all (fun c => decide (32 ≤ c.val)) = _ := all_print (fun c hc => by
    rw [isPrintable, Bool.and_eq_true] at hc
    exact hc.1) v
  rw [all_of_forall (fun _ => rfl) (fun text => ?_) fun _ => rfl, all_eq_true] at hall
  · exact of_decide_eq_true (hall c hc)
  · rw [all_eq_true]
    intro c _
    rw [Bool.or_eq_true, decide_eq_true_eq, decide_eq_true_eq]
    omega

end Json

end Edr
