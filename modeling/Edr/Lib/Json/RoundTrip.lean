import Edr.Lib.Json.Scan

/-!
# What is written is read back
-/

namespace Edr

open List Json

namespace Scan

variable {F : Type} {floats : Floats F} {limits : Limits}

theorem run_append (a b : Text) (s : Scan F) :
    run floats limits (a ++ b) s = run floats limits a s >>= run floats limits b := by
  induction a generalizing s with
  | nil => rfl
  | cons c a ih =>
    rw [cons_append, run, run]
    cases s.step floats limits c with
    | error e => rfl
    | ok s => exact ih s

theorem run_append_of_ok {a b : Text} {s s' : Scan F} (h : run floats limits a s = .ok s') :
    run floats limits (a ++ b) s = run floats limits b s' := by
  rw [run_append, h]
  rfl

theorem run_cons_of_ok {c : CodePoint} {text : Text} {s s' : Scan F}
    (h : s.step floats limits c = .ok s') :
    run floats limits (c :: text) s = run floats limits text s' := by
  rw [run, h]
  rfl

/-! ## Strings -/

theorem hexValue_hexDigit {n : Nat} (h : n < 16) :
    hexValue (hexDigit n) = some (.ofNat 16 n) := by
  have hall : ∀ n : Fin 16, hexValue (hexDigit n.val) = some (.ofNat 16 n.val) := by decide
  exact hall ⟨n, h⟩

theorem step_string {isKey : Bool} {scan scan' : StringScan} {c : CodePoint}
    {stack : List (Frame F)} (hend : ¬ (scan.escape = .none ∧ c = ch '"'))
    (h : scan.step c = some scan') :
    (⟨.string isKey scan, stack⟩ : Scan F).step floats limits c =
      .ok ⟨.string isKey scan', stack⟩ := by
  simp only [step, stringStep, if_neg hend, h]

theorem run_escape (c : CodePoint) (isKey : Bool) (text : Text) (stack : List (Frame F)) :
    run floats limits (Json.escape c) ⟨.string isKey ⟨text, false, .none⟩, stack⟩ =
      .ok ⟨.string isKey ⟨text ++ [c], false, .none⟩, stack⟩ := by
  unfold Json.escape
  split_ifs with h1 h2 h3 h4 h5 h6 h7 h8
  · rw [h1]
    rfl
  · rw [h2]
    rfl
  · rw [h3]
    rfl
  · rw [h4]
    rfl
  · rw [h5]
    rfl
  · rw [show c = 8 from Fin.ext h6]
    rfl
  · rw [show c = 12 from Fin.ext h7]
    rfl
  · -- four hexadecimal digits, which are no surrogate
    have hvalue : ([0, 0, Fin.ofNat 16 (c.val / 16), Fin.ofNat 16 (c.val % 16)] :
        List (Fin 16)).foldl (fun n d => 16 * n + d.val) 0 = c.val := by
      simp only [List.foldl_cons, List.foldl_nil, Fin.ofNat, Fin.val_zero]
      omega
    have hc : Fin.ofNat 0x110000 c.val = c := Fin.ext (Nat.mod_eq_of_lt c.isLt)
    have hhigh : c.isHigh = false := by
      rw [CodePoint.isHigh, Bool.and_eq_false_iff]
      exact .inl (decide_eq_false (by omega))
    have hlast : (⟨text, false, .unicode [0, 0, Fin.ofNat 16 (c.val / 16)]⟩ : StringScan).step
        (Json.hexDigit (c.val % 16)) = some ⟨text ++ [c], false, .none⟩ := by
      simp only [StringScan.step, hexValue_hexDigit (n := c.val % 16) (by omega), Option.map_some]
      have hlen : ([0, 0, Fin.ofNat 16 (c.val / 16)] : List (Fin 16)).length = 3 := rfl
      rw [if_pos hlen, List.cons_append, List.cons_append, List.cons_append,
        List.nil_append, hvalue, hc, StringScan.pushUnicode, hhigh]
    have hthird : (⟨text, false, .unicode [0, 0]⟩ : StringScan).step (Json.hexDigit (c.val / 16)) =
        some ⟨text, false, .unicode [0, 0, Fin.ofNat 16 (c.val / 16)]⟩ := by
      simp only [StringScan.step, hexValue_hexDigit (n := c.val / 16) (by omega), Option.map_some]
      rfl
    change run floats limits [Json.hexDigit (c.val / 16), Json.hexDigit (c.val % 16)]
      ⟨.string isKey ⟨text, false, .unicode [0, 0]⟩, stack⟩ = _
    rw [run_cons_of_ok (step_string (fun h => Escape.noConfusion h.1) hthird),
      run_cons_of_ok (step_string (fun h => Escape.noConfusion h.1) hlast)]
    rfl
  · have hstep : (⟨text, false, .none⟩ : StringScan).step c = some ⟨text ++ [c], false, .none⟩ := by
      simp only [StringScan.step, if_neg h2, if_neg h8, StringScan.push]
    rw [run_cons_of_ok (step_string (fun h => h1 h.2) hstep)]
    rfl

theorem run_escapes (chars : Text) (isKey : Bool) (text : Text) (stack : List (Frame F)) :
    run floats limits (chars.flatMap Json.escape) ⟨.string isKey ⟨text, false, .none⟩, stack⟩ =
      .ok ⟨.string isKey ⟨text ++ chars, false, .none⟩, stack⟩ := by
  induction chars generalizing text with
  | nil => rw [List.append_nil]; rfl
  | cons c chars ih =>
    rw [List.flatMap_cons, run_append_of_ok (run_escape c isKey text stack), ih, List.append_assoc,
      List.singleton_append]

theorem run_printString (text : Text) (stack : List (Frame F)) :
    run floats limits (Json.printString text) ⟨.value, stack⟩ =
      .ok (close (.string text) stack) := by
  have hbegin : (⟨.value, stack⟩ : Scan F).step floats limits (ch '"') =
      .ok ⟨.string false ⟨[], false, .none⟩, stack⟩ := rfl
  rw [printString, cons_append, run_cons_of_ok hbegin,
    run_append_of_ok (run_escapes text false [] stack)]
  rfl

theorem run_key {s : Scan F} (text : Text)
    (hbegin : s.step floats limits (ch '"') = .ok ⟨.string true ⟨[], false, .none⟩, s.stack⟩) :
    run floats limits (Json.printString text) s = .ok ⟨.colon text, s.stack⟩ := by
  rw [Json.printString, List.cons_append, run_cons_of_ok hbegin,
    run_append_of_ok (run_escapes text true [] s.stack)]
  rfl

/-! ## Numbers -/

theorem digitValue_print (d : Digit) : digitValue d.print = some d := by
  have hall : ∀ d : Digit, digitValue d.print = some d := by decide
  exact hall d

theorem run_digits (part : List Digit → NumberToken) {P : List Digit → Prop}
    (hpush : ∀ digits d, P digits → (part digits).push d.print = some (part (digits ++ [d])))
    (hP : ∀ digits d, P digits → P (digits ++ [d])) (more : List Digit) {digits : List Digit}
    (h : P digits) (stack : List (Frame F)) :
    run floats limits (more.map Digit.print) ⟨.number (part digits), stack⟩ =
      .ok ⟨.number (part (digits ++ more)), stack⟩ := by
  induction more generalizing digits with
  | nil => rw [List.append_nil]; rfl
  | cons d more ih =>
    have hstep : (⟨.number (part digits), stack⟩ : Scan F).step floats limits d.print =
        .ok ⟨.number (part (digits ++ [d])), stack⟩ := by
      simp only [step, hpush digits d h]
    rw [List.map_cons, run_cons_of_ok hstep, ih (hP digits d h), List.append_assoc,
      List.singleton_append]

theorem step_digit (d : Digit) (stack : List (Frame F)) :
    (⟨.value, stack⟩ : Scan F).step floats limits d.print =
      .ok ⟨.number ⟨false, [d], none, none⟩, stack⟩ := by
  match d with
  | 0 | 1 | 2 | 3 | 4 | 5 | 6 | 7 | 8 | 9 => rfl

theorem push_whole {negative : Bool} {whole : List Digit} (d : Digit) (h : whole ≠ [0]) :
    (⟨negative, whole, none, none⟩ : NumberToken).push d.print =
      some ⟨negative, whole ++ [d], none, none⟩ := by
  simp only [NumberToken.push, digitValue_print, if_neg h]

theorem run_whole {negative : Bool} {whole : List Digit}
    (h : (⟨negative, whole, none, none⟩ : NumberToken).wholeOk) (stack : List (Frame F)) :
    run floats limits ((if negative then [ch '-'] else []) ++ whole.map Digit.print)
      ⟨.value, stack⟩ = .ok ⟨.number ⟨negative, whole, none, none⟩, stack⟩ := by
  obtain ⟨d, more, rfl⟩ : ∃ d more, whole = d :: more := by
    cases whole with
    | nil => cases h
    | cons d more => exact ⟨d, more, rfl⟩
  have hfirst : run floats limits ((if negative then [ch '-'] else []) ++ [d.print])
      ⟨.value, stack⟩ = .ok ⟨.number ⟨negative, [d], none, none⟩, stack⟩ := by
    cases negative with
    | false => exact run_cons_of_ok (step_digit d stack)
    | true =>
      have hsign : (⟨.value, stack⟩ : Scan F).step floats limits (ch '-') =
          .ok ⟨.number ⟨true, [], none, none⟩, stack⟩ := rfl
      refine (run_cons_of_ok hsign).trans ?_
      refine run_cons_of_ok ?_
      simp only [step, push_whole d (List.cons_ne_nil 0 []).symm, List.nil_append]
  have hmore : run floats limits (more.map Digit.print)
      ⟨.number ⟨negative, [d], none, none⟩, stack⟩ =
      .ok ⟨.number ⟨negative, d :: more, none, none⟩, stack⟩ := by
    cases more with
    | nil => rfl
    | cons d' more =>
      -- the first digit is not a zero, and stays the first
      have hd : d ≠ 0 := of_decide_eq_true h
      refine run_digits (fun digits => ⟨negative, digits, none, none⟩)
        (P := fun digits => digits.head? = some d) (fun digits d' hdigits => ?_)
        (fun digits d' hdigits => ?_) (d' :: more) (by exact rfl) stack
      · refine push_whole d' fun hzero => ?_
        rw [hzero] at hdigits
        exact hd (Option.some.inj hdigits).symm
      · rw [List.head?_append, hdigits, Option.some_or]
  rw [List.map_cons, List.append_cons, run_append_of_ok hfirst, hmore]

theorem run_fraction {negative : Bool} {whole : List Digit} (h : whole ≠ [])
    (fraction : Option (List Digit)) (stack : List (Frame F)) :
    run floats limits (NumberToken.printFraction fraction)
      ⟨.number ⟨negative, whole, none, none⟩, stack⟩ =
      .ok ⟨.number ⟨negative, whole, fraction, none⟩, stack⟩ := by
  rcases fraction with _ | digits
  · rfl
  have hpoint : (⟨.number ⟨negative, whole, none, none⟩, stack⟩ : Scan F).step floats limits
      (ch '.') = .ok ⟨.number ⟨negative, whole, some [], none⟩, stack⟩ := by
    have hpush : (⟨negative, whole, none, none⟩ : NumberToken).push (ch '.') =
        some ⟨negative, whole, some [], none⟩ := if_neg h
    simp [step, hpush]
  rw [NumberToken.printFraction, run_cons_of_ok hpoint]
  refine run_digits (fun digits => ⟨negative, whole, some digits, none⟩) (P := fun _ => True)
    (fun digits d _ => ?_) (fun _ _ _ => trivial) digits trivial stack
  simp [NumberToken.push, digitValue_print]

theorem run_exponent {negative : Bool} {whole : List Digit} {fraction : Option (List Digit)}
    (h : whole ≠ []) (hfraction : fraction.all fun digits => !digits.isEmpty)
    (exponent : Option (Option Bool × List Digit)) (stack : List (Frame F)) :
    run floats limits (NumberToken.printExponent exponent)
      ⟨.number ⟨negative, whole, fraction, none⟩, stack⟩ =
      .ok ⟨.number ⟨negative, whole, fraction, exponent⟩, stack⟩ := by
  rcases exponent with _ | ⟨sign, digits⟩
  · rfl
  have hpush : (⟨negative, whole, fraction, none⟩ : NumberToken).push (ch 'e') =
      some ⟨negative, whole, fraction, some (none, [])⟩ := by
    cases fraction with
    | none => exact if_neg h
    | some digits => exact if_pos ⟨rfl, fun hnil => by simp [hnil] at hfraction⟩
  have hletter : (⟨.number ⟨negative, whole, fraction, none⟩, stack⟩ : Scan F).step floats limits
      (ch 'e') = .ok ⟨.number ⟨negative, whole, fraction, some (none, [])⟩, stack⟩ := by
    simp [step, hpush]
  have hsign : run floats limits (NumberToken.printSign sign)
      ⟨.number ⟨negative, whole, fraction, some (none, [])⟩, stack⟩ =
      .ok ⟨.number ⟨negative, whole, fraction, some (sign, [])⟩, stack⟩ := by
    rcases sign with _ | _ | _ <;> rfl
  rw [NumberToken.printExponent, List.cons_append, run_cons_of_ok hletter, run_append_of_ok hsign]
  refine run_digits (fun digits => ⟨negative, whole, fraction, some (sign, digits)⟩)
    (P := fun _ => True) (fun digits d _ => ?_) (fun _ _ _ => trivial) digits trivial stack
  simp [NumberToken.push, digitValue_print]

theorem whole_ne_nil {token : NumberToken} (h : token.wholeOk) : token.whole ≠ [] := by
  intro hnil
  rw [NumberToken.wholeOk, hnil] at h
  cases h

theorem wholeOk_of_isFloat {token : NumberToken} (h : token.isFloat) : token.wholeOk := by
  simp only [NumberToken.isFloat, Bool.and_eq_true] at h
  exact h.1.1.1

theorem run_token {token : NumberToken} (h : token.isFloat) (stack : List (Frame F)) :
    run floats limits token.print ⟨.value, stack⟩ = .ok ⟨.number token, stack⟩ := by
  obtain ⟨negative, whole, fraction, exponent⟩ := token
  simp only [NumberToken.isFloat, Bool.and_eq_true] at h
  obtain ⟨⟨⟨hwhole, -⟩, hfraction⟩, -⟩ := h
  have hne : whole ≠ [] := by
    rintro rfl
    cases hwhole
  rw [NumberToken.print, List.append_assoc, run_append_of_ok (run_whole hwhole stack),
    run_append_of_ok (run_fraction hne fraction stack)]
  exact run_exponent hne hfraction exponent stack

/-! ## Integers -/

theorem ofDigits_append (digits : List Digit) (d : Digit) :
    ofDigits (digits ++ [d]) = 10 * ofDigits digits + d.val := by
  rw [ofDigits, ofDigits, List.foldl_append, List.foldl_cons, List.foldl_nil]

theorem ofDigits_digitsAux {fuel n : Nat} (h : n ≤ fuel) : ofDigits (digitsAux fuel n) = n := by
  induction fuel generalizing n with
  | zero => rw [Nat.le_zero.1 h]; rfl
  | succ fuel ih =>
    rw [digitsAux]
    split_ifs with hn
    · simp only [ofDigits, List.foldl_cons, List.foldl_nil, Fin.ofNat]
      omega
    · rw [ofDigits_append, ih (by omega)]
      simp only [Fin.ofNat]
      omega

theorem head_digitsAux {fuel n : Nat} (h : n ≤ fuel) (hn : 0 < n) :
    ∃ d more, digitsAux fuel n = d :: more ∧ d ≠ 0 := by
  induction fuel generalizing n with
  | zero => omega
  | succ fuel ih =>
    rw [digitsAux]
    split_ifs with hlt
    · exact ⟨_, [], rfl, Fin.ne_of_val_ne (by simp only [Fin.ofNat, Fin.val_zero]; omega)⟩
    · obtain ⟨d, more, heq, hd⟩ := @ih (n / 10) (by omega) (by omega)
      exact ⟨d, more ++ [Fin.ofNat 10 n], by rw [heq, List.cons_append], hd⟩

theorem wholeOk_digitsOf (negative : Bool) (n : Nat) :
    (⟨negative, digitsOf n, none, none⟩ : NumberToken).wholeOk := by
  rcases Nat.eq_zero_or_pos n with rfl | hn
  · rfl
  · obtain ⟨d, more, heq, hd⟩ := head_digitsAux Nat.le.refl hn
    rw [NumberToken.wholeOk, digitsOf, heq]
    cases more with
    | nil => rfl
    | cons d' more => exact decide_eq_true hd

theorem run_printInt (n : Int) (stack : List (Frame F)) :
    run floats limits (Json.printInt n) ⟨.value, stack⟩ =
      .ok ⟨.number ⟨decide (n < 0), digitsOf n.natAbs, none, none⟩, stack⟩ := by
  have h := @run_whole F floats limits _ _ (wholeOk_digitsOf (decide (n < 0)) n.natAbs) stack
  simpa only [Json.printInt, decide_eq_true_eq] using h

theorem value_int {n : Int} (h : (digitsOf n.natAbs).length ≤ limits.digits) :
    (⟨decide (n < 0), digitsOf n.natAbs, none, none⟩ : NumberToken).value floats limits =
      .ok (.int n) := by
  have hne : digitsOf n.natAbs ≠ [] := whole_ne_nil (wholeOk_digitsOf false n.natAbs)
  rw [NumberToken.value, if_neg hne, if_pos ⟨rfl, rfl⟩, if_neg (Nat.not_lt.2 h)]
  simp only [digitsOf, ofDigits_digitsAux Nat.le.refl, decide_eq_true_eq]
  congr 2
  split_ifs <;> omega

theorem value_float {token : NumberToken} (h : token.isFloat) :
    token.value floats limits = .ok (.float (floats.ofToken token)) := by
  have hparts : ¬ (token.fraction = none ∧ token.exponent = none) := by
    rintro ⟨hfraction, hexponent⟩
    simp [NumberToken.isFloat, hfraction, hexponent] at h
  rw [NumberToken.value, if_neg (whole_ne_nil (wholeOk_of_isFloat h)), if_neg hparts, if_pos h]

/-! ## Values -/

def Delimiter (c : CodePoint) : Prop := c = ch ',' ∨ c = ch ']' ∨ c = ch '\x7d'

/-- The machine goes on as after the value `v`. -/
structure Ends (floats : Floats F) (limits : Limits) (s : Scan F) (v : Json F)
    (stack : List (Frame F)) : Prop where
  step : ∀ c, Delimiter c → s.step floats limits c = (close v stack).step floats limits c
  finish : s.finish floats limits = (close v stack).finish floats limits

theorem Ends.closed (v : Json F) (stack : List (Frame F)) :
    Ends floats limits (close v stack) v stack :=
  ⟨fun _ _ => rfl, rfl⟩

theorem step_close (v : Json F) (stack : List (Frame F)) (c : CodePoint) :
    (close v stack).step floats limits c = (close v stack).afterValue c := by
  rcases stack with _ | ⟨_ | _ | _, stack⟩ <;> rfl

theorem push_delimiter {c : CodePoint} (h : Delimiter c) (token : NumberToken) :
    token.push c = none := by
  obtain ⟨negative, whole, fraction, exponent⟩ := token
  rcases h with rfl | rfl | rfl <;>
  · rcases exponent with _ | ⟨_ | _, _ | _⟩ <;> rcases fraction with _ | _ <;>
      simp [NumberToken.push, digitValue, isExponent, CodePoint.ofChar]

theorem Ends.number {token : NumberToken} {v : Json F} (hwhole : token.whole ≠ [])
    (h : token.value floats limits = .ok v) (stack : List (Frame F)) :
    Ends floats limits ⟨.number token, stack⟩ v stack := by
  constructor
  · intro c hc
    rw [step_close]
    simp only [Scan.step, push_delimiter hc, if_neg fun h : token.whole = [] ∧ _ => hwhole h.1, h]
    rfl
  · simp only [Scan.finish, h]
    rcases stack with _ | ⟨_ | _ | _, stack⟩ <;> rfl

theorem exists_cons_number (negative : Bool) {whole : List Digit} (h : whole ≠ []) (more : Text) :
    ∃ c text, (if negative then [ch '-'] else []) ++ whole.map Digit.print ++ more = c :: text ∧
      isSpaceJson c = false ∧ c ≠ ch ']' ∧ c.val < 128 := by
  obtain ⟨d, digits, rfl⟩ := List.exists_cons_of_ne_nil h
  have hdigit : ∀ d : Digit, isSpaceJson d.print = false ∧ d.print ≠ ch ']' ∧
      d.print.val < 128 := by decide
  cases negative with
  | true => exact ⟨ch '-', _, rfl, by decide⟩
  | false => exact ⟨d.print, _, rfl, hdigit d⟩

theorem exists_cons_print (floats : Floats F) (v : Json F) :
    ∃ c text, v.print floats = c :: text ∧ isSpaceJson c = false ∧ c ≠ ch ']' ∧ c.val < 128 := by
  cases v with
  | null => exact ⟨ch 'n', _, rfl, by decide⟩
  | bool b =>
    cases b with
    | true => exact ⟨ch 't', _, rfl, by decide⟩
    | false => exact ⟨ch 'f', _, rfl, by decide⟩
  | int n =>
    have h := exists_cons_number (decide (n < 0))
      (whole_ne_nil (wholeOk_digitsOf false n.natAbs)) []
    simpa only [Json.print, Json.printInt, List.append_nil, decide_eq_true_eq] using h
  | float x =>
    rcases x with _ | (_ | _) | x
    · exact ⟨ch 'N', _, rfl, by decide⟩
    · exact ⟨ch 'I', _, rfl, by decide⟩
    · exact ⟨ch '-', _, rfl, by decide⟩
    · rw [Json.print, Json.printFloat, NumberToken.print, List.append_assoc]
      exact exists_cons_number _ (whole_ne_nil (wholeOk_of_isFloat (floats.isFloat_repr x))) _
  | string text => exact ⟨ch '"', _, rfl, by decide⟩
  | array items => exact ⟨ch '[', _, rfl, by decide⟩
  | object members => exact ⟨ch '\x7b', _, rfl, by decide⟩

theorem run_firstItem (v : Json F) (stack : List (Frame F)) :
    run floats limits (v.print floats) ⟨.firstItem, .items [] :: stack⟩ =
      run floats limits (v.print floats) ⟨.value, .items [] :: stack⟩ := by
  obtain ⟨c, text, hprint, hspace, hend, -⟩ := exists_cons_print floats v
  have hstep : (⟨.firstItem, .items [] :: stack⟩ : Scan F).step floats limits c =
      (⟨.value, .items [] :: stack⟩ : Scan F).step floats limits c := by
    simp only [step, hspace, if_neg hend, Bool.false_eq_true, if_false]
  rw [hprint, run, run, hstep]

theorem setMember_of_not_mem {key : Text} {v : Json F} {members : List (Text × Json F)}
    (h : key ∉ members.map (·.1)) : setMember key v members = members ++ [(key, v)] := by
  induction members with
  | nil => rfl
  | cons m members ih =>
    rw [map_cons, mem_cons, not_or] at h
    rw [setMember, if_neg (Ne.symm h.1), ih h.2, cons_append]

def Readable (floats : Floats F) (limits : Limits) (v : Json F) (stack : List (Frame F)) : Prop :=
  ∃ s, run floats limits (v.print floats) ⟨.value, stack⟩ = .ok s ∧ Ends floats limits s v stack

theorem run_items {items : List (Json F)} {stack : List (Frame F)}
    (h : ∀ v ∈ items, ∀ done, Readable floats limits v (.items done :: stack)) {s : Scan F}
    {v : Json F} {done : List (Json F)} (hs : Ends floats limits s v (.items done :: stack)) :
    run floats limits (printItems floats items ++ [ch ']']) s =
      .ok (close (.array (done ++ v :: items)) stack) := by
  induction items generalizing s v done with
  | nil =>
    have hend : s.step floats limits (ch ']') = .ok (close (.array (done ++ [v])) stack) :=
      hs.step _ (.inr (.inl rfl))
    exact run_cons_of_ok hend
  | cons w items ih =>
    obtain ⟨hw, hitems⟩ := forall_mem_cons.1 h
    obtain ⟨s', hrun, hs'⟩ := hw (done ++ [v])
    have hcomma : s.step floats limits (ch ',') = .ok ⟨.value, .items (done ++ [v]) :: stack⟩ :=
      hs.step _ (.inl rfl)
    rw [printItems, cons_append, cons_append, run_cons_of_ok hcomma,
      append_assoc, run_append_of_ok hrun, ih hitems hs', append_assoc,
      singleton_append]

theorem readable_array {items : List (Json F)} {stack : List (Frame F)}
    (hdepth : stack.length < limits.depth)
    (h : ∀ v ∈ items, ∀ done, Readable floats limits v (.items done :: stack)) :
    Readable floats limits (.array items) stack := by
  refine ⟨close (.array items) stack, ?_, .closed _ _⟩
  have hopen : (⟨.value, stack⟩ : Scan F).step floats limits (ch '[') =
      .ok ⟨.firstItem, .items [] :: stack⟩ := if_pos hdepth
  rw [print, cons_append, run_cons_of_ok hopen]
  cases items with
  | nil => rfl
  | cons v items =>
    obtain ⟨s, hrun, hs⟩ := h v mem_cons_self []
    rw [printItems, cons_append, drop_one, tail_cons, append_assoc,
      run_append_of_ok ((run_firstItem v stack).trans hrun),
      run_items (fun v hv => h v (mem_cons_of_mem _ hv)) hs, nil_append]

theorem run_members {members : List (Text × Json F)} {stack : List (Frame F)}
    (h : ∀ m ∈ members, ∀ done key, Readable floats limits m.2 (.member done key :: stack))
    {s : Scan F} {v : Json F} {done : List (Text × Json F)} {key : Text}
    (hs : Ends floats limits s v (.member done key :: stack))
    (hdistinct : ((done ++ (key, v) :: members).map (·.1)).Nodup) :
    run floats limits (printMembers floats members ++ [ch '\x7d']) s =
      .ok (close (.object (done ++ (key, v) :: members)) stack) := by
  have hkey : setMember key v done = done ++ [(key, v)] := by
    refine setMember_of_not_mem fun hmem => ?_
    rw [map_append, nodup_append] at hdistinct
    exact hdistinct.2.2 key hmem key mem_cons_self rfl
  induction members generalizing s v done key with
  | nil =>
    have hend : s.step floats limits (ch '\x7d') =
        .ok (close (.object (setMember key v done)) stack) := hs.step _ (.inr (.inr rfl))
    rw [hkey] at hend
    exact run_cons_of_ok hend
  | cons m members ih =>
    obtain ⟨key', w⟩ := m
    obtain ⟨hw, hmembers⟩ := forall_mem_cons.1 h
    obtain ⟨s', hrun, hs'⟩ := hw (done ++ [(key, v)]) key'
    have hcomma : s.step floats limits (ch ',') =
        .ok ⟨.key, .members (setMember key v done) :: stack⟩ := hs.step _ (.inl rfl)
    have hcolon : (⟨.colon key', .members (done ++ [(key, v)]) :: stack⟩ : Scan F).step floats limits
        (ch ':') = .ok ⟨.value, .member (done ++ [(key, v)]) key' :: stack⟩ := rfl
    have hdistinct' : ((done ++ [(key, v)] ++ (key', w) :: members).map (·.1)).Nodup := by
      rwa [append_assoc, singleton_append]
    have hkey' : setMember key' w (done ++ [(key, v)]) = done ++ [(key, v)] ++ [(key', w)] := by
      refine setMember_of_not_mem fun hmem => ?_
      rw [map_append, nodup_append] at hdistinct'
      exact hdistinct'.2.2 key' hmem key' mem_cons_self rfl
    rw [hkey] at hcomma
    simp only [printMembers, cons_append, append_assoc]
    rw [run_cons_of_ok hcomma, run_append_of_ok (run_key key' rfl), run_cons_of_ok hcolon,
      run_append_of_ok hrun, ih hmembers hs' hdistinct' hkey', append_assoc,
      singleton_append]

theorem readable_object {members : List (Text × Json F)} {stack : List (Frame F)}
    (hdepth : stack.length < limits.depth) (hdistinct : (members.map (·.1)).Nodup)
    (h : ∀ m ∈ members, ∀ done key, Readable floats limits m.2 (.member done key :: stack)) :
    Readable floats limits (.object members) stack := by
  refine ⟨close (.object members) stack, ?_, .closed _ _⟩
  have hopen : (⟨.value, stack⟩ : Scan F).step floats limits (ch '\x7b') =
      .ok ⟨.firstKey, .members [] :: stack⟩ := if_pos hdepth
  rw [print, cons_append, run_cons_of_ok hopen]
  cases members with
  | nil => rfl
  | cons m members =>
    obtain ⟨key, v⟩ := m
    obtain ⟨s, hrun, hs⟩ := h (key, v) mem_cons_self [] key
    have hcolon : (⟨.colon key, .members [] :: stack⟩ : Scan F).step floats limits (ch ':') =
        .ok ⟨.value, .member [] key :: stack⟩ := rfl
    simp only [printMembers, cons_append, drop_one, tail_cons,
      append_assoc]
    rw [run_append_of_ok (run_key key rfl), run_cons_of_ok hcolon, run_append_of_ok hrun,
      run_members (fun m hm => h m (mem_cons_of_mem _ hm)) hs hdistinct, nil_append]

theorem readable_print (v : Json F) {stack : List (Frame F)}
    (hdepth : stack.length + v.depth ≤ limits.depth) (hfits : v.fits limits)
    (hdistinct : v.distinct) : Readable floats limits v stack := by
  induction v using recMem generalizing stack with
  | null => exact ⟨_, rfl, .closed _ _⟩
  | bool b => cases b <;> exact ⟨_, rfl, .closed _ _⟩
  | int n =>
    exact ⟨_, run_printInt n stack, .number (whole_ne_nil (wholeOk_digitsOf _ n.natAbs))
      (value_int (of_decide_eq_true hfits)) stack⟩
  | float x =>
    rcases x with _ | (_ | _) | x
    · exact ⟨_, rfl, .closed _ _⟩
    · exact ⟨_, rfl, .closed _ _⟩
    · exact ⟨_, rfl, .closed _ _⟩
    · have hfloat := floats.isFloat_repr x
      refine ⟨_, run_token hfloat stack, .number (whole_ne_nil (wholeOk_of_isFloat hfloat)) ?_ stack⟩
      rw [value_float hfloat, floats.ofToken_repr]
  | string text => exact ⟨_, run_printString text stack, .closed _ _⟩
  | array items ih =>
    rw [fits, all_array, all_eq_true] at hfits
    rw [distinct, all_array, all_eq_true] at hdistinct
    rw [depth] at hdepth
    refine readable_array (by omega) fun v hv done => ih v hv ?_ (hfits v hv) (hdistinct v hv)
    have := depthItems_le.1 Nat.le.refl v hv
    rw [length_cons]
    omega
  | object members ih =>
    rw [fits, all_object, Bool.and_eq_true, all_eq_true] at hfits
    rw [distinct, all_object, Bool.and_eq_true, all_eq_true] at hdistinct
    rw [depth] at hdepth
    refine readable_object (by omega) (of_decide_eq_true hdistinct.1) fun m hm done key =>
      ih m hm ?_ (Bool.and_eq_true_iff.1 (hfits.2 m hm)).2
        (Bool.and_eq_true_iff.1 (hdistinct.2 m hm)).2
    have := depthMembers_le.1 Nat.le.refl m hm
    rw [length_cons]
    omega

end Scan

namespace Json

variable {F : Type} {floats : Floats F}

/-- The value that is read is the one that was written. -/
theorem loadsText_print {limits : Limits} {v : Json F} (hdepth : v.depth ≤ limits.depth)
    (hfits : v.fits limits) (hdistinct : v.distinct) :
    loadsText floats limits (v.print floats) = .ok v := by
  obtain ⟨s, hrun, hs⟩ := @Scan.readable_print F floats limits v [] (by simpa using hdepth) hfits
    hdistinct
  rw [loadsText, hrun]
  exact hs.finish

end Json

end Edr
