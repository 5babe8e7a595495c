import Edr.Lib.Json.RoundTrip

/-!
# The bytes of a value

What is written of a value is printable ASCII, except for the characters of its strings.
-/

namespace Edr.Json

open List NumberToken CodePoint Bool Nat

variable {F : Type} {floats : Floats F}

/-! ## Printable characters -/

def isPrintable (c : CodePoint) : Bool := 32 ≤ c.val && c.val < 127

theorem isPrintable_digit (d : Digit) : isPrintable d.print := by
  have hall : ∀ d : Digit, isPrintable d.print := by decide
  exact hall d

theorem all_isPrintable_digits (digits : List Digit) :
    (digits.map Digit.print).all isPrintable := by
  rw [all_map, all_eq_true]
  exact fun d _ => isPrintable_digit d

theorem all_isPrintable_token (token : NumberToken) : token.print.all isPrintable := by
  obtain ⟨negative, whole, fraction, exponent⟩ := token
  have hsign : (if negative then [ch '-'] else []).all isPrintable := by cases negative <;> decide
  have hfraction : (printFraction fraction).all isPrintable := by
    rcases fraction with _ | digits
    · rfl
    · exact and_eq_true_iff.2 ⟨by decide, all_isPrintable_digits digits⟩
  have hexponent : (printExponent exponent).all isPrintable := by
    rcases exponent with _ | ⟨sign, digits⟩
    · rfl
    · have hsign : (printSign sign).all isPrintable := by
        rcases sign with _ | _ | _ <;> decide
      rw [printExponent, cons_append, all_cons, all_append, hsign,
        all_isPrintable_digits]
      decide
  rw [NumberToken.print, all_append, all_append, all_append, hsign,
    all_isPrintable_digits, hfraction, hexponent]
  decide

theorem all_isPrintable_int (n : Int) : (printInt n).all isPrintable := by
  have hsign : (if n < 0 then [ch '-'] else []).all isPrintable := by split_ifs <;> decide
  rw [printInt, all_append, hsign, all_isPrintable_digits]
  decide

theorem all_isPrintable_float (floats : Floats F) (x : JsonFloat F) :
    (printFloat floats x).all isPrintable := by
  rcases x with _ | (_ | _) | x
  · rfl
  · rfl
  · rfl
  · exact all_isPrintable_token _

theorem isPrintable_hexDigit {n : Nat} (h : n < 16) : isPrintable (hexDigit n) := by
  have hall : ∀ n : Fin 16, isPrintable (hexDigit n.val) := by decide
  exact hall ⟨n, h⟩

theorem escape_cases (c : CodePoint) :
    (escape c = [c] ∧ 32 ≤ c.val) ∨
      ((escape c).all isPrintable ∧ (isPrintable c ∨ c.val < 32)) := by
  unfold escape
  split_ifs with h1 h2 h3 h4 h5 h6 h7 h8
  · exact .inr ⟨by decide, .inl (h1 ▸ by decide)⟩
  · exact .inr ⟨by decide, .inl (h2 ▸ by decide)⟩
  · exact .inr ⟨by decide, .inr (h3 ▸ by decide)⟩
  · exact .inr ⟨by decide, .inr (h4 ▸ by decide)⟩
  · exact .inr ⟨by decide, .inr (h5 ▸ by decide)⟩
  · exact .inr ⟨by decide, .inr (by omega)⟩
  · exact .inr ⟨by decide, .inr (by omega)⟩
  · refine .inr ⟨?_, .inr h8⟩
    simp only [all_cons, isPrintable_hexDigit (n := c.val / 16) (by omega),
      isPrintable_hexDigit (n := c.val % 16) (by omega)]
    decide
  · exact .inl ⟨rfl, not_lt.1 h8⟩

/-! ## Tests of a text -/

section

variable {p : CodePoint → Bool} (hp : ∀ c, isPrintable c → p c)

include hp

theorem all_of_isPrintable {text : Text} (h : text.all isPrintable) : text.all p := by
  rw [all_eq_true] at h ⊢
  exact fun c hc => hp c (h c hc)

theorem all_escape (c : CodePoint) : (escape c).all p = (decide (c.val < 32) || p c) := by
  rcases escape_cases c with ⟨hself, hc⟩ | ⟨hprint, hc⟩
  · rw [hself, decide_eq_false (not_lt.2 hc), all_cons, all_nil, Bool.and_true,
      Bool.false_or]
  · rw [all_of_isPrintable hp hprint]
    rcases hc with hc | hc
    · rw [hp c hc, Bool.or_true]
    · rw [decide_eq_true hc, Bool.true_or]

theorem all_printString (text : Text) :
    (printString text).all p = text.all fun c => decide (c.val < 32) || p c := by
  have hquote : p (ch '"') = true := hp _ (by decide)
  rw [printString, List.cons_append, List.all_cons, hquote, Bool.true_and, List.all_append,
    List.all_cons, hquote, List.all_nil, Bool.and_true, Bool.and_true, List.all_flatMap]
  congr 1
  exact funext fun c => all_escape hp c

theorem all_printItems (items : List (Json F)) :
    (printItems floats items).all p = items.all fun v => (v.print floats).all p := by
  have hcomma : p (ch ',') = true := hp _ (by decide)
  induction items with
  | nil => rfl
  | cons v items ih =>
    rw [printItems, List.cons_append, List.all_cons, hcomma, Bool.true_and, List.all_append, ih,
      List.all_cons]

theorem all_printMembers (members : List (Text × Json F)) :
    (printMembers floats members).all p =
      members.all fun m => (printString m.1).all p && (m.2.print floats).all p := by
  have hcomma : p (ch ',') = true := hp _ (by decide)
  have hcolon : p (ch ':') = true := hp _ (by decide)
  induction members with
  | nil => rfl
  | cons m members ih =>
    rw [printMembers, List.cons_append, List.cons_append, List.all_cons, hcomma, Bool.true_and,
      List.all_append, List.all_append, List.all_cons, hcolon, Bool.true_and, ih, List.all_cons]

theorem all_drop_one {text : Text} (h : text.head?.all isPrintable) :
    (text.drop 1).all p = text.all p := by
  cases text with
  | nil => rfl
  | cons c text => rw [List.drop_one, List.tail_cons, List.all_cons, hp c h, Bool.true_and]

theorem all_print (v : Json F) :
    (v.print floats).all p =
      v.all (fun _ => true) (fun text => text.all fun c => decide (c.val < 32) || p c)
        fun _ => true := by
  induction v using recMem with
  | null => exact all_of_isPrintable hp rfl
  | bool b => cases b <;> exact all_of_isPrintable hp rfl
  | int n => exact all_of_isPrintable hp (all_isPrintable_int n)
  | float x => exact all_of_isPrintable hp (all_isPrintable_float floats x)
  | string text => exact all_printString hp text
  | array items ih =>
    have hopen : p (ch '[') = true := hp _ (by decide)
    have hclose : p (ch ']') = true := hp _ (by decide)
    have hhead : (printItems floats items).head?.all isPrintable := by cases items <;> rfl
    rw [print, List.cons_append, List.all_cons, hopen, Bool.true_and, List.all_append, List.all_cons,
      hclose, List.all_nil, Bool.and_true, Bool.and_true, all_drop_one hp hhead, all_printItems hp,
      all_array]
    exact all_congr_mem ih
  | object members ih =>
    have hopen : p (ch '\x7b') = true := hp _ (by decide)
    have hclose : p (ch '\x7d') = true := hp _ (by decide)
    have hhead : (printMembers floats members).head?.all isPrintable := by cases members <;> rfl
    rw [print, List.cons_append, List.all_cons, hopen, Bool.true_and, List.all_append, List.all_cons,
      hclose, List.all_nil, Bool.and_true, Bool.and_true, all_drop_one hp hhead, all_printMembers hp,
      all_object, Bool.true_and]
    exact all_congr_mem fun m hm => by rw [all_printString hp, ih m hm]

end

/-! ## Encoding -/

theorem any_isSurrogate_print (v : Json F) :
    (v.print floats).any isSurrogate = !v.encodable := by
  have hprintable : ∀ c, isPrintable c → !c.isSurrogate := by
    intro c hc
    rw [isPrintable, Bool.and_eq_true, decide_eq_true_eq, decide_eq_true_eq] at hc
    rw [isSurrogate, Bool.not_and, decide_eq_false (by omega), Bool.not_false,
      Bool.true_or]
  have hstring : (fun text : Text => text.all fun c => decide (c.val < 32) || !c.isSurrogate) =
      fun text => !text.any isSurrogate := by
    funext text
    rw [List.not_any_eq_all_not]
    congr 1
    funext c
    rw [Bool.or_eq_right_iff_imp, decide_eq_true_eq, isSurrogate]
    intro hc
    rw [decide_eq_false (show ¬ 0xd800 ≤ c.val by omega)]
    rfl
  have hall : (v.print floats).all (fun c => !c.isSurrogate) = _ := all_print hprintable v
  rw [hstring, ← List.not_any_eq_all_not] at hall
  rw [encodable, ← hall, Bool.not_not]

theorem canonicalJson_eq_some {limits : Limits} {v : Json F} {bytes : Bytes} :
    v.canonicalJson floats limits = some bytes ↔
      (v.depth ≤ limits.depth ∧ v.fits limits ∧ v.encodable) ∧
        (v.canon.print floats).flatMap Utf8.encodeChar = bytes := by
  rw [canonicalJson, dumps]
  by_cases hlimits : v.depth ≤ limits.depth ∧ v.fits limits
  · rw [if_pos hlimits, Option.bind_some, encodeUtf8, any_isSurrogate_print, encodable_canon]
    cases v.encodable <;> simp [hlimits]
  · rw [if_neg hlimits, Option.bind_none]
    simp only [reduceCtorEq, false_iff]
    exact fun h => hlimits ⟨h.1.1, h.1.2.1⟩

theorem encodeChar_ne_zero {c : CodePoint} (h : 0 < c.val) : ∀ b ∈ Utf8.encodeChar c, b ≠ 0 := by
  rintro b hb rfl
  exact absurd (Utf8.le_of_mem_encodeChar (by decide) h 0 hb) (by decide)

theorem detectEncoding_of_ascii {a : UInt8} {bytes : Bytes} (ha : a.toNat < 0x80)
    (h : ∀ b ∈ a :: bytes, b ≠ 0) : detectEncoding (a :: bytes) = (.utf8, 0) := by
  have hmark {x : UInt8} {mark : Bytes} (hx : x = 0 ∨ 0x80 ≤ x.toNat) :
      ¬ (x :: mark).isPrefixOf (a :: bytes) := by
    rw [List.isPrefixOf_cons_cons, and_eq_true, beq_iff_eq]
    rintro ⟨rfl, -⟩
    exact hx.elim (h x List.mem_cons_self) (not_le.2 ha)
  unfold detectEncoding
  rw [if_neg (hmark (.inl rfl)), if_neg (hmark (.inr (by decide))),
    if_neg (hmark (.inr (by decide))), if_neg (hmark (.inr (by decide))),
    if_neg (hmark (.inr (by decide)))]
  rw [List.forall_mem_cons] at h
  -- two or four bytes are looked at, if there are as many
  rcases bytes with _ | ⟨b, _ | ⟨c, _ | ⟨d, bytes⟩⟩⟩
  · rfl
  · exact (if_neg h.1).trans (if_neg (h.2 b List.mem_cons_self))
  · rfl
  · exact (if_neg h.1).trans (if_neg (h.2 b List.mem_cons_self))

theorem decodeBytes_print (v : Json F) :
    decodeBytes ((v.print floats).flatMap Utf8.encodeChar) = some (v.print floats) := by
  have hpositive : ∀ c ∈ v.print floats, 0 < c.val := by
    have hall : (v.print floats).all (fun c => decide (0 < c.val)) = _ := all_print (fun c hc => by
      rw [isPrintable, and_eq_true, decide_eq_true_eq] at hc
      exact decide_eq_true (by omega)) v
    rw [all_of_forall (fun _ => rfl) (fun text => ?_) fun _ => rfl, List.all_eq_true] at hall
    · exact fun c hc => of_decide_eq_true (hall c hc)
    · rw [List.all_eq_true]
      intro c _
      rw [or_eq_true, decide_eq_true_eq, decide_eq_true_eq]
      omega
  obtain ⟨a, bytes, hbytes, ha⟩ : ∃ a bytes, (v.print floats).flatMap Utf8.encodeChar = a :: bytes ∧
      a.toNat < 0x80 := by
    obtain ⟨c, text, hprint, -, -, hc⟩ := Scan.exists_cons_print floats v
    refine ⟨UInt8.ofNat c.val, text.flatMap Utf8.encodeChar, ?_, ?_⟩
    · rw [hprint, List.flatMap_cons, Utf8.encodeChar, if_pos hc, List.singleton_append]
    · rw [UInt8.toNat_ofNat']
      omega
  have hnonzero : ∀ b ∈ a :: bytes, b ≠ 0 := by
    intro b hb
    rw [← hbytes, List.mem_flatMap] at hb
    obtain ⟨c, hc, hb⟩ := hb
    exact encodeChar_ne_zero (hpositive c hc) b hb
  rw [decodeBytes, hbytes, detectEncoding_of_ascii ha hnonzero]
  change decodeUtf8 (a :: bytes) = _
  rw [← hbytes, decodeUtf8_flatMap]

/-- The canonical bytes of a value are read as the value with sorted keys. -/
theorem loads_canonicalJson {limits limits' : Limits} {v : Json F} {bytes : Bytes}
    (h : v.canonicalJson floats limits = some bytes) (hdepth : v.depth ≤ limits'.depth)
    (hfits : v.fits limits') (hdistinct : v.distinct) :
    loads floats limits' bytes = .ok v.canon := by
  obtain ⟨-, rfl⟩ := canonicalJson_eq_some.1 h
  rw [loads, decodeBytes_print]
  exact loadsText_print ((depth_canon v).symm ▸ hdepth) ((fits_canon limits' v).symm ▸ hfits)
    ((distinct_canon v).symm ▸ hdistinct)

end Edr.Json
