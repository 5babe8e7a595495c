import Mathlib

/-!
# Text and its encodings

A text is a list of code points. As in Python, a surrogate may stand alone in it; such a text has no
encoding.

* `decodeUtf16`, `decodeUtf32`: in either byte order, and again with surrogates let pass.
-/

namespace Edr

open List UInt8

abbrev Bytes := List UInt8

abbrev CodePoint := Fin 0x110000

instance neZero_codePoints : NeZero 0x110000 := ⟨by decide⟩

abbrev Text := List CodePoint

namespace CodePoint

def ofChar (c : Char) : CodePoint :=
  ⟨c.toNat, by
    have h : c.toNat < 0xd800 ∨ (0xdfff < c.toNat ∧ c.toNat < 0x110000) := c.valid
    omega⟩

def isHigh (c : CodePoint) : Bool := 0xd800 ≤ c.val && c.val < 0xdc00

def isLow (c : CodePoint) : Bool := 0xdc00 ≤ c.val && c.val < 0xe000

def isSurrogate (c : CodePoint) : Bool := 0xd800 ≤ c.val && c.val < 0xe000

theorem isSurrogate_of_lt {c : CodePoint} (h : c.val < 0xd800) : c.isSurrogate = false := by
  rw [isSurrogate, decide_eq_false (show ¬ 0xd800 ≤ c.val by omega), Bool.false_and]

theorem isSurrogate_ofChar (c : Char) : (ofChar c).isSurrogate = false := by
  have h : c.toNat < 0xd800 ∨ (0xdfff < c.toNat ∧ c.toNat < 0x110000) := c.valid
  have hval : (ofChar c).val = c.toNat := rfl
  rw [isSurrogate, Bool.and_eq_false_iff, decide_eq_false_iff_not, decide_eq_false_iff_not, hval]
  omega

theorem ofChar_injective {c c' : Char} (h : ofChar c = ofChar c') : c = c' := by
  have hval : c.toNat = c'.toNat := congrArg (fun x : CodePoint => x.val) h
  exact Char.toNat_inj.1 hval

def join (high low : CodePoint) : CodePoint :=
  .ofNat 0x110000 (0x10000 + (high.val - 0xd800) * 0x400 + (low.val - 0xdc00))

end CodePoint

namespace Text

def ofString (s : String) : Text := s.toList.map CodePoint.ofChar

theorem any_isSurrogate_ofString (s : String) : (ofString s).any CodePoint.isSurrogate = false := by
  rw [any_eq_false]
  intro c hc
  obtain ⟨c, -, rfl⟩ := mem_map.1 hc
  rw [CodePoint.isSurrogate_ofChar]
  exact Bool.false_ne_true

theorem ofString_injective {s s' : String} (h : ofString s = ofString s') : s = s' :=
  String.toList_inj.1 (map_injective_iff.2 (fun _ _ => CodePoint.ofChar_injective) h)

end Text

/-! ## UTF-8 -/

namespace Utf8

def encodeChar (c : CodePoint) : Bytes :=
  if c.val < 0x80 then [UInt8.ofNat c.val]
  else if c.val < 0x800 then [UInt8.ofNat (0xc0 + c.val / 64), UInt8.ofNat (0x80 + c.val % 64)]
  else if c.val < 0x10000 then
    [UInt8.ofNat (0xe0 + c.val / 4096), UInt8.ofNat (0x80 + c.val / 64 % 64),
      UInt8.ofNat (0x80 + c.val % 64)]
  else
    [UInt8.ofNat (0xf0 + c.val / 262144), UInt8.ofNat (0x80 + c.val / 4096 % 64),
      UInt8.ofNat (0x80 + c.val / 64 % 64), UInt8.ofNat (0x80 + c.val % 64)]

theorem le_of_mem_encodeChar {c : CodePoint} {k : Nat} (hk : k ≤ 0x80) (h : k ≤ c.val) :
    ∀ b ∈ encodeChar c, k ≤ b.toNat := by
  have hbyte {n : Nat} (hn : n < 256) (hle : k ≤ n) : k ≤ (UInt8.ofNat n).toNat := by
    rwa [toNat_ofNat', Nat.mod_eq_of_lt hn]
  have hnil : ∀ b ∈ ([] : Bytes), k ≤ b.toNat := nofun
  unfold encodeChar
  split_ifs with h1 h2 h3 <;> simp only [forall_mem_cons]
  · exact ⟨hbyte (by omega) h, hnil⟩
  · exact ⟨hbyte (by omega) (by omega), hbyte (by omega) (by omega), hnil⟩
  · exact ⟨hbyte (by omega) (by omega), hbyte (by omega) (by omega), hbyte (by omega) (by omega),
      hnil⟩
  · exact ⟨hbyte (by omega) (by omega), hbyte (by omega) (by omega), hbyte (by omega) (by omega),
      hbyte (by omega) (by omega), hnil⟩

structure Pending where
  more : Nat
  value : Nat
  least : Nat

def lead (b : Nat) : Option Pending :=
  if 0xc0 ≤ b ∧ b < 0xe0 then some ⟨1, b - 0xc0, 0x80⟩
  else if 0xe0 ≤ b ∧ b < 0xf0 then some ⟨2, b - 0xe0, 0x800⟩
  else if 0xf0 ≤ b ∧ b < 0xf8 then some ⟨3, b - 0xf0, 0x10000⟩
  else none

def complete (value least : Nat) : Option CodePoint :=
  if h : least ≤ value ∧ value < 0x110000 then some ⟨value, h.2⟩ else none

def decodeFrom : Option Pending → Bytes → Option Text
  | none, [] => some []
  | some _, [] => none
  | none, b :: bytes =>
    if h : b.toNat < 0x80 then
      (decodeFrom none bytes).map (⟨b.toNat, Nat.lt_trans h (by decide)⟩ :: ·)
    else (lead b.toNat).bind fun pending => decodeFrom (some pending) bytes
  | some ⟨more, value, least⟩, b :: bytes =>
    if 0x80 ≤ b.toNat ∧ b.toNat < 0xc0 then
      let value := value * 64 + (b.toNat - 0x80)
      if more = 1 then
        (complete value least).bind fun c => (decodeFrom none bytes).map (c :: ·)
      else decodeFrom (some ⟨more - 1, value, least⟩) bytes
    else none

end Utf8

/-- `str.encode()`, or none where it raises. -/
def encodeUtf8 (text : Text) : Option Bytes :=
  if text.any CodePoint.isSurrogate then none else some (text.flatMap Utf8.encodeChar)

/-- `bytes.decode("utf-8", "surrogatepass")`, or none where it raises. -/
def decodeUtf8 (bytes : Bytes) : Option Text := Utf8.decodeFrom none bytes

namespace Utf8

variable {b : UInt8} {bytes : Bytes} {value least : Nat}

theorem decodeFrom_lead {pending : Pending} (h : ¬ b.toNat < 0x80)
    (hlead : lead b.toNat = some pending) :
    decodeFrom none (b :: bytes) = decodeFrom (some pending) bytes := by
  rw [decodeFrom, dif_neg h, hlead, Option.bind_some]

theorem decodeFrom_more {more : Nat} (h : 0x80 ≤ b.toNat ∧ b.toNat < 0xc0) :
    decodeFrom (some ⟨more + 2, value, least⟩) (b :: bytes) =
      decodeFrom (some ⟨more + 1, value * 64 + (b.toNat - 0x80), least⟩) bytes := by
  rw [decodeFrom, if_pos h, if_neg (by omega), Nat.add_sub_cancel_right (m := 1)]

theorem decodeFrom_last {c : CodePoint} (h : 0x80 ≤ b.toNat ∧ b.toNat < 0xc0)
    (hvalue : value * 64 + (b.toNat - 0x80) = c.val) (hleast : least ≤ c.val) :
    decodeFrom (some ⟨1, value, least⟩) (b :: bytes) = (decodeFrom none bytes).map (c :: ·) := by
  have hcomplete : complete c.val least = some c := dif_pos ⟨hleast, c.isLt⟩
  rw [decodeFrom, if_pos h, if_pos rfl, hvalue, hcomplete, Option.bind_some]

theorem toNat_tail (n : Nat) : (UInt8.ofNat (0x80 + n % 64)).toNat = 0x80 + n % 64 := by
  rw [toNat_ofNat']
  omega

theorem tail_bounds (n : Nat) :
    0x80 ≤ (UInt8.ofNat (0x80 + n % 64)).toNat ∧ (UInt8.ofNat (0x80 + n % 64)).toNat < 0xc0 := by
  rw [toNat_tail]
  omega

theorem decodeFrom_encodeChar (c : CodePoint) (bytes : Bytes) :
    decodeFrom none (encodeChar c ++ bytes) = (decodeFrom none bytes).map (c :: ·) := by
  unfold encodeChar
  split_ifs with h1 h2 h3
  · have hb : (UInt8.ofNat c.val).toNat = c.val := by
      rw [toNat_ofNat']
      omega
    have hlt : (UInt8.ofNat c.val).toNat < 0x80 := lt_of_eq_of_lt hb h1
    rw [singleton_append, decodeFrom, dif_pos hlt]
    congr 2
    exact funext fun l => congrArg (· :: l) (Fin.ext hb)
  · have hb : (UInt8.ofNat (0xc0 + c.val / 64)).toNat = 0xc0 + c.val / 64 := by
      rw [toNat_ofNat']
      omega
    have hlead : lead (UInt8.ofNat (0xc0 + c.val / 64)).toNat = some ⟨1, c.val / 64, 0x80⟩ := by
      rw [hb, lead, if_pos (by omega), Nat.add_sub_cancel_left]
    rw [cons_append, decodeFrom_lead (by omega) hlead, singleton_append,
      decodeFrom_last (c := c) (tail_bounds _) ?_ (by omega)]
    rw [toNat_tail]
    omega
  · have hb : (UInt8.ofNat (0xe0 + c.val / 4096)).toNat = 0xe0 + c.val / 4096 := by
      rw [toNat_ofNat']
      omega
    have hlead : lead (UInt8.ofNat (0xe0 + c.val / 4096)).toNat =
        some ⟨2, c.val / 4096, 0x800⟩ := by
      rw [hb, lead, if_neg (by omega), if_pos (by omega), Nat.add_sub_cancel_left]
    rw [cons_append, decodeFrom_lead (by omega) hlead, cons_append,
      decodeFrom_more (tail_bounds _), singleton_append, decodeFrom_last (c := c)
      (tail_bounds _) ?_ (by omega)]
    rw [toNat_tail, toNat_tail]
    omega
  · have hb : (UInt8.ofNat (0xf0 + c.val / 262144)).toNat = 0xf0 + c.val / 262144 := by
      rw [toNat_ofNat']
      omega
    have hlead : lead (UInt8.ofNat (0xf0 + c.val / 262144)).toNat =
        some ⟨3, c.val / 262144, 0x10000⟩ := by
      rw [hb, lead, if_neg (by omega), if_neg (by omega), if_pos (by omega),
        Nat.add_sub_cancel_left]
    rw [cons_append, decodeFrom_lead (by omega) hlead, cons_append,
      decodeFrom_more (tail_bounds _), cons_append, decodeFrom_more (tail_bounds _),
      singleton_append, decodeFrom_last (c := c) (tail_bounds _) ?_ (by omega)]
    rw [toNat_tail, toNat_tail, toNat_tail]
    omega

end Utf8

theorem decodeUtf8_flatMap (text : Text) :
    decodeUtf8 (text.flatMap Utf8.encodeChar) = some text := by
  rw [decodeUtf8]
  induction text with
  | nil => rfl
  | cons c text ih => rw [flatMap_cons, Utf8.decodeFrom_encodeChar, ih, Option.map_some]

/-! ## UTF-16 and UTF-32 -/

def units16 (bigEndian : Bool) : Bytes → Option (List CodePoint)
  | [] => some []
  | [_] => none
  | a :: b :: bytes =>
    let value := if bigEndian then a.toNat * 256 + b.toNat else b.toNat * 256 + a.toNat
    (units16 bigEndian bytes).map (.ofNat 0x110000 value :: ·)

def joinPairs : List CodePoint → Text
  | high :: low :: units =>
    if high.isHigh && low.isLow then CodePoint.join high low :: joinPairs units
    else high :: joinPairs (low :: units)
  | units => units

def decodeUtf16 (bigEndian : Bool) (bytes : Bytes) : Option Text :=
  (units16 bigEndian bytes).map joinPairs

def decodeUtf32 (bigEndian : Bool) : Bytes → Option Text
  | [] => some []
  | a :: b :: c :: d :: bytes =>
    let value := if bigEndian then
        ((a.toNat * 256 + b.toNat) * 256 + c.toNat) * 256 + d.toNat
      else ((d.toNat * 256 + c.toNat) * 256 + b.toNat) * 256 + a.toNat
    if h : value < 0x110000 then (decodeUtf32 bigEndian bytes).map (⟨value, h⟩ :: ·) else none
  | _ => none

end Edr
