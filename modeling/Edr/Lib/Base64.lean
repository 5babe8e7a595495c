import Edr.Lib.Text

/-!
# Base64

Three bytes are written with four symbols, and what is left at the end with padding.
-/

namespace Edr.Base64

open CodePoint

def symbol (n : Nat) : CodePoint :=
  if n < 26 then Fin.ofNat _ (65 + n)
  else if n < 52 then Fin.ofNat _ (71 + n)
  else if n < 62 then Fin.ofNat _ (n - 4)
  else if n = 62 then ofChar '+'
  else ofChar '/'

def sextet (c : CodePoint) : Option Nat :=
  if 65 ≤ c.val ∧ c.val ≤ 90 then some (c.val - 65)
  else if 97 ≤ c.val ∧ c.val ≤ 122 then some (c.val - 71)
  else if 48 ≤ c.val ∧ c.val ≤ 57 then some (c.val + 4)
  else if c = ofChar '+' then some 62
  else if c = ofChar '/' then some 63
  else none

def padding : CodePoint := ofChar '='

def encode : Bytes → Text
  | [] => []
  | [a] => [symbol (a.toNat / 4), symbol (a.toNat % 4 * 16), padding, padding]
  | [a, b] =>
    [symbol (a.toNat / 4), symbol (a.toNat % 4 * 16 + b.toNat / 16), symbol (b.toNat % 16 * 4),
      padding]
  | a :: b :: c :: bytes =>
    symbol (a.toNat / 4) :: symbol (a.toNat % 4 * 16 + b.toNat / 16) ::
      symbol (b.toNat % 16 * 4 + c.toNat / 64) :: symbol (c.toNat % 64) :: encode bytes

def decode : Text → Option Bytes
  | [] => some []
  | x :: y :: z :: w :: text =>
    match sextet x, sextet y, sextet z, sextet w with
    | some a, some b, some c, some d =>
      (decode text).map fun bytes =>
        .ofNat (a * 4 + b / 16) :: UInt8.ofNat (b % 16 * 16 + c / 4) ::
          .ofNat (c % 4 * 64 + d) :: bytes
    | some a, some b, some c, none =>
      if w = padding ∧ text = [] then
        some [UInt8.ofNat (a * 4 + b / 16), UInt8.ofNat (b % 16 * 16 + c / 4)]
      else none
    | some a, some b, none, none =>
      if z = padding ∧ w = padding ∧ text = [] then some [UInt8.ofNat (a * 4 + b / 16)] else none
    | _, _, _, _ => none
  | _ => none

theorem sextet_symbol {n : Nat} (h : n < 64) : sextet (symbol n) = some n := by
  have hall : ∀ n : Fin 64, sextet (symbol n.val) = some n.val := by decide
  exact hall ⟨n, h⟩

theorem sextet_padding : sextet padding = none := by decide

theorem ofNat_eq {a : UInt8} {n : Nat} (h : n = a.toNat) : UInt8.ofNat n = a := by
  rw [h, UInt8.ofNat_toNat]

/-- The bytes can be read back. -/
theorem decode_encode (bytes : Bytes) : decode (encode bytes) = some bytes := by
  induction bytes using encode.induct with
  | case1 => rfl
  | case2 a =>
    have ha := a.toNat_lt
    simp only [encode, decode, sextet_padding]
    rw [sextet_symbol (by omega), sextet_symbol (by omega)]
    simp only [and_self, if_true]
    rw [ofNat_eq (a := a) (by omega)]
  | case3 a b =>
    have ha := a.toNat_lt
    have hb := b.toNat_lt
    simp only [encode, decode, sextet_padding]
    rw [sextet_symbol (by omega), sextet_symbol (by omega), sextet_symbol (by omega)]
    simp only [and_self, if_true]
    rw [ofNat_eq (a := a) (by omega), ofNat_eq (a := b) (by omega)]
  | case4 a b c bytes ih =>
    have ha := a.toNat_lt
    have hb := b.toNat_lt
    have hc := c.toNat_lt
    simp only [encode, decode]
    rw [sextet_symbol (by omega), sextet_symbol (by omega), sextet_symbol (by omega),
      sextet_symbol (by omega)]
    simp only [ih, Option.map_some]
    rw [ofNat_eq (a := a) (by omega), ofNat_eq (a := b) (by omega), ofNat_eq (a := c) (by omega)]

theorem isSurrogate_symbol (n : Nat) : (symbol n).isSurrogate = false := by
  rw [symbol]
  split_ifs
  · exact isSurrogate_of_lt (by rw [Fin.val_ofNat]; omega)
  · exact isSurrogate_of_lt (by rw [Fin.val_ofNat]; omega)
  · exact isSurrogate_of_lt (by rw [Fin.val_ofNat]; omega)
  · exact isSurrogate_ofChar _
  · exact isSurrogate_ofChar _

theorem any_isSurrogate_encode (bytes : Bytes) :
    (encode bytes).any isSurrogate = false := by
  have hpadding : padding.isSurrogate = false := isSurrogate_ofChar _
  induction bytes using encode.induct with
  | case1 => rfl
  | case2 | case3 => simp only [encode, List.any_cons, isSurrogate_symbol, hpadding]; rfl
  | case4 a b c bytes ih => simp only [encode, List.any_cons, isSurrogate_symbol, ih]; rfl

end Edr.Base64
