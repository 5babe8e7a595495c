import Edr.Lib.Text

/-!
# Reading bytes at a cursor

Reads of a byte string by index, where a read outside of it is an error of its own. What is read at a
cursor is known from what comes after it: `data.drop cursor`. The rules for it (`byteAt_of_drop`,
`u16_of_drop`, `slice_of_drop`) also move the cursor on, so that an encoding is read in the order in
which it was written.
-/

namespace Edr

open List

/-- How a program may end that reads where it must not. -/
inductive Trap
  | outOfRange
  deriving DecidableEq

namespace Cursor

/-- The byte at an index. -/
def byteAt (data : Bytes) (i : Nat) : Except Trap UInt8 :=
  match data[i]? with
  | some b => .ok b
  | none => .error .outOfRange

/-- The number in two bytes, or none where there are none. -/
def u16 (data : Bytes) (i : Nat) : Except Trap (Option Nat) :=
  if i + 1 < data.length then do
    return some ((← byteAt data i).toNat * 256 + (← byteAt data (i + 1)).toNat)
  else return none

/-- `n` bytes from an index on. -/
def slice (data : Bytes) (i n : Nat) : Except Trap Bytes :=
  if i + n ≤ data.length then .ok ((data.drop i).take n) else .error .outOfRange

/-- All bytes from an index on. -/
def suffix (data : Bytes) (i : Nat) : Except Trap Bytes :=
  if i ≤ data.length then .ok (data.drop i) else .error .outOfRange

/-- A number in two bytes, the high one first. -/
def encode16 (n : Nat) : Bytes := [(n / 256).toUInt8, n.toUInt8]

/-- The program ends without a read outside of the data, with a result of which `P` is true. -/
def Yields {α : Type} (x : Except Trap α) (P : α → Prop) : Prop := ∃ a, x = .ok a ∧ P a

section

variable {data rest s : Bytes} {i n : Nat} {b : UInt8} {α β : Type}

@[simp]
theorem ok_bind (a : α) (f : α → Except Trap β) : (.ok a >>= f) = f a := rfl

theorem drop_add (h : data.drop i = s ++ rest) : data.drop (i + s.length) = rest := by
  rw [← drop_drop, h, drop_left]

theorem length_of_drop (h : data.drop i = s) (hs : s ≠ []) : data.length = i + s.length := by
  have hlength := congrArg length h
  have hpos := length_pos_iff.2 hs
  rw [length_drop] at hlength
  omega

theorem byteAt_of_drop (h : data.drop i = b :: rest) :
    byteAt data i = .ok b ∧ data.drop (i + 1) = rest := by
  have hget : data[i]? = some b := by rw [← head?_drop, h, head?_cons]
  exact ⟨by rw [byteAt, hget], drop_add (s := [b]) h⟩

theorem u16_of_drop (hn : n < 65536) (h : data.drop i = encode16 n ++ rest) :
    u16 data i = .ok (some n) ∧ data.drop (i + 2) = rest := by
  have hlength := length_of_drop h (by simp [encode16])
  have h : data.drop i = (n / 256).toUInt8 :: n.toUInt8 :: rest := h
  obtain ⟨hhigh, htail⟩ := byteAt_of_drop h
  obtain ⟨hlow, htail⟩ := byteAt_of_drop htail
  refine ⟨?_, htail⟩
  rw [u16, if_pos (by simp [encode16] at hlength; omega), hhigh, hlow]
  have hvalue : (n / 256).toUInt8.toNat * 256 + n.toUInt8.toNat = n := by
    simp [Nat.toUInt8]
    omega
  exact congrArg (fun n => Except.ok (some n)) hvalue

theorem slice_of_drop (h : data.drop i = s ++ rest) (hrest : i ≤ data.length) :
    slice data i s.length = .ok s ∧ data.drop (i + s.length) = rest := by
  have hlength := congrArg length h
  rw [length_drop, length_append] at hlength
  exact ⟨by rw [slice, if_pos (by omega), h, take_left], drop_add h⟩

variable {P : α → Prop} {Q : β → Prop}

theorem Yields.pure {a : α} (h : P a) : Yields (pure a) P := ⟨a, rfl, h⟩

theorem Yields.bind {x : Except Trap α} {f : α → Except Trap β} (hx : Yields x P)
    (hf : ∀ a, P a → Yields (f a) Q) : Yields (x >>= f) Q := by
  obtain ⟨a, rfl, ha⟩ := hx
  exact hf a ha

theorem Yields.ite {c : Prop} [Decidable c] {x y : Except Trap α} (hx : c → Yields x P)
    (hy : ¬c → Yields y P) : Yields (if c then x else y) P := by
  split_ifs with h
  · exact hx h
  · exact hy h

theorem yields_byteAt (h : i < data.length) : Yields (byteAt data i) fun _ => True :=
  ⟨data[i], by rw [byteAt, getElem?_eq_getElem h], trivial⟩

theorem yields_u16 : Yields (u16 data i) fun r => r.isSome → i + 1 < data.length := by
  unfold u16
  split_ifs with h
  · exact (yields_byteAt (by omega)).bind fun _ _ => (yields_byteAt h).bind fun _ _ =>
      .pure fun _ => h
  · exact .pure nofun

theorem suffix_eq (h : i ≤ data.length) : suffix data i = .ok (data.drop i) := if_pos h

theorem yields_slice (h : i + n ≤ data.length) : Yields (slice data i n) fun _ => True :=
  ⟨_, if_pos h, trivial⟩

end

end Cursor

end Edr
