import Edr.Lib.Text

/-!
# JSON values and their texts

Values as Python has them: an integer is not a float, a float may be infinite or not a number, and the
members of an object are in the order in which they were put in. What a float is, is left open
(`Floats`); its text is a number as JSON writes it.
-/

namespace Edr

open List Text CodePoint

abbrev ch (c : Char) : CodePoint := ofChar c

/-! ## Numbers -/

abbrev Digit := Fin 10

instance neZero_ten : NeZero 10 := ⟨by decide⟩

def Digit.print (d : Digit) : CodePoint := ⟨48 + d.val, by omega⟩

def ofDigits (digits : List Digit) : Nat := digits.foldl (fun n d => 10 * n + d.val) 0

/-- The digits of a number, with at most `fuel` of them. -/
def digitsAux : Nat → Nat → List Digit
  | 0, n => [Fin.ofNat 10 n]
  | fuel + 1, n =>
    if n < 10 then [Fin.ofNat 10 n] else digitsAux fuel (n / 10) ++ [Fin.ofNat 10 n]

def digitsOf (n : Nat) : List Digit := digitsAux n n

structure NumberToken where
  negative : Bool
  whole : List Digit
  fraction : Option (List Digit)
  exponent : Option (Option Bool × List Digit)

namespace NumberToken

def wholeOk (token : NumberToken) : Bool :=
  match token.whole with
  | [] => false
  | [_] => true
  | d :: _ => d ≠ 0

def isFloat (token : NumberToken) : Bool :=
  token.wholeOk && (token.fraction.isSome || token.exponent.isSome) &&
    token.fraction.all (fun digits => !digits.isEmpty) &&
    token.exponent.all fun exponent => !exponent.2.isEmpty

def printSign : Option Bool → Text
  | none => []
  | some true => [ch '-']
  | some false => [ch '+']

def printFraction : Option (List Digit) → Text
  | some digits => ch '.' :: digits.map Digit.print
  | none => []

def printExponent : Option (Option Bool × List Digit) → Text
  | some (sign, digits) => ch 'e' :: printSign sign ++ digits.map Digit.print
  | none => []

def print (token : NumberToken) : Text :=
  (if token.negative then [ch '-'] else []) ++ token.whole.map Digit.print ++
    printFraction token.fraction ++ printExponent token.exponent

end NumberToken

/-- The floats, among them those that are written with the words `NaN` and `Infinity`. -/
inductive JsonFloat (F : Type) where
  | nan
  | infinity (negative : Bool)
  | finite (x : F)

/-- What is known of the floats: each has a text, which is read as that float. -/
structure Floats (F : Type) where
  /-- `float(..)` of a number. -/
  ofToken : NumberToken → JsonFloat F
  /-- `float.__repr__`. -/
  repr : F → NumberToken
  isFloat_repr : ∀ x, (repr x).isFloat
  ofToken_repr : ∀ x, ofToken (repr x) = .finite x

/-! ## Values -/

inductive Json (F : Type) where
  | null
  | bool (b : Bool)
  | int (n : Int)
  | float (x : JsonFloat F)
  | string (text : Text)
  | array (items : List (Json F))
  | object (members : List (Text × Json F))

structure Limits where
  depth : Nat
  digits : Nat

namespace Json

variable {F : Type}

/-- Induction over a value, where what is in an array or an object is a member of a list. -/
@[elab_as_elim]
theorem recMem {motive : Json F → Prop} (null : motive .null) (bool : ∀ b, motive (.bool b))
    (int : ∀ n, motive (.int n)) (float : ∀ x, motive (.float x))
    (string : ∀ text, motive (.string text))
    (array : ∀ items, (∀ v ∈ items, motive v) → motive (.array items))
    (object : ∀ members, (∀ m ∈ members, motive m.2) → motive (.object members))
    (v : Json F) : motive v :=
  @Json.rec F motive (fun items => ∀ v ∈ items, motive v)
    (fun members => ∀ m ∈ members, motive m.2) (fun m => motive m.2)
    null bool int float string array object
    nofun
    (fun _ _ hv hitems => forall_mem_cons.2 ⟨hv, hitems⟩)
    nofun
    (fun _ _ hm hmembers => forall_mem_cons.2 ⟨hm, hmembers⟩)
    (fun _ _ hv => hv) v

/-! ## What limits a value -/

mutual

def depth : Json F → Nat
  | .array items => depthItems items + 1
  | .object members => depthMembers members + 1
  | .null | .bool _ | .int _ | .float _ | .string _ => 0

def depthItems : List (Json F) → Nat
  | [] => 0
  | v :: items => max v.depth (depthItems items)

def depthMembers : List (Text × Json F) → Nat
  | [] => 0
  | (_, v) :: members => max v.depth (depthMembers members)

end

mutual

def all (int : Int → Bool) (string : Text → Bool) (keys : List Text → Bool) : Json F → Bool
  | .int n => int n
  | .string text => string text
  | .array items => allItems int string keys items
  | .object members => keys (members.map (·.1)) && allMembers int string keys members
  | .null | .bool _ | .float _ => true

def allItems (int : Int → Bool) (string : Text → Bool) (keys : List Text → Bool) :
    List (Json F) → Bool
  | [] => true
  | v :: items => v.all int string keys && allItems int string keys items

def allMembers (int : Int → Bool) (string : Text → Bool) (keys : List Text → Bool) :
    List (Text × Json F) → Bool
  | [] => true
  | (key, v) :: members =>
    (string key && v.all int string keys) && allMembers int string keys members

end

def fits (limits : Limits) (v : Json F) : Bool :=
  v.all (fun n => (digitsOf n.natAbs).length ≤ limits.digits) (fun _ => true) fun _ => true

def encodable (v : Json F) : Bool :=
  v.all (fun _ => true) (fun text => !text.any isSurrogate) fun _ => true

def distinct (v : Json F) : Bool :=
  v.all (fun _ => true) (fun _ => true) fun keys => decide keys.Nodup

/-! ## Texts -/

def hexDigit (n : Nat) : CodePoint :=
  if n < 10 then Fin.ofNat _ (48 + n) else Fin.ofNat _ (87 + n)

def escape (c : CodePoint) : Text :=
  if c = ch '"' then [ch '\\', ch '"']
  else if c = ch '\\' then [ch '\\', ch '\\']
  else if c = ch '\n' then [ch '\\', ch 'n']
  else if c = ch '\r' then [ch '\\', ch 'r']
  else if c = ch '\t' then [ch '\\', ch 't']
  else if c.val = 8 then [ch '\\', ch 'b']
  else if c.val = 12 then [ch '\\', ch 'f']
  else if c.val < 32 then
    [ch '\\', ch 'u', ch '0', ch '0', hexDigit (c.val / 16), hexDigit (c.val % 16)]
  else [c]

def printString (text : Text) : Text := ch '"' :: text.flatMap escape ++ [ch '"']

def printInt (n : Int) : Text :=
  (if n < 0 then [ch '-'] else []) ++ (digitsOf n.natAbs).map Digit.print

def printFloat (floats : Floats F) : JsonFloat F → Text
  | .nan => ofString "NaN"
  | .infinity false => ofString "Infinity"
  | .infinity true => ofString "-Infinity"
  | .finite x => (floats.repr x).print

mutual

def print (floats : Floats F) : Json F → Text
  | .null => ofString "null"
  | .bool true => ofString "true"
  | .bool false => ofString "false"
  | .int n => printInt n
  | .float x => printFloat floats x
  | .string text => printString text
  | .array items => ch '[' :: (printItems floats items).drop 1 ++ [ch ']']
  | .object members => ch '\x7b' :: (printMembers floats members).drop 1 ++ [ch '\x7d']

def printItems (floats : Floats F) : List (Json F) → Text
  | [] => []
  | v :: items => ch ',' :: v.print floats ++ printItems floats items

def printMembers (floats : Floats F) : List (Text × Json F) → Text
  | [] => []
  | (key, v) :: members =>
    ch ',' :: printString key ++ ch ':' :: v.print floats ++ printMembers floats members

end

def sortMembers (members : List (Text × Json F)) : List (Text × Json F) :=
  members.insertionSort fun m m' => m.1 ≤ m'.1

mutual

def canon : Json F → Json F
  | .array items => .array (canonItems items)
  | .object members => .object (sortMembers (canonMembers members))
  | .null => .null
  | .bool b => .bool b
  | .int n => .int n
  | .float x => .float x
  | .string text => .string text

def canonItems : List (Json F) → List (Json F)
  | [] => []
  | v :: items => v.canon :: canonItems items

def canonMembers : List (Text × Json F) → List (Text × Json F)
  | [] => []
  | (key, v) :: members => (key, v.canon) :: canonMembers members

end

/-- `json.dumps(.., sort_keys=True, ensure_ascii=False, separators=(",", ":"))`, or none where it
    raises. -/
def dumps (floats : Floats F) (limits : Limits) (v : Json F) : Option Text :=
  if v.depth ≤ limits.depth ∧ v.fits limits then some (v.canon.print floats) else none

def canonicalJson (floats : Floats F) (limits : Limits) (v : Json F) : Option Bytes :=
  (v.dumps floats limits).bind encodeUtf8

/-! ## Values as lists -/

section

variable {p : Int → Bool} {q : Text → Bool} {r : List Text → Bool} {items : List (Json F)}
  {members : List (Text × Json F)}

theorem depthItems_le {n : Nat} : depthItems items ≤ n ↔ ∀ v ∈ items, v.depth ≤ n := by
  induction items with
  | nil => simp [depthItems]
  | cons v items ih => rw [depthItems, Nat.max_le, ih, forall_mem_cons]

theorem depthMembers_le {n : Nat} : depthMembers members ≤ n ↔ ∀ m ∈ members, m.2.depth ≤ n := by
  induction members with
  | nil => simp [depthMembers]
  | cons m members ih => rw [depthMembers, Nat.max_le, ih, forall_mem_cons]

theorem all_array : (array items).all p q r = items.all (all p q r) := by
  rw [all]
  induction items with
  | nil => rfl
  | cons v items ih => rw [allItems, ih, all_cons]

theorem all_object : (object members).all p q r =
    (r (members.map (·.1)) && members.all fun m => q m.1 && m.2.all p q r) := by
  rw [all]
  congr 1
  induction members with
  | nil => rfl
  | cons m members ih => rw [allMembers, ih, all_cons]

theorem canonItems_eq : canonItems items = items.map canon := by
  induction items with
  | nil => rfl
  | cons v items ih => rw [canonItems, ih, map_cons]

theorem canonMembers_eq : canonMembers members = members.map fun m => (m.1, m.2.canon) := by
  induction members with
  | nil => rfl
  | cons m members ih => rw [canonMembers, ih, map_cons]

theorem canon_array : (array items).canon = array (items.map canon) := by
  rw [canon, canonItems_eq]

theorem canon_object :
    (object members).canon = object (sortMembers (members.map fun m => (m.1, m.2.canon))) := by
  rw [canon, canonMembers_eq]

theorem sortMembers_perm (members : List (Text × Json F)) : (sortMembers members).Perm members :=
  perm_insertionSort _ _

end

theorem all_congr_mem {α : Type} {f g : α → Bool} {l : List α} (h : ∀ x ∈ l, f x = g x) :
    l.all f = l.all g := by
  rw [Bool.eq_iff_iff, all_eq_true, all_eq_true]
  exact forall₂_congr fun x hx => by rw [h x hx]

theorem all_of_forall {p : Int → Bool} {q : Text → Bool} {r : List Text → Bool} (hp : ∀ n, p n)
    (hq : ∀ text, q text) (hr : ∀ keys, r keys) (v : Json F) : v.all p q r := by
  induction v using recMem with
  | null | bool | float => rfl
  | int n => exact hp n
  | string text => exact hq text
  | array items ih => rwa [all_array, all_eq_true]
  | object members ih =>
    rw [all_object, hr, Bool.true_and, all_eq_true]
    exact fun m hm => Bool.and_eq_true_iff.2 ⟨hq m.1, ih m hm⟩

theorem depth_canon (v : Json F) : v.canon.depth = v.depth := by
  induction v using recMem with
  | null | bool | int | float | string => rfl
  | array items ih =>
    have hle {n : Nat} : depthItems (items.map canon) ≤ n ↔ depthItems items ≤ n := by
      simp only [depthItems_le, forall_mem_map]
      exact forall₂_congr fun v hv => by rw [ih v hv]
    rw [canon_array, depth, depth, Nat.le_antisymm (hle.2 Nat.le.refl) (hle.1 Nat.le.refl)]
  | object members ih =>
    have hle {n : Nat} : depthMembers (sortMembers (members.map fun m => (m.1, m.2.canon))) ≤ n ↔
        depthMembers members ≤ n := by
      simp only [depthMembers_le, (sortMembers_perm _).mem_iff, forall_mem_map]
      exact forall₂_congr fun m hm => by rw [ih m hm]
    rw [canon_object, depth, depth, Nat.le_antisymm (hle.2 Nat.le.refl) (hle.1 Nat.le.refl)]

theorem all_canon {p : Int → Bool} {q : Text → Bool} {r : List Text → Bool}
    (hr : ∀ keys keys' : List Text, keys.Perm keys' → r keys = r keys') (v : Json F) :
    v.canon.all p q r = v.all p q r := by
  induction v using recMem with
  | null | bool | int | float | string => rfl
  | array items ih =>
    rw [canon_array, all_array, all_array, all_map]
    exact all_congr_mem ih
  | object members ih =>
    have hkeys : ((sortMembers (members.map fun m => (m.1, m.2.canon))).map (·.1)).Perm
        (members.map (·.1)) := by
      have := (sortMembers_perm (members.map fun m => (m.1, m.2.canon))).map (·.1)
      rwa [map_map] at this
    rw [canon_object, all_object, all_object, hr _ _ hkeys, (sortMembers_perm _).all_eq,
      all_map]
    congr 1
    exact all_congr_mem fun m hm => by rw [Function.comp_apply, ih m hm]

theorem fits_canon (limits : Limits) (v : Json F) : v.canon.fits limits = v.fits limits :=
  all_canon (fun _ _ _ => rfl) v

theorem encodable_canon (v : Json F) : v.canon.encodable = v.encodable :=
  all_canon (fun _ _ _ => rfl) v

theorem distinct_canon (v : Json F) : v.canon.distinct = v.distinct :=
  all_canon (fun _ _ h => decide_eq_decide.2 h.nodup_iff) v

end Json

end Edr
