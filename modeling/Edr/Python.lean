import Edr.Event
import Edr.Lib.Json.Order
import Edr.Lib.Json.Scan

/-!
# The interpreter

The workers take the values that `json.loads` gives them as they are, and leave it to `str`, `int`,
`UUID` and the truth of a value to tell what they are. `Interpreter` has the functions of the
standard library that they call, as far as they are not defined here, with what is known of them;
`floats` and `limits` are those of its JSON values.
-/

namespace Edr

open Text

/-- The exceptions of the standard library that the code tells apart. Those of a text that cannot
    be decoded or encoded are `ValueError`s. -/
inductive PyError
  | keyError
  | typeError
  | valueError
  | attributeError
  | overflowError
  | recursionError
  /-- What the client of ClickHouse raises for a value that is out of the range of its column. -/
  | dataError
  /-- What `gzip.decompress` raises. -/
  | badGzip
  deriving DecidableEq, Repr

structure Interpreter (F : Type) where
  floats : Floats F
  limits : Limits
  isZero : F → Bool
  /-- `int(x)` of a finite float. -/
  truncate : F → Int
  /-- `repr(value)`. -/
  repr : Json F → Text
  /-- `int(text)`, or none where it is a `ValueError`. -/
  parseInt : Text → Option Int
  /-- `UUID(text)`, or none where it is a `ValueError`. -/
  parseUuid : Text → Option UUID
  /-- `parse_timestamp(text)`, or none where it is a `ValueError`. -/
  parseTimestamp : Text → Option Time
  /-- `isoformat(timespec="milliseconds")` in UTC, with a `Z` at its end. -/
  isoFormat : Time → Text
  sha256 : Bytes → String
  /-- `uuid5(NAMESPACE_URL, name)`. -/
  uuid5 : Text → UUID
  /-- `gzip.compress(.., compresslevel=9, mtime=0)`. -/
  gzip : Bytes → Bytes
  gunzip : Bytes → Option Bytes
  gunzip_gzip : ∀ bytes, gunzip (gzip bytes) = some bytes
  two_le_depth : 2 ≤ limits.depth
  nineteen_le_digits : 19 ≤ limits.digits

namespace Interpreter

variable {F : Type} (py : Interpreter F)

/-- `str(value)`. -/
def str : Json F → Text
  | .string text => text
  | v => py.repr v

/-- `int(value)`. -/
def int : Json F → Except PyError Int
  | .null => .error .typeError
  | .bool b => .ok b.toNat
  | .int n => .ok n
  | .float .nan => .error .valueError
  | .float (.infinity _) => .error .overflowError
  | .float (.finite x) => .ok (py.truncate x)
  | .string text =>
    match py.parseInt text with
    | some n => .ok n
    | none => .error .valueError
  | .array _ => .error .typeError
  | .object _ => .error .typeError

/-- `UUID(value)`: what is not a string has no `replace`. -/
def uuid : Json F → Except PyError UUID
  | .string text =>
    match py.parseUuid text with
    | some id => .ok id
    | none => .error .valueError
  | .null => .error .typeError
  | .bool _ | .int _ | .float _ | .array _ | .object _ => .error .attributeError

/-- `bool(value)`. -/
def truthy : Json F → Bool
  | .null => false
  | .bool b => b
  | .int n => n ≠ 0
  | .float (.finite x) => !py.isZero x
  | .float _ => true
  | .string text => !text.isEmpty
  | .array items => !items.isEmpty
  | .object members => !members.isEmpty

/-- `a or b`. -/
def either (a b : Json F) : Json F := if py.truthy a then a else b

def loads (bytes : Bytes) : Except LoadsError (Json F) := Json.loads py.floats py.limits bytes

/-- `json.dumps(value, sort_keys=True, ensure_ascii=False, separators=(",", ":")).encode()`. -/
def canonicalJson (v : Json F) : Except PyError Bytes :=
  match v.canonicalJson py.floats py.limits with
  | some bytes => .ok bytes
  | none => .error (if py.limits.depth < v.depth then .recursionError else .valueError)

end Interpreter

/-- `value.get(key)` of a dictionary: there is no `null` that is told from a missing member. -/
def Json.get {F : Type} (v : Json F) (key : String) : Json F :=
  (v.get? (ofString key)).getD .null

/-- `value[key]`. -/
def Json.subscript {F : Type} (v : Json F) (key : String) : Except PyError (Json F) :=
  match v with
  | .object members =>
    match (Json.object members).get? (ofString key) with
    | some w => .ok w
    | none => .error .keyError
  | .null | .bool _ | .int _ | .float _ | .string _ | .array _ => .error .typeError

def Json.ofString {F : Type} (s : String) : Json F := .string (.ofString s)

def hexDigits (width n : Nat) : List Char :=
  (List.range width).reverse.map fun i => Nat.digitChar (n / 16 ^ i % 16)

/-- `str(id)`: the digits of an id in groups. -/
def uuidText (id : UUID) : String :=
  let digits := hexDigits 32 id
  .ofList (digits.take 8 ++ '-' :: (digits.drop 8).take 4 ++ '-' :: (digits.drop 12).take 4 ++
    '-' :: (digits.drop 16).take 4 ++ '-' :: digits.drop 20)

end Edr
