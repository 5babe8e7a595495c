import Edr.Lib.Json

/-!
# Reading JSON

`json.loads` as a machine that goes through the text one character at a time. It has the arrays and
objects that are open on a stack, and raises at the first character that rules the text out. The
errors are kept apart, since a caller may handle a text that is not JSON (`LoadsError.jsonDecode`) and
not expect the others: an integer that is too long, and too many arrays and objects within each other.
-/

namespace Edr

open Text

inductive LoadsError
  /-- `UnicodeDecodeError`. -/
  | unicodeDecode
  /-- `json.JSONDecodeError`. -/
  | jsonDecode
  /-- `ValueError`: `Exceeds the limit for integer string conversion`. -/
  | intTooLong
  /-- `RecursionError`. -/
  | recursion

/-! ## Strings -/

inductive Escape
  | none
  | backslash
  /-- After `\u`, with fewer than four digits. -/
  | unicode (digits : List (Fin 16))
  deriving DecidableEq

structure StringScan where
  text : Text
  /-- The text ends in the first of a pair, written with `\u`. -/
  high : Bool
  escape : Escape

def unescape (c : CodePoint) : Option CodePoint :=
  if c = ch '"' then some (ch '"')
  else if c = ch '\\' then some (ch '\\')
  else if c = ch '/' then some (ch '/')
  else if c = ch 'b' then some 8
  else if c = ch 'f' then some 12
  else if c = ch 'n' then some (ch '\n')
  else if c = ch 'r' then some (ch '\r')
  else if c = ch 't' then some (ch '\t')
  else none

instance neZero_sixteen : NeZero 16 := ⟨by decide⟩

def hexValue (c : CodePoint) : Option (Fin 16) :=
  if 48 ≤ c.val ∧ c.val ≤ 57 then some (.ofNat 16 (c.val - 48))
  else if 97 ≤ c.val ∧ c.val ≤ 102 then some (.ofNat 16 (c.val - 87))
  else if 65 ≤ c.val ∧ c.val ≤ 70 then some (.ofNat 16 (c.val - 55))
  else none

namespace StringScan

def push (scan : StringScan) (c : CodePoint) : StringScan := ⟨scan.text ++ [c], false, .none⟩

/-- A character that was written with `\u`: the second of a pair is joined to the first. -/
def pushUnicode (scan : StringScan) (c : CodePoint) : StringScan :=
  match scan.high, c.isLow, scan.text.getLast? with
  | true, true, some high => ⟨scan.text.dropLast ++ [CodePoint.join high c], false, .none⟩
  | _, _, _ => ⟨scan.text ++ [c], c.isHigh, .none⟩

def step (scan : StringScan) (c : CodePoint) : Option StringScan :=
  match scan.escape with
  | .none =>
    if c = ch '\\' then some { scan with escape := .backslash }
    else if c.val < 32 then none
    else some (scan.push c)
  | .backslash =>
    if c = ch 'u' then some { scan with escape := .unicode [] } else (unescape c).map scan.push
  | .unicode digits =>
    (hexValue c).map fun d =>
      if digits.length = 3 then
        scan.pushUnicode (.ofNat _ ((digits ++ [d]).foldl (fun n d => 16 * n + d.val) 0))
      else { scan with escape := .unicode (digits ++ [d]) }

end StringScan

/-! ## Numbers -/

def digitValue (c : CodePoint) : Option Digit :=
  if 48 ≤ c.val ∧ c.val ≤ 57 then some (.ofNat 10 (c.val - 48)) else none

def isExponent (c : CodePoint) : Bool := c = ch 'e' || c = ch 'E'

namespace NumberToken

def push (token : NumberToken) (c : CodePoint) : Option NumberToken :=
  match token.exponent, token.fraction, digitValue c with
  | some (sign, digits), _, some d => some { token with exponent := some (sign, digits ++ [d]) }
  | some (none, []), _, none =>
    if c = ch '-' then some { token with exponent := some (some true, []) }
    else if c = ch '+' then some { token with exponent := some (some false, []) }
    else none
  | some _, _, none => none
  | none, some digits, some d => some { token with fraction := some (digits ++ [d]) }
  | none, some digits, none =>
    if isExponent c ∧ digits ≠ [] then some { token with exponent := some (none, []) } else none
  | none, none, some d =>
    if token.whole = [0] then none else some { token with whole := token.whole ++ [d] }
  | none, none, none =>
    if token.whole = [] then none
    else if c = ch '.' then some { token with fraction := some [] }
    else if isExponent c then some { token with exponent := some (none, []) }
    else none

def value {F : Type} (floats : Floats F) (limits : Limits) (token : NumberToken) :
    Except LoadsError (Json F) :=
  if token.whole = [] then .error .jsonDecode
  else if token.fraction = none ∧ token.exponent = none then
    if limits.digits < token.whole.length then .error .intTooLong
    else .ok (.int (if token.negative then -(ofDigits token.whole) else ofDigits token.whole))
  else if token.isFloat then .ok (.float (floats.ofToken token))
  else if token.fraction.any fun digits => !digits.isEmpty then .error .jsonDecode
  else if limits.digits < token.whole.length then .error .intTooLong
  else .error .jsonDecode

end NumberToken

/-! ## The machine -/

inductive Frame (F : Type) where
  | items (done : List (Json F))
  | members (done : List (Text × Json F))
  | member (done : List (Text × Json F)) (key : Text)

inductive ScanMode (F : Type) where
  | value
  /-- After `[`. -/
  | firstItem
  | firstKey
  | key
  | colon (key : Text)
  | next
  | done (v : Json F)
  | string (isKey : Bool) (scan : StringScan)
  | number (token : NumberToken)
  | literal (rest : Text) (v : Json F)

structure Scan (F : Type) where
  mode : ScanMode F
  stack : List (Frame F)

def setMember {F : Type} (key : Text) (v : Json F) : List (Text × Json F) → List (Text × Json F)
  | [] => [(key, v)]
  | m :: members => if m.1 = key then (key, v) :: members else m :: setMember key v members

def isSpaceJson (c : CodePoint) : Bool :=
  c = ch ' ' || c = ch '\t' || c = ch '\n' || c = ch '\r'

namespace Scan

variable {F : Type}

def close (v : Json F) : List (Frame F) → Scan F
  | [] => ⟨.done v, []⟩
  | .items done :: stack => ⟨.next, .items (done ++ [v]) :: stack⟩
  | .member done key :: stack => ⟨.next, .members (setMember key v done) :: stack⟩
  | .members done :: stack => ⟨.next, .members done :: stack⟩

def openFrame (limits : Limits) (mode : ScanMode F) (frame : Frame F) (stack : List (Frame F)) :
    Except LoadsError (Scan F) :=
  if stack.length < limits.depth then .ok ⟨mode, frame :: stack⟩ else .error .recursion

def word (c : CodePoint) : Option (Text × Json F) :=
  if c = ch 'n' then some (ofString "ull", .null)
  else if c = ch 't' then some (ofString "rue", .bool true)
  else if c = ch 'f' then some (ofString "alse", .bool false)
  else if c = ch 'N' then some (ofString "aN", .float .nan)
  else if c = ch 'I' then some (ofString "nfinity", .float (.infinity false))
  else none

def beginValue (limits : Limits) (c : CodePoint) (stack : List (Frame F)) :
    Except LoadsError (Scan F) :=
  if c = ch '"' then .ok ⟨.string false ⟨[], false, .none⟩, stack⟩
  else if c = ch '[' then openFrame limits .firstItem (.items []) stack
  else if c = ch '\x7b' then openFrame limits .firstKey (.members []) stack
  else if c = ch '-' then .ok ⟨.number ⟨true, [], none, none⟩, stack⟩
  else
    match digitValue c, word c with
    | some d, _ => .ok ⟨.number ⟨false, [d], none, none⟩, stack⟩
    | none, some (rest, v) => .ok ⟨.literal rest v, stack⟩
    | none, none => .error .jsonDecode

def afterValue (s : Scan F) (c : CodePoint) : Except LoadsError (Scan F) :=
  if isSpaceJson c then .ok s
  else
    match s.mode, s.stack with
    | .next, .items done :: stack =>
      if c = ch ',' then .ok ⟨.value, .items done :: stack⟩
      else if c = ch ']' then .ok (close (.array done) stack)
      else .error .jsonDecode
    | .next, .members done :: stack =>
      if c = ch ',' then .ok ⟨.key, .members done :: stack⟩
      else if c = ch '\x7d' then .ok (close (.object done) stack)
      else .error .jsonDecode
    | _, _ => .error .jsonDecode

def stringStep (isKey : Bool) (scan : StringScan) (c : CodePoint) (stack : List (Frame F)) :
    Except LoadsError (Scan F) :=
  if scan.escape = .none ∧ c = ch '"' then
    if isKey then .ok ⟨.colon scan.text, stack⟩ else .ok (close (.string scan.text) stack)
  else
    match scan.step c with
    | some scan => .ok ⟨.string isKey scan, stack⟩
    | none => .error .jsonDecode

variable (floats : Floats F) (limits : Limits)

def step (s : Scan F) (c : CodePoint) : Except LoadsError (Scan F) :=
  match s.mode with
  | .value => if isSpaceJson c then .ok s else beginValue limits c s.stack
  | .firstItem =>
    if isSpaceJson c then .ok s
    else
      match s.stack with
      | .items [] :: stack =>
        if c = ch ']' then .ok (close (.array []) stack) else beginValue limits c s.stack
      | _ => .error .jsonDecode
  | .firstKey =>
    if isSpaceJson c then .ok s
    else if c = ch '"' then .ok ⟨.string true ⟨[], false, .none⟩, s.stack⟩
    else
      match s.stack with
      | .members [] :: stack =>
        if c = ch '\x7d' then .ok (close (.object []) stack) else .error .jsonDecode
      | _ => .error .jsonDecode
  | .key =>
    if isSpaceJson c then .ok s
    else if c = ch '"' then .ok ⟨.string true ⟨[], false, .none⟩, s.stack⟩
    else .error .jsonDecode
  | .colon key =>
    if isSpaceJson c then .ok s
    else
      match s.stack with
      | .members done :: stack =>
        if c = ch ':' then .ok ⟨.value, .member done key :: stack⟩ else .error .jsonDecode
      | _ => .error .jsonDecode
  | .next | .done _ => s.afterValue c
  | .string isKey scan => stringStep isKey scan c s.stack
  | .number token =>
    match token.push c with
    | some token => .ok ⟨.number token, s.stack⟩
    | none =>
      if token.whole = [] ∧ c = ch 'I' then
        .ok ⟨.literal (ofString "nfinity") (.float (.infinity true)), s.stack⟩
      else do
        let v ← token.value floats limits
        (close v s.stack).afterValue c
  | .literal [x] v => if c = x then .ok (close v s.stack) else .error .jsonDecode
  | .literal (x :: rest) v => if c = x then .ok ⟨.literal rest v, s.stack⟩ else .error .jsonDecode
  | .literal [] _ => .error .jsonDecode

def run : Text → Scan F → Except LoadsError (Scan F)
  | [], s => .ok s
  | c :: text, s => do
    let s ← s.step floats limits c
    run text s

def finish (s : Scan F) : Except LoadsError (Json F) :=
  match s.mode with
  | .done v => .ok v
  | .number token => do
    let v ← token.value floats limits
    match s.stack with
    | [] => .ok v
    | _ => .error .jsonDecode
  | _ => .error .jsonDecode

end Scan

/-! ## Bytes -/

inductive Encoding
  | utf8
  | utf8Sig
  | utf16 (bigEndian : Bool)
  | utf32 (bigEndian : Bool)

/-- `json.detect_encoding`, and how many bytes the mark takes. -/
def detectEncoding (bytes : Bytes) : Encoding × Nat :=
  if [0x00, 0x00, 0xfe, 0xff].isPrefixOf bytes then (.utf32 true, 4)
  else if [0xff, 0xfe, 0x00, 0x00].isPrefixOf bytes then (.utf32 false, 4)
  else if [0xfe, 0xff].isPrefixOf bytes then (.utf16 true, 2)
  else if [0xff, 0xfe].isPrefixOf bytes then (.utf16 false, 2)
  else if [0xef, 0xbb, 0xbf].isPrefixOf bytes then (.utf8Sig, 3)
  else
    match bytes with
    | a :: b :: c :: d :: _ =>
      if a = 0 then if b ≠ 0 then (.utf16 true, 0) else (.utf32 true, 0)
      else if b = 0 then if c ≠ 0 ∨ d ≠ 0 then (.utf16 false, 0) else (.utf32 false, 0)
      else (.utf8, 0)
    | [a, b] => if a = 0 then (.utf16 true, 0) else if b = 0 then (.utf16 false, 0) else (.utf8, 0)
    | _ => (.utf8, 0)

def decodeBytes (bytes : Bytes) : Option Text :=
  match detectEncoding bytes with
  | (.utf8, mark) | (.utf8Sig, mark) => decodeUtf8 (bytes.drop mark)
  | (.utf16 bigEndian, mark) => decodeUtf16 bigEndian (bytes.drop mark)
  | (.utf32 bigEndian, mark) => decodeUtf32 bigEndian (bytes.drop mark)

namespace Json

variable {F : Type} (floats : Floats F) (limits : Limits)

/-- `json.loads` of a text. -/
def loadsText (text : Text) : Except LoadsError (Json F) := do
  let s ← Scan.run floats limits text ⟨.value, []⟩
  s.finish floats limits

/-- `json.loads` of bytes. -/
def loads (bytes : Bytes) : Except LoadsError (Json F) :=
  match decodeBytes bytes with
  | some text => loadsText floats limits text
  | none => .error .unicodeDecode

end Json

end Edr
