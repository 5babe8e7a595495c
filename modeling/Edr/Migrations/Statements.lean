import Mathlib

/-!
# The statements of a migration

`split_sql_statements` cuts the text of a migration at its semicolons, except those in quotes, in
dollar-quoted bodies and in comments. Comments are left out, with a space in their place where two
tokens would otherwise touch.
-/

namespace Edr.Migrations

inductive Mode
  | plain
  | lineComment
  | blockComment (depth : Nat)
  | dollar (tag : List Char)
  | quoted (quote : Char)

structure Scan where
  statements : List String
  buffer : List Char
  mode : Mode
  skip : Nat

/-- `str.isspace` of a character. -/
def isSpace (char : Char) : Bool :=
  let code := char.toNat
  (9 ≤ code && code ≤ 13) || (28 ≤ code && code ≤ 32) || code == 0x85 || code == 0xa0 ||
    code == 0x1680 || (0x2000 ≤ code && code ≤ 0x200a) || code == 0x2028 || code == 0x2029 ||
    code == 0x202f || code == 0x205f || code == 0x3000

def strip (chars : List Char) : List Char :=
  ((chars.dropWhile isSpace).reverse.dropWhile isSpace).reverse

structure CharClasses where
  isAlnum : Char → Bool
  isDigit : Char → Bool

def dollarTag (classes : CharClasses) (rest : List Char) : Option (List Char) :=
  let tag := rest.takeWhile (· ≠ '$')
  let named : Bool := match tag with
    | [] => true
    | first :: _ =>
      (tag.map fun char => if char = '_' then 'a' else char).all classes.isAlnum &&
        !classes.isDigit first
  if '$' ∈ rest ∧ named then some ('$' :: tag ++ ['$']) else none

namespace Scan

def flush (s : Scan) : Scan :=
  { s with
    statements :=
      if (strip s.buffer).isEmpty then s.statements
      else s.statements ++ [String.ofList (strip s.buffer)]
    buffer := [] }

def separate (s : Scan) : Scan :=
  match s.buffer.getLast? with
  | some char => if isSpace char then s else { s with buffer := s.buffer ++ [' '] }
  | none => s

/-- The character `char`, with `rest` after it. -/
def step (classes : CharClasses) (char : Char) (rest : List Char) (s : Scan) : Scan :=
  let following := rest.head?
  match s.mode with
  | .lineComment =>
    if char = '\n' then { s with mode := .plain, buffer := s.buffer ++ [char] } else s
  | .blockComment depth =>
    if char = '/' ∧ following = some '*' then { s with mode := .blockComment (depth + 1), skip := 1 }
    else if char = '*' ∧ following = some '/' then
      { s with mode := if depth ≤ 1 then .plain else .blockComment (depth - 1), skip := 1 }
    else s
  | .dollar tag =>
    if tag.isPrefixOf (char :: rest) then
      { s with mode := .plain, buffer := s.buffer ++ tag, skip := tag.length - 1 }
    else { s with buffer := s.buffer ++ [char] }
  | .quoted quote =>
    if char = quote then
      if following = some quote then { s with buffer := s.buffer ++ [char, quote], skip := 1 }
      else { s with mode := .plain, buffer := s.buffer ++ [char] }
    else { s with buffer := s.buffer ++ [char] }
  | .plain =>
    if char = '-' ∧ following = some '-' then { s.separate with mode := .lineComment, skip := 1 }
    else if char = '/' ∧ following = some '*' then
      { s.separate with mode := .blockComment 1, skip := 1 }
    else if char = '\'' ∨ char = '"' then
      { s with mode := .quoted char, buffer := s.buffer ++ [char] }
    else if char = '$' then
      match dollarTag classes rest with
      | some tag =>
        { s with mode := .dollar tag, buffer := s.buffer ++ tag, skip := tag.length - 1 }
      | none => { s with buffer := s.buffer ++ [char] }
    else if char = ';' then s.flush
    else { s with buffer := s.buffer ++ [char] }

def run (classes : CharClasses) : List Char → Scan → Scan
  | [], s => s
  | char :: rest, s =>
    match s.skip with
    | skip + 1 => run classes rest { s with skip := skip }
    | 0 => run classes rest (s.step classes char rest)

end Scan

/-- `split_sql_statements`, or none where it raises
    `unterminated quoted string or comment in SQL migration`. -/
def splitSqlStatements (classes : CharClasses) (sql : String) : Option (List String) :=
  let s := Scan.run classes sql.toList ⟨[], [], .plain, 0⟩
  match s.mode with
  | .plain | .lineComment => some s.flush.statements
  | .blockComment _ | .dollar _ | .quoted _ => none

end Edr.Migrations
