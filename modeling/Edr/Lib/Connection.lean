import Mathlib

/-!
# Programs on a database connection

A program that holds a connection to a database, and may raise. The connection is not in autocommit
mode: a statement opens a transaction when none is open, and it stays open until the connection is
left. A transaction block is a transaction of its own only if none is open when it is entered, and
otherwise a savepoint; the block of the connection commits when it is left normally, and rolls back
when an exception escapes. Besides the database, the program talks to a world `ω`, on which nothing
is rolled back.

* `Client.note`, `Client.crashStates`: what is durable when the process is stopped somewhere in the
  program.
-/

namespace Edr

/-- A connection to a database with states `σ`, and the world. -/
structure Session (σ ω : Type*) where
  committed : σ
  working : Option σ
  world : ω

def Session.commit {σ ω : Type*} (s : Session σ ω) : Session σ ω :=
  { s with
    committed := s.working.getD s.committed
    working := none }

def Session.leaves {σ : Type*} (s : Session σ (List σ)) : List σ := s.world ++ [s.committed]

/-- Programs on a connection, that return an `α` or raise an `ε`. -/
def Client (σ ω ε : Type*) (α : Type*) := Session σ ω → Except ε α × Session σ ω

namespace Client

universe u

variable {σ ω ε : Type*} {α β : Type u}

instance : Monad (Client σ ω ε) where
  pure a s := (.ok a, s)
  bind m f s :=
    match m s with
    | (.ok a, t) => f a t
    | (.error e, t) => (.error e, t)

def raise (e : ε) : Client σ ω ε α := fun s => (.error e, s)

/-- `try: m except Exception as e: h(e)`. -/
def catchError (m : Client σ ω ε α) (h : ε → Client σ ω ε α) : Client σ ω ε α := fun s =>
  match m s with
  | (.ok a, t) => (.ok a, t)
  | (.error e, t) => h e t

def call (f : ω → Except ε α × ω) : Client σ ω ε α := fun s =>
  ((f s.world).1, { s with world := (f s.world).2 })

def execute (f : σ → α × σ) : Client σ ω ε α := fun s =>
  (.ok (f (s.working.getD s.committed)).1,
    { s with working := some (f (s.working.getD s.committed)).2 })

def commit : Client σ ω ε PUnit := fun s => (.ok ⟨⟩, s.commit)

/-- `with connection.transaction()`: a savepoint where a transaction is open, and a transaction of
    its own otherwise. -/
def transaction (m : Client σ ω ε α) : Client σ ω ε α := fun s =>
  match s.working with
  | some w =>
    match m s with
    | (.ok a, t) => (.ok a, t)
    | (.error e, t) => (.error e, { t with working := some w })
  | none =>
    match m { s with working := some s.committed } with
    | (.ok a, t) => (.ok a, t.commit)
    | (.error e, t) => (.error e, { t with working := none })

/-- `with connect()`: a normal exit commits, and an exception rolls back. -/
def connect (m : Client σ ω ε α) : Client σ ω ε α := fun s =>
  match m { s with working := none } with
  | (.ok a, t) => (.ok a, t.commit)
  | (.error e, t) => (.error e, { t with working := none })

def note : Client σ (List σ) ε PUnit := fun s =>
  (.ok ⟨⟩, { s with world := s.world ++ [s.committed] })

/-- What may be durable when the process is stopped in a run of `m`. -/
def crashStates (m : Client σ (List σ) ε α) (s : Session σ (List σ)) : List σ := (m s).2.leaves

/-! ## What the constructs do -/

section

variable {m : Client σ ω ε α} {s t : Session σ ω} {a : α} {e : ε} {w : σ}

theorem bind_of_ok {f : α → Client σ ω ε β} (h : m s = (.ok a, t)) : (m >>= f) s = f a t := by
  change (match m s with
    | (.ok a, t) => f a t
    | (.error e, t) => (.error e, t)) = _
  rw [h]

theorem bind_of_error {f : α → Client σ ω ε β} (h : m s = (.error e, t)) :
    (m >>= f) s = (.error e, t) := by
  change (match m s with
    | (.ok a, t) => f a t
    | (.error e, t) => (.error e, t)) = _
  rw [h]

theorem catchError_of_ok {h : ε → Client σ ω ε α} (hm : m s = (.ok a, t)) :
    m.catchError h s = (.ok a, t) := by
  rw [catchError, hm]

theorem catchError_of_error {h : ε → Client σ ω ε α} (hm : m s = (.error e, t)) :
    m.catchError h s = h e t := by
  rw [catchError, hm]

theorem transaction_of_ok (hw : s.working = some w) (h : m s = (.ok a, t)) :
    m.transaction s = (.ok a, t) := by
  simp [transaction, hw, h]

theorem transaction_of_idle (hw : s.working = none)
    (h : m { s with working := some s.committed } = (.ok a, t)) :
    m.transaction s = (.ok a, t.commit) := by
  simp [transaction, hw, h]

theorem connect_of_ok (h : m { s with working := none } = (.ok a, t)) :
    m.connect s = (.ok a, t.commit) := by
  rw [connect, h]

theorem connect_of_error (h : m { s with working := none } = (.error e, t)) :
    m.connect s = (.error e, { t with working := none }) := by
  rw [connect, h]

end

end Client

end Edr
