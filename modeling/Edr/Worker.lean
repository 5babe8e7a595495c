import Edr.Kafka

/-!
# The worker loop

`_run_worker_once`, with which the storage worker and the detection worker take one message of
their topic: it is processed with retries, and its offset committed, or it is recorded in the
failure sink, and then its offset is committed too; where the record fails, the consumer is rewound
to the message. The `process` callback is part of the environment: it returns, or raises.

A run is a sequence of calls of `_run_worker_once`, with a script of the environment's answers for
each of them. An exception that leaves a call ends the process, except that of a commit that failed.

The main result is `worker_run_safe`: only messages that were processed or recorded are committed,
and passed over; a message whose record failed comes again before the messages after it; and within
one delivery there are at most four calls of `process`, and none after a permanent error.
-/

namespace Edr.Worker

/-! ## The source -/

inductive ErrorType
  | archivedDayImmutable
  | eventIdentityConflict
  | permanentMessage
  | eventIngestLockTimeout
  deriving DecidableEq

/-- `isinstance(error, error_type)`. -/
def isInstance : WorkerError → ErrorType → Bool
  | .archivedDayImmutable _, .archivedDayImmutable => true
  | .eventIdentityConflict _, .eventIdentityConflict => true
  | .permanentMessage _, .permanentMessage => true
  | .eventIngestLockTimeout _, .eventIngestLockTimeout => true
  | _, _ => false

/-- The exceptions that `run_with_retries` raises again at once. -/
def isPermanent (e : WorkerError) : Bool :=
  isInstance e .archivedDayImmutable || isInstance e .eventIdentityConflict ||
    isInstance e .permanentMessage

/-- `next((code for error_type, code in errors if isinstance(error, error_type)), None)`. -/
def codeOf (errors : List (ErrorType × String)) (e : WorkerError) : Option String :=
  (errors.find? fun entry => isInstance e entry.1).map Prod.snd

/-- What a worker passes to `_run_worker_once`. -/
structure Config where
  consumerName : String
  failureStage : String
  permanentErrors : List (ErrorType × String)
  retryableErrors : List (ErrorType × String) := []

/-- `EventStorageWorker.run_once`. -/
def eventStorageWorker : Config where
  consumerName := "event-storage-worker"
  failureStage := "EVENT_STORAGE"
  permanentErrors := [(.archivedDayImmutable, "ARCHIVED_DAY_IMMUTABLE"),
    (.eventIdentityConflict, "EVENT_IDENTITY_CONFLICT"), (.permanentMessage, "INVALID_MESSAGE")]
  retryableErrors := [(.eventIngestLockTimeout, "EVENT_INGEST_LOCK_TIMEOUT")]

/-- `DetectionWorker.run_once`. -/
def detectionWorker : Config where
  consumerName := "detection-worker"
  failureStage := "DETECTION"
  permanentErrors := [(.permanentMessage, "INVALID_MESSAGE")]

/-- The events of this worker: the calls of `process` with their ends, and the pauses. -/
inductive Attempt
  | called (x : Slot)
  | returned (x : Slot)
  | raised (x : Slot) (e : WorkerError)
  | slept (seconds : Nat)

/-- The environment of this worker also answers the calls of `process`: with nothing, or with an
    exception. -/
abbrev WorkerProgram := Program Unit Attempt (Option WorkerError)

variable {V : Type}

/-- `process(message)`. -/
def process (m : ConsumedMessage V) : WorkerProgram Unit := do
  .update fun s => s.note (.own (.called m.slot))
  .call fun r s =>
    match r.own with
    | none => (.ok (), s.note (.own (.returned m.slot)))
    | some e => (.error e, s.note (.own (.raised m.slot e)))

/-- `sleep(delay)`. -/
def sleep (seconds : Nat) : WorkerProgram Unit :=
  .update fun s => s.note (.own (.slept seconds))

def retryDelaysSeconds : List Nat := [1, 5, 30]

structure RetryFailure where
  error : WorkerError
  retryCount : Nat

/-- One `try` of `run_with_retries`: the error to go on with, if there is one. -/
def attempt (m : ConsumedMessage V) : WorkerProgram (Option WorkerError) :=
  .handle (do process m; pure none) fun e =>
    if isPermanent e then .raise e else pure (some e)

/-- The loop of `run_with_retries` over the remaining delays. -/
def retry (m : ConsumedMessage V) (lastError : WorkerError) :
    List Nat → WorkerProgram (Option RetryFailure)
  | [] => pure (some ⟨lastError, retryDelaysSeconds.length⟩)
  | delay :: delays => do
    sleep delay
    match ← attempt m with
    | none => pure none
    | some e => retry m e delays

def runWithRetries (m : ConsumedMessage V) : WorkerProgram (Option RetryFailure) := do
  match ← attempt m with
  | none => pure none
  | some e => retry m e retryDelaysSeconds

/-- What `_run_worker_once` knows about a message that it gives up. -/
structure GivenUp where
  error : WorkerError
  failureCode : Option String
  retryable : Bool
  retryCount : Nat
  resetRequested : Bool

variable (config : Config)

/-- The first `except` of `_run_worker_once`. -/
def giveUp (caught : WorkerError) : WorkerProgram (Option GivenUp) :=
  match codeOf config.permanentErrors caught with
  | none => .raise caught
  | some code => pure (some ⟨caught, some code, false, 0, false⟩)

/-- The first `try` of `_run_worker_once`: nothing, if the message was processed and committed. -/
def processAndCommit (m : ConsumedMessage V) : WorkerProgram (Option GivenUp) :=
  .handle
    (do
      match ← runWithRetries m with
      | none =>
        commit m
        pure none
      | some failure =>
        pure (some ⟨failure.error, codeOf config.retryableErrors failure.error, true,
          failure.retryCount, true⟩))
    (giveUp config)

def failureRecord (g : GivenUp) (failedAt : Time) : FailureRecord where
  consumerName := config.consumerName
  failureStage := config.failureStage
  failureCode := g.failureCode
  errorMessage := g.error.text
  retryable := g.retryable
  retryCount := g.retryCount
  failedAt := failedAt

/-- The second `try` of `_run_worker_once`: was the message recorded, or rewound to? -/
def recordOrRewind (m : ConsumedMessage V) (g : GivenUp) : WorkerProgram Bool :=
  .handle
    (do
      record m (failureRecord config g)
      pure true)
    fun _ => do
      rewind m
      pure false

/-- `_run_worker_once`: was a message settled, and is a new connection asked for? -/
def runWorkerOnce (log : Log V) : WorkerProgram (Bool × Bool) := do
  match ← consumeOne log with
  | none => pure (false, false)
  | some m =>
    match ← processAndCommit config m with
    | none => pure (true, false)
    | some g =>
      if ← recordOrRewind config m g then
        commit m
        pure (true, g.resetRequested)
      else pure (false, true)

/-! ## Runs -/

inductive Step
  | call (script : List (Answer (Option WorkerError)))
  | restart

def init : Node Unit Attempt := ⟨⟨fun _ => 0, fun _ => 0⟩, [], ()⟩

def proceed {α ρ : Type} : Outcome WorkerError α × List ρ × Node Unit Attempt → Node Unit Attempt
  | (.returned _, _, t) => t
  | (.raised (.commitFailed _), _, t) => t
  | (.raised _, _, t) => t.restart ()
  | (.stopped, _, t) => t.restart ()

def next (log : Log V) (s : Node Unit Attempt) : Step → Node Unit Attempt
  | .restart => s.restart ()
  | .call script => proceed (runWorkerOnce config log script s)

def run (log : Log V) (steps : List Step) : Node Unit Attempt := steps.foldl (next config log) init

/-! ## What is to be shown of a history -/

def Handled (x : Slot) (h : List (Happening Attempt)) : Prop :=
  .own (.returned x) ∈ h ∨ ∃ r, .recorded x r ∈ h

def Outstanding (x : Slot) : List (Happening Attempt) → Prop :=
  Since (· ≠ .delivered x) (· = .recordFailed x)

def isDelivery : Happening Attempt → Bool
  | .delivered _ => true
  | _ => false

/-- Is it a call of `process`? -/
def isCall : Happening Attempt → Bool
  | .own (.called _) => true
  | _ => false

def delivery (h : List (Happening Attempt)) : List (Happening Attempt) :=
  h.takeWhile fun e => !isDelivery e

def CommitsHandled : List (Happening Attempt) → Prop :=
  Always fun e past => ∀ x, e = .committed x → Handled x past

def Redelivers : List (Happening Attempt) → Prop :=
  Always fun e past => ∀ x, e = .delivered x →
    ∀ y, y.source = x.source → Outstanding y past → x.offset ≤ y.offset

/-- `process` is called for the message that was delivered last, at most three times before in this
    delivery, and not after a permanent error. -/
def BoundsAttempts : List (Happening Attempt) → Prop :=
  Always fun e past => ∀ x, e = .own (.called x) →
    past.find? isDelivery = some (.delivered x) ∧ (delivery past).countP isCall < 4 ∧
      ∀ y e', .own (.raised y e') ∈ delivery past → isPermanent e' = false

structure Sound (h : List (Happening Attempt)) : Prop where
  commits : CommitsHandled h
  redelivers : Redelivers h
  attempts : BoundsAttempts h

variable {h : List (Happening Attempt)}

theorem Handled.cons {x : Slot} (hx : Handled x h) (e : Happening Attempt) : Handled x (e :: h) :=
  hx.imp (List.mem_cons_of_mem e) fun ⟨r, hr⟩ => ⟨r, List.mem_cons_of_mem e hr⟩

/-! ## Between the calls, and within one -/

variable {s : Node Unit Attempt} {x : Slot} {k : Nat}

/-- What holds between the calls: everything that was handed out is handled, apart from what the
    consumer was rewound to. -/
structure Inv (s : Node Unit Attempt) : Prop where
  sound : Sound s.history
  committed_le : ∀ p, s.consumer.committed p ≤ s.consumer.position p
  covered : ∀ y : Slot, y.offset < s.consumer.position y.source → Handled y s.history
  outstanding : ∀ y, Outstanding y s.history → s.consumer.position y.source ≤ y.offset

/-- What holds from the delivery of `x` until it is settled: everything else that was handed out is
    handled, and nothing from `x` on is committed. -/
structure Pending (x : Slot) (s : Node Unit Attempt) : Prop where
  sound : Sound s.history
  committed_le : ∀ p, s.consumer.committed p ≤ s.consumer.position p
  committed_le_offset : s.consumer.committed x.source ≤ x.offset
  position_eq : s.consumer.position x.source = x.offset + 1
  covered : ∀ y ≠ x, y.offset < s.consumer.position y.source → Handled y s.history
  outstanding : ∀ y, Outstanding y s.history → y = x ∨ s.consumer.position y.source ≤ y.offset

structure Open (x : Slot) (s : Node Unit Attempt) : Prop extends Pending x s where
  fresh : ¬ Outstanding x s.history

/-- Moreover, `process` was called `k` times, and has raised no permanent error. -/
structure Trying (x : Slot) (k : Nat) (s : Node Unit Attempt) : Prop extends Open x s where
  last : s.history.find? isDelivery = some (.delivered x)
  count : (delivery s.history).countP isCall = k
  passing : ∀ y e, .own (.raised y e) ∈ delivery s.history → isPermanent e = false

def quiet : Happening Attempt → Bool
  | .delivered _ => false
  | .committed _ => false
  | .own (.called _) => false
  | _ => true

variable {e : Happening Attempt}

theorem Sound.cons (hh : Sound h) (he : quiet e = true) : Sound (e :: h) where
  commits := always_cons.2 ⟨fun x hx => by simp [hx, quiet] at he, hh.commits⟩
  redelivers := always_cons.2 ⟨fun x hx => by simp [hx, quiet] at he, hh.redelivers⟩
  attempts := always_cons.2 ⟨fun x hx => by simp [hx, quiet] at he, hh.attempts⟩

theorem outstanding_cons {y : Slot} :
    Outstanding y (e :: h) ↔ e = .recordFailed y ∨ e ≠ .delivered y ∧ Outstanding y h := .rfl

theorem Inv.restart (h : Inv s) : Inv (s.restart ()) where
  sound := h.sound.cons rfl
  committed_le _ := le_rfl
  covered y hy := (h.covered y (hy.trans_le (h.committed_le _))).cons _
  outstanding y hy := by
    rcases outstanding_cons.1 hy with he | ⟨-, hy⟩
    · cases he
    · exact (h.committed_le _).trans (h.outstanding y hy)

theorem Pending.restart (h : Pending x s) : Inv (s.restart ()) where
  sound := h.sound.cons rfl
  committed_le _ := le_rfl
  covered y hy := by
    refine (h.covered y ?_ (lt_of_lt_of_le hy (h.committed_le _))).cons _
    rintro rfl
    exact absurd hy (not_lt.2 h.committed_le_offset)
  outstanding y hy := by
    rcases outstanding_cons.1 hy with he | ⟨-, hy⟩
    · cases he
    · rcases h.outstanding y hy with rfl | hp
      · exact h.committed_le_offset
      · exact (h.committed_le _).trans hp

theorem Pending.rewind (h : Pending x s) : Inv (s.rewind x) where
  sound := h.sound.cons rfl
  committed_le p := by
    rcases eq_or_ne p x.source with rfl | hp
    · simpa using h.committed_le_offset
    · simpa [hp] using h.committed_le p
  covered y hy := by
    refine Handled.cons (h.covered y ?_ ?_) _
    · rintro rfl
      simp at hy
    · rcases eq_or_ne y.source x.source with hp | hp
      · simp only [Node.rewind_position, hp, Function.update_self] at hy
        rw [hp, h.position_eq]
        exact hy.trans (Nat.lt_succ_self _)
      · simpa [hp] using hy
  outstanding y hy := by
    rcases outstanding_cons.1 hy with he | ⟨-, hy⟩
    · cases he
    · rcases eq_or_ne y.source x.source with hp | hp
      · simp only [Node.rewind_position, hp, Function.update_self]
        rcases h.outstanding y hy with rfl | hle
        · exact le_rfl
        · rw [hp, h.position_eq] at hle
          exact (Nat.le_succ _).trans hle
      · rcases h.outstanding y hy with rfl | hle
        · exact absurd rfl hp
        · simpa [hp] using hle

theorem Pending.note (h : Pending x s) (he : quiet e = true) (hx : ∀ y, e = .recordFailed y → y = x)
    : Pending x (s.note e) where
  sound := h.sound.cons he
  committed_le := h.committed_le
  committed_le_offset := h.committed_le_offset
  position_eq := h.position_eq
  covered y hy hlt := (h.covered y hy hlt).cons _
  outstanding y hy := by
    rcases outstanding_cons.1 hy with hr | ⟨-, hy⟩
    · exact .inl (hx y hr)
    · exact h.outstanding y hy

theorem Open.inv (h : Open x s) (hx : Handled x s.history) : Inv s where
  sound := h.sound
  committed_le := h.committed_le
  covered y hy := by
    rcases eq_or_ne y x with rfl | hne
    · exact hx
    · exact h.covered y hne hy
  outstanding y hy := by
    rcases h.outstanding y hy with rfl | hle
    · exact absurd hy h.fresh
    · exact hle

theorem Inv.note (h : Inv s) (he : quiet e = true) (hx : ∀ y, e ≠ .recordFailed y) :
    Inv (s.note e) where
  sound := h.sound.cons he
  committed_le := h.committed_le
  covered y hlt := (h.covered y hlt).cons _
  outstanding y hy := by
    rcases outstanding_cons.1 hy with hr | ⟨-, hy⟩
    · exact absurd hr (hx y)
    · exact h.outstanding y hy

theorem Inv.commit (h : Inv s) (hx : x.offset < s.consumer.position x.source) :
    Inv (s.commit x) where
  sound :=
    { commits := always_cons.2 ⟨fun y hy => by cases hy; exact h.covered x hx, h.sound.commits⟩
      redelivers := always_cons.2 ⟨nofun, h.sound.redelivers⟩
      attempts := always_cons.2 ⟨nofun, h.sound.attempts⟩ }
  committed_le p := by
    rcases eq_or_ne p x.source with rfl | hp
    · simpa using Nat.succ_le_of_lt hx
    · simpa [hp] using h.committed_le p
  covered y hlt := (h.covered y hlt).cons _
  outstanding y hy := by
    rcases outstanding_cons.1 hy with hr | ⟨-, hy⟩
    · cases hr
    · exact h.outstanding y hy

theorem Inv.deliver (h : Inv s) (p : TopicPartition) : Trying (s.next p) 0 (s.deliver p) where
  sound :=
    { commits := always_cons.2 ⟨nofun, h.sound.commits⟩
      redelivers := by
        -- the message is the one that its partition stands at
        refine always_cons.2 ⟨fun x hx y hy ho => ?_, h.sound.redelivers⟩
        cases hx
        exact (congrArg s.consumer.position hy).symm.le.trans (h.outstanding y ho)
      attempts := always_cons.2 ⟨nofun, h.sound.attempts⟩ }
  committed_le q := (h.committed_le q).trans (Node.position_le_deliver q)
  committed_le_offset := h.committed_le p
  position_eq := by simp [Node.next]
  covered y hne hy := (h.covered y ((Node.eq_next_or_lt hy).resolve_left hne)).cons _
  outstanding y hy := by
    rcases outstanding_cons.1 hy with hr | ⟨hd, hy⟩
    · cases hr
    · right
      have hle := h.outstanding y hy
      rcases eq_or_ne y.source p with rfl | hq
      · simp only [Node.deliver_position, Function.update_self]
        refine Nat.succ_le_of_lt (lt_of_le_of_ne hle fun ho => hd ?_)
        exact congrArg _ (Slot.ext rfl ho)
      · simpa [hq] using hle
  fresh hx := by
    rcases outstanding_cons.1 hx with hr | ⟨hd, -⟩
    · cases hr
    · exact hd rfl
  last := rfl
  count := rfl
  passing _ _ he := nomatch he

/-! ## The calls of `process` -/

theorem Open.note (h : Open x s) (he : quiet e = true) (hx : ∀ y, e ≠ .recordFailed y) :
    Open x (s.note e) where
  toPending := h.toPending.note he fun y hy => absurd hy (hx y)
  fresh ho := by
    rcases outstanding_cons.1 ho with hr | ⟨-, ho⟩
    · exact hx x hr
    · exact h.fresh ho

theorem Trying.note (h : Trying x k s) {a : Attempt} (ha : quiet (.own a) = true)
    (hp : ∀ y e, a = .raised y e → isPermanent e = false) : Trying x k (s.note (.own a)) where
  toOpen := h.toOpen.note ha nofun
  last := h.last
  count := by
    rw [← h.count]
    refine List.countP_cons_of_neg fun hc => ?_
    cases a with
    | called y => cases ha
    | returned y => cases hc
    | raised y e => cases hc
    | slept n => cases hc
  passing y e he := by
    rcases List.mem_cons.1 he with heq | he
    · exact hp y e (Happening.own.inj heq).symm
    · exact h.passing y e he

theorem Trying.called (h : Trying x k s) (hk : k < 4) :
    Trying x (k + 1) (s.note (.own (.called x))) where
  sound :=
    { commits := always_cons.2 ⟨nofun, h.sound.commits⟩
      redelivers := always_cons.2 ⟨nofun, h.sound.redelivers⟩
      attempts := by
        refine always_cons.2 ⟨fun y hy => ?_, h.sound.attempts⟩
        cases hy
        exact ⟨h.last, h.count.trans_lt hk, h.passing⟩ }
  committed_le := h.committed_le
  committed_le_offset := h.committed_le_offset
  position_eq := h.position_eq
  covered y hy hlt := (h.covered y hy hlt).cons _
  outstanding y hy := by
    rcases outstanding_cons.1 hy with hr | ⟨-, hy⟩
    · cases hr
    · exact h.outstanding y hy
  fresh ho := by
    rcases outstanding_cons.1 ho with hr | ⟨-, ho⟩
    · cases hr
    · exact h.fresh ho
  last := h.last
  count := by
    rw [← h.count]
    exact List.countP_cons_of_pos rfl
  passing y e he := by
    rcases List.mem_cons.1 he with heq | he
    · cases heq
    · exact h.passing y e he

open Process

variable {v : V}

theorem meets_attempt (h : Trying x k s) (hk : k < 4) :
    (attempt (.ofSlot x v)).Meets ⟨fun r t => match r with
        | none => Open x t ∧ Handled x t.history
        | some _ => Trying x (k + 1) t,
      fun e t => Open x t ∧ isPermanent e = true, fun t => Inv (t.restart ())⟩ s := by
  have hc := h.called hk
  refine .handle (.bind (.bind (.update (.call ?_ fun r => ?_))))
  · exact hc.restart
  · rcases r.own with _ | e
    · exact .pure ⟨hc.toOpen.note rfl nofun, .inl List.mem_cons_self⟩
    · change Process.Meets (if isPermanent e then .raise e else pure (some e)) _ _
      split_ifs with he
      · exact .raise ⟨hc.toOpen.note rfl nofun, he⟩
      · refine .pure (hc.note rfl fun y e' heq => ?_)
        cases heq
        simpa using he

theorem meets_retry {delays : List Nat} (h : Trying x k s) (hk : k + delays.length ≤ 4)
    (lastError : WorkerError) :
    (retry (.ofSlot x v) lastError delays).Meets
      ⟨fun r t => Open x t ∧ (r.isNone → Handled x t.history),
        fun e t => Open x t ∧ isPermanent e = true, fun t => Inv (t.restart ())⟩ s := by
  induction delays generalizing s k lastError with
  | nil => exact .pure ⟨h.toOpen, nofun⟩
  | cons delay delays ih =>
    rw [List.length_cons] at hk
    have hs : Trying x k (s.note (.own (.slept delay))) := h.note rfl nofun
    refine .bind (.update ((meets_attempt hs (by omega)).seq ?_))
    rintro (_ | e) t ht
    · exact .pure ⟨ht.1, fun _ => ht.2⟩
    · exact ih ht (by omega) e

theorem meets_runWithRetries (h : Trying x 0 s) :
    (runWithRetries (.ofSlot x v)).Meets
      ⟨fun r t => Open x t ∧ (r.isNone → Handled x t.history),
        fun e t => Open x t ∧ isPermanent e = true, fun t => Inv (t.restart ())⟩ s := by
  refine (meets_attempt h (by decide)).seq ?_
  rintro (_ | e) t ht
  · exact .pure ⟨ht.1, fun _ => ht.2⟩
  · exact meets_retry ht (by decide) e

/-! ## One call of `_run_worker_once` -/

theorem meets_commit_of_inv {Q : Post (Node Unit Attempt) WorkerError Unit} (h : Inv s)
    (hx : x.offset < s.consumer.position x.source) (hr : ∀ t, Inv t → Q.returned () t)
    (he : ∀ message t, Inv t → Q.raised (.commitFailed message) t)
    (hs : ∀ t, Inv (t.restart ()) → Q.stopped t) :
    (commit (.ofSlot x v) : WorkerProgram Unit).Meets Q s :=
  meets_commit (hs _ h.restart) (hr _ (h.commit hx))
    (fun message => he message _ (h.note rfl nofun))
    (fun message => he message _ ((h.commit hx).note rfl nofun))

/-- What holds when an exception leaves `_run_worker_once`: only one of a commit may be survived. -/
def Escaped (e : WorkerError) (t : Node Unit Attempt) : Prop :=
  Inv (t.restart ()) ∧ ∀ message, e = .commitFailed message → Inv t

theorem Escaped.of_commitFailed {message : String} (h : Inv s) :
    Escaped (.commitFailed message) s := ⟨h.restart, fun _ _ => h⟩

/-- What the first `try` leaves: a message that is settled, or one to be recorded. -/
def Tried (x : Slot) : Option GivenUp → Node Unit Attempt → Prop
  | none, t => Inv t
  | some _, t => Open x t

theorem meets_giveUp {e : WorkerError} (h : Open x s) (he : isPermanent e = true) :
    (giveUp config e).Meets ⟨Tried x, Escaped, fun t => Inv (t.restart ())⟩ s := by
  unfold giveUp
  rcases codeOf config.permanentErrors e with _ | code
  · refine .raise ⟨h.restart, fun message hm => ?_⟩
    rw [hm] at he
    cases he
  · exact .pure h

theorem giveUp_commitFailed (message : String) :
    giveUp config (.commitFailed message) = .raise (.commitFailed message) := by
  have hcode : codeOf config.permanentErrors (.commitFailed message) = none := by
    simp [codeOf, isInstance]
  rw [giveUp, hcode]

theorem meets_processAndCommit (h : Trying x 0 s) :
    (processAndCommit config (.ofSlot x v)).Meets
      ⟨Tried x, Escaped, fun t => Inv (t.restart ())⟩ s := by
  refine .handle (.bind ((meets_runWithRetries h).mono ?_ ?_ fun _ ht => ht))
  · rintro (_ | failure) t ⟨ht, hx⟩
    · refine .bind (meets_commit_of_inv (ht.inv (hx rfl)) ht.position_eq.symm.le
        (fun _ ht => .pure ht) (fun message t ht => ?_) fun _ ht => ht)
      change Process.Meets (giveUp config (.commitFailed message)) _ t
      rw [giveUp_commitFailed]
      exact .raise (.of_commitFailed ht)
    · exact .pure ht
  · exact fun e t ⟨ht, he⟩ => meets_giveUp config ht he

theorem meets_recordOrRewind (h : Open x s) (g : GivenUp) :
    (recordOrRewind config (.ofSlot x v) g).Meets
      ⟨fun r t => Inv t ∧ (r = true → x.offset < t.consumer.position x.source), Escaped,
        fun t => Inv (t.restart ())⟩ s := by
  refine .handle (.bind (meets_record h.restart (fun now => ?_) fun _ => ?_))
  · have hx : Open x (s.note (.recorded x (failureRecord config g now))) := h.note rfl nofun
    refine .pure ⟨hx.inv (.inr ⟨_, List.mem_cons_self⟩), fun _ => ?_⟩
    exact h.position_eq.symm.le
  · have hx : Pending x (s.note (.recordFailed x)) :=
      h.toPending.note rfl fun y hy => (Happening.recordFailed.inj hy).symm
    refine .bind (meets_rewind hx.restart (.pure ⟨hx.rewind, nofun⟩) fun message => ?_)
    have hx' : Pending x ((s.note (.recordFailed x)).note (.rewindFailed x)) :=
      hx.note rfl fun y hy => by cases hy
    exact ⟨hx'.restart, nofun⟩

theorem meets_runWorkerOnce (log : Log V) (h : Inv s) :
    (runWorkerOnce config log).Meets ⟨fun _ => Inv, Escaped, fun t => Inv (t.restart ())⟩ s := by
  refine .bind (meets_consumeOne h.restart (.pure h) ?_ ?_ ?_)
  · exact fun message => ⟨h.restart, nofun⟩
  · exact fun p _ message => ⟨(h.deliver p).restart, nofun⟩
  · intro p v _
    refine (meets_processAndCommit config (h.deliver p)).seq ?_
    rintro (_ | g) t ht
    · exact .pure ht
    · refine (meets_recordOrRewind config ht g).seq ?_
      rintro (_ | _) t ⟨ht, hx⟩
      · exact .pure ht
      · exact .bind (meets_commit_of_inv ht (hx rfl) (fun _ ht => .pure ht)
          (fun _ _ => .of_commitFailed) fun _ ht => ht)

/-! ## Whole runs -/

theorem inv_init : Inv init where
  sound := ⟨always_nil, always_nil, always_nil⟩
  committed_le _ := le_rfl
  covered _ hy := absurd hy (Nat.not_lt_zero _)
  outstanding _ := nofun

theorem Inv.next (log : Log V) (h : Inv s) (step : Step) : Inv (next config log s step) := by
  cases step with
  | restart => exact h.restart
  | call script =>
    have hc := meets_runWorkerOnce config log h script
    change Inv (proceed (runWorkerOnce config log script s))
    generalize runWorkerOnce config log script s = r at hc
    obtain ⟨_ | e | _, rest, t⟩ := r
    · exact hc
    · cases e with
      | commitFailed message => exact hc.2 message rfl
      | _ => exact hc.1
    · exact hc

theorem inv_run (log : Log V) (steps : List Step) : Inv (run config log steps) := by
  refine List.foldlRecOn steps _ inv_init fun s hs step _ => ?_
  exact hs.next config log step

/-- In every run, only messages that were processed or recorded are committed; a message whose
    record failed is delivered again before any later one of its partition; no committed position
    has passed a message that was neither processed nor recorded; and within a delivery `process`
    is called at most four times, and not after a permanent error. -/
theorem worker_run_safe (log : Log V) (steps : List Step) :
    CommitsHandled (run config log steps).history ∧ Redelivers (run config log steps).history ∧
      (∀ x : Slot, x.offset < (run config log steps).consumer.committed x.source →
        Handled x (run config log steps).history) ∧
      BoundsAttempts (run config log steps).history := by
  have h := inv_run config log steps
  refine ⟨h.sound.commits, h.sound.redelivers, fun x hx => ?_, h.sound.attempts⟩
  exact h.covered x (hx.trans_le (h.committed_le _))

end Edr.Worker
