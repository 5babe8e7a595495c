import Edr.Lib.Text
import Edr.Time

/-!
# The verdicts of the collector

`CollectorService.telemetry` gives each event of a batch a verdict. An event is published unless it is
a duplicate, is not valid or is too far in the future, and it is accepted if the broker acknowledges
it. Duplicates are told by the text of `eventId`, which may spell one UUID in several ways.

Before an event is published, its URL is cut to a path and its message encoded. Either may raise, and
then no event of the batch is answered (`Stops`).
-/

namespace Edr.Collector

open List Text

/-! ## The code -/

/-- An event that `EVENT_ADAPTER` has accepted, with the payload of its type. -/
structure TelemetryEvent (P : Type) where
  occurredAt : Time
  payload : P

/-- The time of a call, and what the loop calls, with none where it raises. -/
structure Service (Uuid P : Type) where
  receivedAt : Time
  /-- `UUID`. -/
  uuid : Text → Option Uuid
  /-- `payload.url`, if the event is an `L7Event`. -/
  url : P → Option Text
  /-- The path that `urlsplit` finds. -/
  urlsplit : Text → Option Text
  /-- The assignment to `payload.url`, which pydantic validates. -/
  setUrl : P → Text → Option P
  /-- `canonical_json` of `_raw_message`. -/
  canonicalJson : TelemetryEvent P → Option Bytes

/-- An event of a batch: the text of its `eventId`, what `EVENT_ADAPTER` makes of it, if it does, and
    what the broker answers if the event is published. -/
structure RawEvent (P : Type) where
  eventId : Text
  event : Option (TelemetryEvent P)
  acknowledged : Bool

/-- A verdict on an event that is not accepted. -/
structure RejectedEventDto where
  eventId : Text
  code : String
  message : String
  retryable : Bool
  deriving DecidableEq

/-- The answer to a batch. -/
structure TelemetryBatchData where
  batchId : String
  acceptedEventIds : List Text
  rejectedEvents : List RejectedEventDto
  deriving DecidableEq

/-- An event of a batch, with the events before it. -/
abbrev Placed (P : Type) := List (RawEvent P) × RawEvent P

/-- The events of a batch in their places, where `before` comes before them. -/
def withBefore {P : Type} (before : List (RawEvent P)) : List (RawEvent P) → List (Placed P)
  | [] => []
  | event :: events => (before, event) :: withBefore (before ++ [event]) events

/-- How a call ends without an answer. -/
inductive Failure
  /-- An exception of a library goes through. -/
  | raised
  | serviceUnavailable (message : String)
  deriving DecidableEq

/-- What the loop does with an event. -/
inductive Verdict
  | rejected (code message : String)
  | published (acknowledged : Bool)

/-- The variables of the loop. -/
structure Progress where
  accepted : List Text := []
  rejected : List RejectedEventDto := []
  seen : List Text := []
  publishCandidates : Nat := 0

/-- The lists with an event, and `seen`, which is a set. -/
def Progress.add (s : Progress) (eventId : Text) : Verdict → Progress
  | .rejected code message =>
    { s with
      seen := eventId :: s.seen
      rejected := s.rejected ++ [⟨eventId, code, message, false⟩] }
  | .published true =>
    ⟨s.accepted ++ [eventId], s.rejected, eventId :: s.seen, s.publishCandidates + 1⟩
  | .published false =>
    ⟨s.accepted, s.rejected ++ [⟨eventId, "KAFKA_PUBLISH_FAILED",
      "Kafka broker did not acknowledge the event.", true⟩], eventId :: s.seen,
      s.publishCandidates + 1⟩

/-- The verdicts on all events but those with an id. -/
def Progress.others (id : Text) (s : Progress) : List Text × List RejectedEventDto :=
  (s.accepted.filter (· ≠ id), s.rejected.filter (·.eventId ≠ id))

namespace Service

variable {Uuid P : Type} (c : Service Uuid P)

/-- `_sanitize_event`. -/
def sanitizeEvent (event : TelemetryEvent P) : Option (TelemetryEvent P) :=
  match c.url event.payload with
  | none => some event
  | some url => do
    let path ← c.urlsplit url
    let payload ← c.setUrl event.payload (if path = [] then ofString "/" else path)
    return { event with payload }

/-- The value that is published for an event. -/
def messageOf (event : TelemetryEvent P) : Option Bytes :=
  (c.sanitizeEvent event).bind c.canonicalJson

/-- The body of the loop, up to what it does with the event. -/
def verdict (duplicate : Bool) (raw : RawEvent P) : Except Failure Verdict :=
  if duplicate then .ok (.rejected "DUPLICATE_EVENT_ID" "eventId is duplicated in the batch.")
  else
    match c.uuid raw.eventId, raw.event with
    | some _, some event =>
      if event.occurredAt > c.receivedAt + 5 * 60000 then
        .ok (.rejected "EVENT_TIME_IN_FUTURE" "occurredAt exceeds the allowed future window.")
      else
        match c.messageOf event with
        | none => .error .raised
        | some _ => .ok (.published raw.acknowledged)
    | _, _ => .ok (.rejected "INVALID_EVENT" "Telemetry event is invalid.")

/-- The body of the loop. -/
def judge (s : Progress) (raw : RawEvent P) : Except Failure Progress :=
  (c.verdict (raw.eventId ∈ s.seen) raw).map (s.add raw.eventId)

/-- `CollectorService.telemetry`, from the envelope on. -/
def telemetry (batchId : String) (events : List (RawEvent P)) :
    Except Failure TelemetryBatchData := do
  let s ← events.foldlM c.judge {}
  if s.publishCandidates > 0 ∧ s.accepted = [] then
    .error (.serviceUnavailable "Kafka broker did not acknowledge any telemetry event.")
  else return ⟨batchId, s.accepted, s.rejected⟩

/-! ## Verdicts -/

/-- The event is valid and not too far in the future. -/
def Valid (raw : RawEvent P) : Prop :=
  (c.uuid raw.eventId).isSome ∧ ∃ event ∈ raw.event, event.occurredAt ≤ c.receivedAt + 5 * 60000

/-- There is nothing that keeps the event from being published, if it can be encoded. -/
def Candidate (e : Placed P) : Prop := c.Valid e.2 ∧ ∀ o ∈ e.1, o.eventId ≠ e.2.eventId

/-- The collector cannot make a message of the event. -/
def Unsendable (raw : RawEvent P) : Prop := ∃ event ∈ raw.event, (c.messageOf event).isNone

/-- The event makes the loop raise. -/
def Stops (e : Placed P) : Prop := c.Candidate e ∧ c.Unsendable e.2

/-- The event is accepted. -/
def Taken (e : Placed P) : Prop := c.Candidate e ∧ e.2.acknowledged

instance : DecidablePred c.Valid := fun _ => inferInstanceAs (Decidable (_ ∧ _))

instance : DecidablePred c.Candidate := fun _ => inferInstanceAs (Decidable (_ ∧ _))

instance : DecidablePred c.Unsendable :=
  fun raw => inferInstanceAs (Decidable (∃ event ∈ raw.event, _))

instance : DecidablePred c.Stops := fun _ => inferInstanceAs (Decidable (_ ∧ _))

instance : DecidablePred c.Taken := fun _ => inferInstanceAs (Decidable (_ ∧ _))

/-- The events before the one that makes the loop raise, or all of them. -/
def reached (events : List (RawEvent P)) : List (Placed P) :=
  (withBefore [] events).takeWhile (¬c.Stops ·)

/-- The event should be accepted: no event before it has its UUID. -/
def Due (e : Placed P) : Prop :=
  c.Valid e.2 ∧ (∀ o ∈ e.1, c.uuid o.eventId ≠ c.uuid e.2.eventId) ∧ e.2.acknowledged

instance [DecidableEq Uuid] : DecidablePred c.Due := fun _ => inferInstanceAs (Decidable (_ ∧ _))

/-- There is one verdict for each event, in the order of the events, and those that satisfy `Q` are
    accepted. -/
def Judged (Q : Placed P → Prop) [DecidablePred Q] (events : List (RawEvent P))
    (data : TelemetryBatchData) : Prop :=
  data.acceptedEventIds = ((withBefore [] events).filter Q).map (·.2.eventId) ∧
    data.rejectedEvents.map (·.eventId) = ((withBefore [] events).filter (¬Q ·)).map (·.2.eventId)

variable {before : List (RawEvent P)} {s : Progress} (events : List (RawEvent P)) (batchId : String)

theorem judge_cases (raw : RawEvent P) (hseen : ∀ id, id ∈ s.seen ↔ ∃ o ∈ before, o.eventId = id) :
    c.Stops (before, raw) ∧ c.judge s raw = .error .raised ∨
    ¬c.Stops (before, raw) ∧ ∃ s', c.judge s raw = .ok s' ∧
      (∀ id, id ∈ s'.seen ↔ ∃ o ∈ before ++ [raw], o.eventId = id) ∧
      s'.publishCandidates = s.publishCandidates + (if c.Candidate (before, raw) then 1 else 0) ∧
      s'.accepted = s.accepted ++ (if c.Taken (before, raw) then [raw.eventId] else []) ∧
      s'.rejected.map (·.eventId) = s.rejected.map (·.eventId) ++
        (if c.Taken (before, raw) then [] else [raw.eventId]) := by
  have hcandidate : c.Candidate (before, raw) ↔ c.Valid raw ∧ raw.eventId ∉ s.seen := by
    simp [Candidate, hseen]
  have hvalid : c.Valid raw ↔ ∃ u event, c.uuid raw.eventId = some u ∧
      raw.event = some event ∧ ¬event.occurredAt > c.receivedAt + 5 * 60000 := by
    simp [Valid, Option.isSome_iff_exists]
  have hunsendable : c.Unsendable raw ↔
      ∃ event, raw.event = some event ∧ c.messageOf event = none := by
    simp [Unsendable]
  simp only [Stops, Taken, hcandidate, hvalid, hunsendable, judge]
  fun_cases c.verdict (raw.eventId ∈ s.seen) raw
  all_goals
    simp only [Except.map, Progress.add, mem_append, mem_cons]
    grind [Progress.add]

theorem foldlM_judge (hseen : ∀ id, id ∈ s.seen ↔ ∃ o ∈ before, o.eventId = id) :
    (∃ e ∈ withBefore before events, c.Stops e) ∧ events.foldlM c.judge s = .error .raised ∨
    (∀ e ∈ withBefore before events, ¬c.Stops e) ∧
      ∃ s', events.foldlM c.judge s = .ok s' ∧
      s'.publishCandidates = s.publishCandidates +
        ((withBefore before events).filter c.Candidate).length ∧
      s'.accepted = s.accepted ++ ((withBefore before events).filter c.Taken).map (·.2.eventId) ∧
      s'.rejected.map (·.eventId) = s.rejected.map (·.eventId) ++
        ((withBefore before events).filter (¬c.Taken ·)).map (·.2.eventId) := by
  induction events generalizing before s with
  | nil => exact .inr ⟨nofun, s, rfl, by simp [withBefore]⟩
  | cons raw events ih =>
    rw [foldlM_cons, withBefore]
    obtain ⟨hstops, heq⟩ | ⟨hgoes, s', heq, hseen', hcandidates, haccepted, hrejected⟩ :=
      c.judge_cases raw hseen
    · exact .inl ⟨⟨_, mem_cons_self, hstops⟩, by rw [heq]; rfl⟩
    · rw [heq]
      obtain ⟨⟨e, he, hstops⟩, herror⟩ | ⟨hall, t, hok, ihcandidates, ihaccepted, ihrejected⟩ :=
        ih hseen'
      · exact .inl ⟨⟨e, mem_cons_of_mem _ he, hstops⟩, herror⟩
      · refine .inr ⟨forall_mem_cons.2 ⟨hgoes, hall⟩, t, hok, ?_⟩
        simp only [filter_cons, decide_not, Bool.not_eq_true', decide_eq_true_eq,
          decide_eq_false_iff_not, ihcandidates, ihaccepted, ihrejected, hcandidates, haccepted,
          hrejected]
        split_ifs <;> grind

theorem telemetry_cases :
    (∃ e ∈ withBefore [] events, c.Stops e) ∧ c.telemetry batchId events = .error .raised ∨
    (∀ e ∈ withBefore [] events, ¬c.Stops e) ∧
    ((∃ message, c.telemetry batchId events = .error (.serviceUnavailable message)) ∧
        (∃ e ∈ withBefore [] events, c.Candidate e) ∧ (∀ e ∈ withBefore [] events, ¬c.Taken e) ∨
      ∃ data, c.telemetry batchId events = .ok data ∧
        ((∃ e ∈ withBefore [] events, c.Candidate e) → ∃ e ∈ withBefore [] events, c.Taken e) ∧
        data.batchId = batchId ∧ Judged c.Taken events data) := by
  have hseen : ∀ id, id ∈ ({} : Progress).seen ↔ ∃ o ∈ ([] : List (RawEvent P)), o.eventId = id := by
    simp
  obtain ⟨hstops, herror⟩ | ⟨hgoes, s, hok, hcandidates, haccepted, hrejected⟩ :=
    c.foldlM_judge events hseen
  · exact .inl ⟨hstops, by rw [telemetry, herror]; rfl⟩
  · have hcandidate : s.publishCandidates > 0 ↔ ∃ e ∈ withBefore [] events, c.Candidate e := by
      simp [hcandidates, length_pos_iff]
    have htaken : s.accepted = [] ↔ ∀ e ∈ withBefore [] events, ¬c.Taken e := by
      simp [haccepted, filter_eq_nil_iff]
    have heq : c.telemetry batchId events =
        if s.publishCandidates > 0 ∧ s.accepted = [] then
          .error (.serviceUnavailable "Kafka broker did not acknowledge any telemetry event.")
        else .ok ⟨batchId, s.accepted, s.rejected⟩ := by
      rw [telemetry, hok]
      rfl
    refine .inr ⟨hgoes, ?_⟩
    rw [heq, ← hcandidate, ← htaken]
    split_ifs with h
    · exact .inl ⟨⟨_, rfl⟩, h⟩
    · refine .inr ⟨_, rfl, fun hpos => ?_, rfl, haccepted, hrejected⟩
      simpa using fun hall => h ⟨hpos, htaken.2 hall⟩

theorem Due.taken {e : Placed P} (h : c.Due e) : c.Taken e :=
  ⟨⟨h.1, fun o ho heq => h.2.1 o ho (by rw [heq])⟩, h.2.2⟩

theorem mem_of_mem_withBefore {o : RawEvent P} (ho : o ∈ before) :
    ∀ e ∈ withBefore before events, o ∈ e.1 := by
  induction events generalizing before with
  | nil => simp [withBefore]
  | cons event events ih => exact forall_mem_cons.2 ⟨ho, ih (mem_append_left _ ho)⟩

theorem pairwise_withBefore (before : List (RawEvent P)) :
    (withBefore before events).Pairwise fun e e' => e.2 ∈ e'.1 := by
  induction events generalizing before with
  | nil => exact .nil
  | cons event events ih =>
    exact .cons (mem_of_mem_withBefore events (mem_append_right _ mem_cons_self)) (ih _)

theorem nodup_of_judged_due [DecidableEq Uuid] {data : TelemetryBatchData}
    (h : Judged c.Due events data) : (data.acceptedEventIds.map c.uuid).Nodup := by
  rw [h.1, map_map]
  refine pairwise_map.2 (((pairwise_withBefore events []).filter _).imp_of_mem fun _ he' hmem => ?_)
  exact (of_decide_eq_true (mem_filter.1 he').2).2.1 _ hmem

/-- The verdicts are those by UUID if and only if no event is accepted after another one with its
    UUID. -/
theorem judged_due_iff [DecidableEq Uuid] {data : TelemetryBatchData}
    (h : Judged c.Taken events data) : Judged c.Due events data ↔
      ∀ e ∈ withBefore [] events, c.Taken e → c.Due e := by
  constructor
  · intro hdue e he htaken
    have hsublist : (withBefore [] events).filter c.Due <+ (withBefore [] events).filter c.Taken :=
      monotone_filter_right _ fun e he => by simpa using Due.taken c (by simpa using he)
    have hlength := congrArg length (hdue.1.symm.trans h.1)
    rw [length_map, length_map] at hlength
    have hmem : e ∈ (withBefore [] events).filter c.Taken := by simp [he, htaken]
    rw [← hsublist.eq_of_length hlength] at hmem
    simpa using (mem_filter.1 hmem).2
  · intro hall
    have hiff : ∀ e ∈ withBefore [] events, c.Due e ↔ c.Taken e :=
      fun e he => ⟨Due.taken c, hall e he⟩
    refine ⟨h.1.trans ?_, h.2.trans ?_⟩
    all_goals
      congr 1
      exact filter_congr fun e he => by simp [hiff e he]

/-- Two loops have the same about all ids but one. -/
structure SameOthers (id : Text) (s t : Progress) : Prop where
  accepted : s.accepted.filter (· ≠ id) = t.accepted.filter (· ≠ id)
  rejected : s.rejected.filter (·.eventId ≠ id) = t.rejected.filter (·.eventId ≠ id)
  seen : ∀ id', id' ≠ id → (id' ∈ s.seen ↔ id' ∈ t.seen)

namespace SameOthers

variable {c} {id : Text} {t : Progress}

/-- Both loops go on in this way with another event, or both raise. -/
theorem foldlM (h : SameOthers id s t) {events : List (RawEvent P)}
    (hids : ∀ raw ∈ events, raw.eventId ≠ id) :
    (events.foldlM c.judge s).map (·.others id) = (events.foldlM c.judge t).map (·.others id) := by
  induction events generalizing s t with
  | nil => exact congrArg Except.ok (Prod.ext h.accepted h.rejected)
  | cons raw events ih =>
    rw [forall_mem_cons] at hids
    rw [foldlM_cons, foldlM_cons, judge, judge]
    simp only [h.seen _ hids.1]
    cases c.verdict (raw.eventId ∈ t.seen) raw with
    | error => rfl
    | ok v =>
      have hseen (id') (hid' : id' ≠ id) :
          id' ∈ raw.eventId :: s.seen ↔ id' ∈ raw.eventId :: t.seen := by
        rw [mem_cons, mem_cons, h.seen id' hid']
      refine ih ?_ hids.2
      rcases v with _ | _ | _
      all_goals
        refine ⟨?_, ?_, hseen⟩ <;> simp only [Progress.add, filter_append, h.accepted, h.rejected]

/-- What an event adds is about its own id. -/
theorem add (s : Progress) (v : Verdict) : SameOthers id (s.add id v) s := by
  rcases v with _ | _ | _ <;> constructor <;> simp +contextual [Progress.add]

end SameOthers

/-- An event of which the collector can make a message, if it is a candidate, changes no verdict of
    the others. -/
theorem foldlM_judge_others {raw : RawEvent P} (hraw : c.Valid raw → ¬c.Unsendable raw)
    {before after : List (RawEvent P)} (hids : ∀ o ∈ before ++ after, o.eventId ≠ raw.eventId) :
    ((before ++ raw :: after).foldlM c.judge {}).map (·.others raw.eventId) =
      ((before ++ after).foldlM c.judge {}).map (·.others raw.eventId) := by
  rw [foldlM_append, foldlM_append]
  cases before.foldlM c.judge {} with
  | error => rfl
  | ok s =>
    change Except.map _ ((raw :: after).foldlM _ s) = Except.map _ (after.foldlM _ s)
    rw [foldlM_cons, judge]
    cases hverdict : c.verdict (raw.eventId ∈ s.seen) raw with
    | ok v => exact (SameOthers.add s v).foldlM fun o ho => hids o (mem_append_right _ ho)
    | error =>
      -- the loop raises at a candidate only, and of this one there is a message
      refine absurd hverdict ?_
      fun_cases c.verdict (raw.eventId ∈ s.seen) raw
      all_goals simp_all [Valid, Unsendable]

end Service

end Edr.Collector
