import Edr.Failure.Record
import Edr.Normalize

/-!
# Replaying a failure

`replay_failure` reads the envelope of a failure back and publishes the raw message that is in it to
the raw topic again: the message itself, or its member `raw` where the failure is about a message of
the validated topic. The outcome becomes a new row of the failure.
-/

namespace Edr.FailureSink

open List Interpreter Text

open Process

/-! ## The program -/

/-- `kafka_raw_topic` and `kafka_validated_topic`, which the settings want to be different. -/
structure KafkaTopics where
  raw : String
  validated : String
  raw_ne_validated : raw ≠ validated

structure ProducedMessage where
  topic : String
  key : Bytes
  value : Bytes
  headers : List (String × Bytes)

structure Replaying where
  sink : World
  produced : List ProducedMessage

inductive ReplayError
  | failureNotFound (failureId : UUID)
  | sink (error : SinkError)

abbrev Replay := Process Reply Replaying ReplayError

def onSink {α : Type} (p : Sink α) : Replay α :=
  p.within Replaying.sink (fun w s => { s with sink := w }) .sink

def Replaying.deliver (s : Replaying) (message : ProducedMessage) : Replaying :=
  { s with produced := s.produced ++ [message] }

/-- `KafkaProducer.publish` to a topic of the settings: whether the broker has acknowledged the
    message. It may have got one that it did not acknowledge. -/
def publish (topic : String) (key : Text) (value : Bytes) (headers : List (String × Bytes)) :
    Replay Bool := do
  let key ← onSink (ofExcept (encodeText key))
  call fun reply s =>
    match reply with
    | .ok => (.ok true, s.deliver ⟨topic, key, value, headers⟩)
    | .failed _ carriedOut =>
      (.ok false, if carriedOut then s.deliver ⟨topic, key, value, headers⟩ else s)

/-- The row of a failure after a replay: neither of the two statuses is `REPROCESSED`. -/
def replayedRow (failure : FailureRow) (status : FailureStatus) (outcome : String)
    (replayedAt : Time) : FailureRow :=
  let replayedAt := max replayedAt (failure.updatedAt + 1)
  { failure with
    status
    replayCount := failure.replayCount + 1
    lastReplayedAt := some replayedAt
    reprocessOutcome := some outcome
    resolvedAt := none
    updatedAt := replayedAt }

def appendReplayResult (failure : FailureRow) (status : FailureStatus) (outcome : String)
    (replayedAt : Time) : Sink Unit :=
  insert (replayedRow failure status outcome replayedAt)

/-- `str(failure_id).encode()`: there are digits and hyphens only. -/
def encodedId (failureId : UUID) : Bytes :=
  (ofString (uuidText failureId)).flatMap Utf8.encodeChar

section

variable {F : Type} (py : Interpreter F) (topics : KafkaTopics) (text : ReplayError → String)

/-- `value == text`. -/
def isText (v : Json F) (s : String) : Bool :=
  match v with
  | .string t => t = ofString s
  | .null | .bool _ | .int _ | .float _ | .array _ | .object _ => false

/-- The raw message of an envelope. -/
def rawMessageOf (envelope : Json F) : Except PyError (Json F) := do
  let sourceMessage ← envelope.subscript "message"
  let sourceTopic ← envelope.subscript "sourceTopic"
  if isText sourceTopic topics.validated then
    sourceMessage.subscript "raw"
  else
    return sourceMessage

/-- The `try` of `_replay_failure_unlocked`. -/
def publishAgain (failureId : UUID) (failure : FailureRow) (now : Time) : Replay Unit := do
  let envelope ← onSink (loadVerified py failure now)
  let rawMessage ← onSink (ofExcept (rawMessageOf topics envelope))
  let endpointId ← onSink (ofExcept (rawMessage.subscript "endpointId"))
  let value ← onSink (ofExcept (py.canonicalJson rawMessage))
  let acknowledged ← publish topics.raw (py.str endpointId) value
    [("replay_failure_id", encodedId failureId)]
  if acknowledged then
    pure ()
  else
    raise (.sink (.runtimeError "Kafka broker did not acknowledge replay"))

/-- `_replay_failure_unlocked`; `text` is `str(error)`. -/
def replayFailureUnlocked (failureId : UUID) (now : Time) : Replay Unit := do
  match ← onSink (latest failureId) with
  | none => raise (.failureNotFound failureId)
  | some failure =>
    (publishAgain py topics failureId failure now).handle fun error => do
      onSink (appendReplayResult failure .reprocessFailed (text error) now)
      raise error
    onSink (appendReplayResult failure .replayPublished "telemetry.raw broker acknowledged" now)

/-- The services after replays at these times, each with the answers that it gets. -/
def replays (failureId : UUID) (runs : List (Time × List Reply)) (s : Replaying) : Replaying :=
  runs.foldl (fun s run => (replayFailureUnlocked py topics text failureId run.1 run.2 s).2.2) s

end

/-! ## What a failure holds -/

variable {F : Type} {py : Interpreter F} {topics : KafkaTopics} {text : ReplayError → String}
  {m : ConsumedMessage Bytes} {failure : FailureRecord} {v raw e : Json F} {value payload : Bytes}
  {w : World} {s : Replaying} {failureId : UUID} {row : FailureRow} {now t : Time}
  {r : NormalizedEvent F}

/-- The raw message of what the payload decodes to is this one, up to the order of keys. -/
def Holds (py : Interpreter F) (topics : KafkaTopics) (raw : Json F) (payload : Bytes) : Prop :=
  ∀ e x, decodePayload py payload = .ok e → rawMessageOf topics e = .ok x → raw.Alike x

/-- What there is of the failure is about the raw message, whatever became of its replays. -/
structure Quarantined (py : Interpreter F) (topics : KafkaTopics) (failureId : UUID) (raw : Json F)
    (w : World) : Prop where
  object : ∀ o, w.objects (objectKey failureId) = some o → Holds py topics raw o.body
  row : ∀ row ∈ w.rowsOf failureId, row.payloadObjectKey = objectKey failureId

theorem Traces.quarantined (h : Traces py failureId payload w)
    (hpayload : Holds py topics raw payload) :
    Quarantined py topics failureId raw w where
  object o ho := by
    rw [h.object o ho]
    exact hpayload
  row row hrow := (h.row row hrow).2.1

theorem Untouched.quarantined (h : Untouched failureId w) :
    Quarantined py topics failureId raw w where
  object := by
    rw [h.object]
    exact fun _ ho => by cases ho
  row := by
    rw [h.row]
    exact fun _ hr => absurd hr not_mem_nil

theorem Quarantined.insert (h : Quarantined py topics failureId raw w)
    (hid : row.failureId = failureId) (hkey : row.payloadObjectKey = objectKey failureId) :
    Quarantined py topics failureId raw (w.insert row) where
  object := h.object
  row row' hrow' := by
    rw [← hid, World.rowsOf_insert, hid, mem_append, mem_singleton] at hrow'
    rcases hrow' with hrow' | rfl
    · exact h.row row' hrow'
    · exact hkey

/-- The services are left as they were. -/
def unchanged {α : Type} (w : World) (p : α → Prop) : Post World SinkError α :=
  ⟨fun a w' => p a ∧ w' = w, fun _ w' => w' = w, fun w' => w' = w⟩

theorem meets_loadVerified (h : Quarantined py topics failureId raw w)
    (hrow : row ∈ w.rowsOf failureId) :
    (loadVerified py row now).Meets
      (unchanged w fun e => ∀ x, rawMessageOf topics e = .ok x → raw.Alike x) w := by
  refine .ite (fun _ => .raise rfl) fun _ => ?_
  refine .ite (fun _ => .raise rfl) fun _ => ?_
  refine .bind (meets_query rfl (fun _ => rfl) fun body hbody => ?_)
  refine .ite (fun _ => .raise rfl) fun _ => ?_
  refine .ite (fun _ => .raise rfl) fun _ => ?_
  refine meets_ofExcept (fun _ => rfl) fun e he => ⟨fun x hx => ?_, rfl⟩
  rw [h.row row hrow] at hbody
  rcases ho : w.objects (objectKey failureId) with _ | o <;> rw [ho] at hbody
  · cases hbody
  · obtain rfl := Except.ok.inj hbody
    exact h.object o ho e x he hx

/-! ## What a replay publishes -/

/-- The message is the raw one, on the raw topic. -/
def Republished (py : Interpreter F) (topics : KafkaTopics) (raw : Json F)
    (message : ProducedMessage) : Prop :=
  message.topic = topics.raw ∧ py.loads message.value = .ok raw.canon

/-- The failure is about the raw message, and nothing but it has been published. -/
structure Faithful (py : Interpreter F) (topics : KafkaTopics) (failureId : UUID) (raw : Json F)
    (s : Replaying) : Prop where
  quarantined : Quarantined py topics failureId raw s.sink
  produced : ∀ message ∈ s.produced, Republished py topics raw message

def faithfully {α : Type} (py : Interpreter F) (topics : KafkaTopics) (failureId : UUID)
    (raw : Json F) : Post Replaying ReplayError α :=
  ⟨fun _ => Faithful py topics failureId raw, fun _ => Faithful py topics failureId raw,
    Faithful py topics failureId raw⟩

theorem loads_of_alike {x : Json F} {bytes : Bytes} (h : raw.Alike x)
    (hx : py.canonicalJson x = .ok bytes) : py.loads bytes = .ok raw.canon := by
  rw [canonicalJson_eq_ok] at hx
  obtain ⟨hdepth, hfits, -⟩ := (Json.canonicalJson_eq_some.1 hx).1
  rw [loads, h.canon_eq]
  exact Json.loads_canonicalJson hx hdepth hfits h.distinct_right

section

variable {α : Type} {Q : Post Replaying ReplayError α}

theorem meets_onSink_unchanged {p : Sink α} {P : α → Prop} (hp : p.Meets (unchanged s.sink P) s.sink)
    (hreturned : ∀ a, P a → Q.returned a s) (hraised : ∀ error, Q.raised error s)
    (hstopped : Q.stopped s) : (onSink p).Meets Q s := by
  refine .within (hp.mono ?_ ?_ ?_)
  · rintro a _ ⟨ha, rfl⟩
    exact hreturned a ha
  · rintro error _ rfl
    exact hraised _
  · rintro _ rfl
    exact hstopped

theorem meets_onSink_ofExcept {x : Except PyError α} (hreturned : ∀ a, x = .ok a → Q.returned a s)
    (hraised : ∀ error, Q.raised error s) (hstopped : Q.stopped s) :
    (onSink (ofExcept x)).Meets Q s :=
  meets_onSink_unchanged
    (meets_ofExcept (fun _ => rfl) fun _ ha => ⟨ha, rfl⟩) hreturned hraised hstopped

end

section

variable (h : Faithful py topics failureId raw s)

include h

theorem Faithful.deliver {message : ProducedMessage} (hm : Republished py topics raw message) :
    Faithful py topics failureId raw (s.deliver message) where
  quarantined := h.quarantined
  produced := by
    intro message' hmessage'
    rcases mem_append.1 hmessage' with hold | hnew
    · exact h.produced message' hold
    · rwa [mem_singleton.1 hnew]

theorem meets_publish {bytes : Bytes} (hbytes : py.loads bytes = .ok raw.canon) (key : Text)
    (headers : List (String × Bytes)) :
    (publish topics.raw key bytes headers).Meets (faithfully py topics failureId raw) s := by
  refine .bind (meets_onSink_ofExcept (fun key _ => ?_) (fun _ => h) h)
  have hdelivered : Faithful py topics failureId raw (s.deliver ⟨topics.raw, key, bytes, headers⟩) :=
    h.deliver ⟨rfl, hbytes⟩
  refine .call h fun reply => ?_
  rcases reply with _ | ⟨_, _ | _⟩
  · exact hdelivered
  · exact h
  · exact hdelivered

theorem meets_publishAgain (hrow : row ∈ s.sink.rowsOf failureId) :
    (publishAgain py topics failureId row now).Meets (faithfully py topics failureId raw) s := by
  have hload : (loadVerified py row now).Meets _ s.sink := meets_loadVerified h.quarantined hrow
  refine .bind (meets_onSink_unchanged hload (fun e hraw => ?_) (fun _ => h) h)
  refine .bind (meets_onSink_ofExcept (fun x hx => ?_) (fun _ => h) h)
  refine .bind (meets_onSink_ofExcept (fun endpointId _ => ?_) (fun _ => h) h)
  refine .bind (meets_onSink_ofExcept (fun bytes hbytes => ?_) (fun _ => h) h)
  have hpublish := meets_publish h (loads_of_alike (hraw x hx) hbytes) (py.str endpointId)
    [("replay_failure_id", encodedId failureId)]
  exact hpublish.seq fun _ s' hs' => .ite (fun _ => .pure hs') fun _ => .raise hs'

theorem meets_appendReplayResult {status : FailureStatus} {outcome : String}
    {Q : Post Replaying ReplayError Unit} (hid : row.failureId = failureId)
    (hkey : row.payloadObjectKey = objectKey failureId)
    (hreturned : ∀ s', Faithful py topics failureId raw s' → Q.returned () s')
    (hraised : ∀ error s', Faithful py topics failureId raw s' → Q.raised error s')
    (hstopped : Q.stopped s) : (onSink (appendReplayResult row status outcome now)).Meets Q s := by
  have hinserted : Faithful py topics failureId raw
      { s with sink := s.sink.insert (replayedRow row status outcome now) } :=
    ⟨h.quarantined.insert hid hkey, h.produced⟩
  exact .within (meets_service hstopped (hreturned _ hinserted) (fun _ => hraised _ s h)
    fun _ => hraised _ _ hinserted)

theorem meets_replayFailureUnlocked :
    (replayFailureUnlocked py topics text failureId now).Meets
      (faithfully py topics failureId raw) s := by
  have hlatest : (latest failureId).Meets
      (unchanged s.sink (· = s.sink.latest failureId)) s.sink :=
    meets_query rfl (fun _ => rfl) fun _ ha => ⟨(Except.ok.inj ha).symm, rfl⟩
  refine .bind (meets_onSink_unchanged hlatest ?_ (fun _ => h) h)
  rintro _ rfl
  rcases hrow : s.sink.latest failureId with _ | row
  · exact .raise h
  · have hmem := mem_of_latest hrow
    have hid : row.failureId = failureId := by simpa using (mem_filter.1 hmem).2
    have hkey := h.quarantined.row row hmem
    refine .bind (.handle ((meets_publishAgain h hmem).mono ?_ ?_ fun _ hs' => hs'))
    · intro _ s' hs'
      exact meets_appendReplayResult hs' hid hkey (fun _ ht => ht) (fun _ _ ht => ht) hs'
    · -- the error is raised again after the row, and an error of the row in its place
      intro error s' hs'
      exact .bind (meets_appendReplayResult hs' hid hkey (fun _ ht => .raise ht)
        (fun _ _ ht => ht) hs')

theorem Faithful.replays (text : ReplayError → String) (runs : List (Time × List Reply)) :
    Faithful py topics failureId raw (replays py topics text failureId runs s) := by
  induction runs generalizing s with
  | nil => exact h
  | cons run runs ih =>
    exact ih ((meets_replayFailureUnlocked h).final run.2)

end

/-! ## The raw message of an envelope -/

/-- A message of one of the topics that stands for the raw message of these bytes: this message
    itself, or what the storage worker has published about it. -/
inductive Conveys (py : Interpreter F) (topics : KafkaTopics) (value : Bytes)
    (m : ConsumedMessage Bytes) : Prop
  | raw : m.source.topic = topics.raw → m.value = value → Conveys py topics value m
  | validated {raw : Json F} {t : Time} {r : NormalizedEvent F} :
    m.source.topic = topics.validated → py.loads value = .ok raw →
      py.normalizeEvent raw t = .ok r →
      py.canonicalJson (py.validatedMessage r raw) = .ok m.value → Conveys py topics value m

theorem rawMessageOf_envelope : rawMessageOf topics (envelope m failure v) =
    if m.source.topic = topics.validated then v.subscript "raw" else .ok v := by
  have htext : isText (.ofString m.source.topic : Json F) topics.validated =
      decide (m.source.topic = topics.validated) := by
    rw [Json.ofString, isText, decide_eq_decide]
    exact ⟨ofString_injective, congrArg ofString⟩
  change (if isText (.ofString m.source.topic : Json F) topics.validated then _ else _) = _
  rw [htext]
  simp only [decide_eq_true_eq]
  rfl

theorem Conveys.alike {x : Json F} (h : Conveys py topics value m)
    (hvalue : py.loads value = .ok raw) (hv : failureMessage py m.value = .ok v)
    (hx : rawMessageOf topics (envelope m failure v.canon) = .ok x) : raw.Alike x := by
  have hdistinct := (Json.ok_of_loads hvalue).distinct
  rw [rawMessageOf_envelope] at hx
  cases h with
  | raw htopic hm =>
    rw [if_neg fun heq => topics.raw_ne_validated (htopic.symm.trans heq)] at hx
    rw [hm, failureMessage, hvalue] at hv
    obtain rfl := Except.ok.inj hv
    obtain rfl := Except.ok.inj hx
    exact (Json.reordered_canon raw).alike hdistinct
  | @validated raw' t r htopic hvalue' hr hm =>
    obtain rfl := Except.ok.inj (hvalue.symm.trans hvalue')
    rw [if_pos htopic] at hx
    -- the validated message is read with its keys in order, and so is its member `raw`
    have hvalidated := distinct_validatedMessage hdistinct hr
    have hloads := loads_of_alike ⟨rfl, hvalidated, hvalidated⟩ hm
    rw [failureMessage, hloads] at hv
    obtain rfl := Except.ok.inj hv
    have halike := ((Json.reordered_canon _).trans (Json.reordered_canon _)).alike hvalidated
    have hmember : (py.validatedMessage r raw).subscript "raw" = .ok raw := rfl
    obtain ⟨x', hx', hraw⟩ := (subscript_lockstep halike "raw").exists_ok hmember
    rwa [Except.ok.inj (hx.symm.trans hx')]

theorem Conveys.holds (h : Conveys py topics value m) (hvalue : py.loads value = .ok raw)
    (hm : InRange m) (hv : failureMessage py m.value = .ok v)
    (hpayload : deterministicFailurePayload py (envelope m failure v) = .ok payload) :
    Holds py topics raw payload := by
  intro e x he hx
  obtain ⟨hfits, hdistinct, -⟩ := failureMessage_spec hv
  obtain rfl := Except.ok.inj ((decodePayload_payload hm hfits hdistinct hpayload).symm.trans he)
  exact h.alike hvalue hv hx

/-- Whatever the services answer to an attempt to record a message, what it leaves is about the raw
    message. -/
theorem Conveys.quarantined_record (h : Conveys py topics value m)
    (hvalue : py.loads value = .ok raw) (hm : InRange m) (hw : Untouched (idOf py m failure) w)
    (script : List Reply) :
    Quarantined py topics (idOf py m failure) raw (record py m failure script w).2.2 := by
  refine Meets.final ?_ script
  by_cases hencoded : ∃ v payload, failureMessage py m.value = .ok v ∧
      deterministicFailurePayload py (envelope m failure v) = .ok payload
  · obtain ⟨v, payload, hv, hpayload⟩ := hencoded
    have hholds := h.holds hvalue hm hv hpayload
    exact (meets_record (hw.traces payload) hv hpayload).mono
      (fun _ _ ht => ht.quarantined hholds) (fun _ _ ht => ht.quarantined hholds)
      fun _ ht => ht.quarantined hholds
  · -- an attempt that cannot encode the message leaves nothing
    refine Meets.bind (meets_ofExcept (fun _ => hw.quarantined) fun v hv => ?_)
    refine Meets.bind (meets_ofExcept (fun _ => hw.quarantined) fun payload hpayload => ?_)
    exact absurd ⟨v, payload, hv, hpayload⟩ hencoded

/-! ## Replays that are answered -/

variable {x endpointId : Json F} {bytes key : Bytes} {n : Option UInt64}

theorem yields_onSink {α : Type} {p : Sink α} {k : Nat} {a : α} {w' : World}
    (h : p.Yields .ok k s.sink (.returned a) w') :
    (onSink p).Yields .ok k s (.returned a) { s with sink := w' } :=
  .within h

theorem yields_onSink_ofExcept {α : Type} {y : Except PyError α} {a : α} (h : y = .ok a) :
    (onSink (ofExcept y)).Yields .ok 0 s (.returned a) s :=
  yields_onSink (yields_ofExcept h)

/-- What a replay that is answered publishes. -/
def replayOf (topics : KafkaTopics) (failureId : UUID) (key bytes : Bytes) : ProducedMessage :=
  ⟨topics.raw, key, bytes, [("replay_failure_id", encodedId failureId)]⟩

theorem yields_publishAgain
    (hload : (loadVerified py row now).Yields .ok 1 s.sink (.returned e) s.sink)
    (hx : rawMessageOf topics e = .ok x) (hendpoint : x.subscript "endpointId" = .ok endpointId)
    (hbytes : py.canonicalJson x = .ok bytes)
    (hkey : encodeText (py.str endpointId) = .ok key) :
    (publishAgain py topics failureId row now).Yields .ok 2 s (.returned ())
      (s.deliver (replayOf topics failureId key bytes)) := by
  refine .bind (k := 1) (yields_onSink hload) ?_
  refine .bind (k := 1) (yields_onSink_ofExcept hx) ?_
  refine .bind (k := 1) (yields_onSink_ofExcept hendpoint) ?_
  refine .bind (k := 1) (yields_onSink_ofExcept hbytes) ?_
  refine .bind (n := 1) (k := 0) (a := true)
    (.bind (k := 1) (yields_onSink_ofExcept hkey) (.call_ok rfl)) ?_
  exact .pure

theorem yields_replay (text : ReplayError → String) (hrow : s.sink.latest failureId = some row)
    (htry : (publishAgain py topics failureId row now).Yields .ok 2 s (.returned ())
      (s.deliver (replayOf topics failureId key bytes))) :
    (replayFailureUnlocked py topics text failureId now).Yields .ok 4 s (.returned ())
      ⟨s.sink.insert (replayedRow row .replayPublished "telemetry.raw broker acknowledged" now),
        s.produced ++ [replayOf topics failureId key bytes]⟩ := by
  have hlatest : (latest failureId).Yields .ok 1 s.sink (.returned (some row)) s.sink :=
    yields_query (congrArg Except.ok hrow)
  refine .bind (k := 3) (yields_onSink hlatest) ?_
  refine .bind (n := 2) (k := 1) (.handle_returned htry) ?_
  exact yields_onSink yields_insert

theorem latest_recorded (hw : Untouched (idOf py m failure) w) :
    (recorded py m failure v n payload w).latest (idOf py m failure) =
      some (failureRow py m failure v n payload) := by
  have hrows : (recorded py m failure v n payload w).rowsOf
      (failureRow py m failure v n payload).failureId = [failureRow py m failure v n payload] := by
    rw [recorded, World.rowsOf_insert]
    exact congrArg (· ++ [failureRow py m failure v n payload]) hw.row
  exact congrArg (·.foldl World.newer none) hrows

theorem produced_of_record (hm : InRange m) (hw : Untouched (idOf py m failure) w)
    (hv : failureMessage py m.value = .ok v)
    (hpayload : deterministicFailurePayload py (envelope m failure v) = .ok payload)
    (hn : endpointColumn py v = .ok n) (hretryable : failure.retryable)
    (hnow : now < failure.failedAt + retention)
    (hx : rawMessageOf topics (envelope m failure v.canon) = .ok x)
    (hendpoint : x.subscript "endpointId" = .ok endpointId)
    (hbytes : py.canonicalJson x = .ok bytes)
    (hkey : encodeText (py.str endpointId) = .ok key) :
    (replays py topics text (idOf py m failure) [(now, List.replicate 4 .ok)]
      ⟨(record py m failure (.replicate 5 .ok) w).2.2, []⟩).produced =
        [replayOf topics (idOf py m failure) key bytes] := by
  obtain ⟨hfits, hdistinct, -⟩ := failureMessage_spec hv
  have htraces : Traces py _ payload w := hw.traces payload
  obtain ⟨rest, hrecord⟩ := (record_yields htraces hv hpayload hn).run
    (length_replicate).ge fun _ h => eq_of_mem_replicate h
  have hlatest : (recorded py m failure v n payload w).latest _ = some _ := latest_recorded hw
  have hload : (loadVerified py _ now).Yields _ _ _ _ _ :=
    loadVerified_yields htraces.recorded hasObject_recorded hlatest hretryable hnow
      (decodePayload_payload hm hfits hdistinct hpayload)
  have hreplay := yields_replay (s := ⟨recorded py m failure v n payload w, []⟩) text
    hlatest (yields_publishAgain hload hx hendpoint hbytes hkey)
  obtain ⟨rest', hrun⟩ := hreplay.run (length_replicate).ge fun _ h => eq_of_mem_replicate h
  rw [hrecord, replays, foldl_cons, foldl_nil]
  dsimp only
  rw [hrun]
  rfl

/-! ## Identities -/

/-- Every message that carries the event of an accepted message, and every message that a replay of
    it publishes, has the identity of this message. -/
theorem identity_of_replays (py : Interpreter F) (topics : KafkaTopics)
    (text : ReplayError → String) {value : Bytes} {raw : Json F} {t : Time} {r : NormalizedEvent F}
    (hvalue : py.loads value = .ok raw) (hr : py.normalizeEvent raw t = .ok r)
    (hplain : (raw.get "agentId").plain) :
    (∀ raw' t', py.SameEvent raw raw' →
      (py.normalizeEvent raw' t').map (·.identity) = .ok r.identity) ∧
    ∀ (m : ConsumedMessage Bytes) (failure : FailureRecord) (w : World) (script : List Reply)
      (runs : List (Time × List Reply)), Conveys py topics value m → InRange m →
      Untouched (failureIdFor py m failure.consumerName failure.failureStage) w →
      ∀ message ∈ (replays py topics text
          (failureIdFor py m failure.consumerName failure.failureStage) runs
          ⟨(record py m failure script w).2.2, []⟩).produced,
        message.topic = topics.raw ∧ ∀ t', py.identityOf message.value t' = some r.identity := by
  have hdistinct := (Json.ok_of_loads hvalue).distinct
  have hsame (raw' : Json F) (t' : Time) (h : py.SameEvent raw raw') :
      (py.normalizeEvent raw' t').map (·.identity) = .ok r.identity := by
    obtain ⟨r', hr', hidentity⟩ := h.exists_identity hdistinct hr hplain t'
    rw [hr', Except.map, hidentity]
  refine ⟨hsame, fun m failure w script runs hm hrange hw message hmessage => ?_⟩
  have hstart : Faithful py topics (idOf py m failure) raw
      ⟨(record py m failure script w).2.2, []⟩ :=
    ⟨hm.quarantined_record hvalue hrange hw script, nofun⟩
  obtain ⟨htopic, hloads⟩ := (hstart.replays text runs).produced message hmessage
  refine ⟨htopic, fun t' => ?_⟩
  have hcanon := sameEvent_of_reordered (Json.reordered_canon raw) hdistinct hr
  rw [identityOf, hloads]
  exact congrArg Except.toOption (hsame _ t' hcanon)

def defaultTopics : KafkaTopics := ⟨"telemetry.raw", "telemetry.validated", by decide⟩

def replayedMessages (value : Bytes) : List ProducedMessage :=
  let failure := sampleFailure none
  (replays cpython defaultTopics (fun _ => "")
    (failureIdFor cpython (sampleMessage value) failure.consumerName failure.failureStage)
    [(0, List.replicate 4 .ok)]
    ⟨(record cpython (sampleMessage value) failure (.replicate 5 .ok) emptyWorld).2.2,
      []⟩).produced

variable {agentId : Json WrittenFloat}

theorem exists_replayedMessages (h : Small (sampleRaw agentId)) :
    ∃ message, replayedMessages (bytesOf (sampleRaw agentId)) = [message] ∧
      cpython.loads message.value = .ok (sampleRaw agentId).canon := by
  set raw := sampleRaw agentId
  have hloads := loads_bytesOf h
  obtain ⟨hdepth, hfits, hdistinct, hencodable⟩ := h
  have hv : failureMessage cpython (bytesOf raw) = .ok raw := by
    rw [failureMessage, hloads]
  have hrange := inRange_sampleMessage (bytesOf raw)
  obtain ⟨payload, hpayload⟩ : ∃ payload, deterministicFailurePayload cpython
      (envelope (sampleMessage (bytesOf raw)) (sampleFailure none) raw) = .ok payload :=
    (exists_payload_iff hrange hfits).2 ⟨hdepth, hencodable⟩
  have halike := (Json.reordered_canon raw).alike hdistinct
  obtain ⟨bytes, hbytes⟩ : ∃ bytes, cpython.canonicalJson raw.canon = .ok bytes := by
    simp only [← canonicalJson_eq_of_alike halike, canonicalJson_eq_ok, Json.canonicalJson_eq_some]
    exact ⟨_, ⟨hdepth.le, hfits, hencodable⟩, rfl⟩
  have hendpoint : raw.canon.subscript "endpointId" = .ok (.int 7) := by
    rw [Json.subscript_eq_ok, Json.get?_canon hdistinct]
    rfl
  have hx : rawMessageOf defaultTopics (envelope (sampleMessage (bytesOf raw))
      (sampleFailure none) raw.canon) = .ok raw.canon := by
    rw [rawMessageOf_envelope]
    exact if_neg defaultTopics.raw_ne_validated
  have hproduced : replayedMessages (bytesOf raw) = [replayOf _ _ _ bytes] :=
    produced_of_record hrange ⟨rfl, rfl⟩ hv hpayload rfl rfl (by decide) hx hendpoint hbytes rfl
  exact ⟨_, hproduced, loads_of_alike halike hbytes⟩

/-- A message with a text for its agent id is replayed under the same identity. -/
theorem identity_of_replays_text :
    ∃ r, cpython.normalizeEvent (sampleRaw (.ofString "agent-1")) 0 = .ok r ∧
      ∃ message ∈ replayedMessages (bytesOf (sampleRaw (.ofString "agent-1"))),
        ∀ t', cpython.identityOf message.value t' = some r.identity := by
  have hsmall := small_sampleRaw
  have hsome : (cpython.normalizeEvent
      (sampleRaw (.ofString "agent-1")) 0).toOption.isSome := by decide +kernel
  obtain ⟨message, hmessages, -⟩ := exists_replayedMessages hsmall
  have hmem : message ∈ replayedMessages _ := hmessages ▸ mem_singleton_self message
  rcases hr : cpython.normalizeEvent (sampleRaw (.ofString "agent-1")) 0 with error | r
  · rw [hr] at hsome
    cases hsome
  · refine ⟨r, rfl, message, hmem, ?_⟩
    exact ((identity_of_replays cpython defaultTopics (fun _ => "") (loads_bytesOf hsmall) hr
      (by decide)).2 _ _ _ _ _ (.raw rfl rfl) (inRange_sampleMessage _) ⟨rfl, rfl⟩ message hmem).2

/-- An agent id that is an object is another text when the keys of the object are in order. -/
theorem identity_of_objectAgentId :
    ∃ agentId, (cpython.identityOf (bytesOf (sampleRaw agentId)) 0).isSome ∧
      ∃ message ∈ replayedMessages (bytesOf (sampleRaw agentId)),
        cpython.identityOf message.value 0 ≠
          cpython.identityOf (bytesOf (sampleRaw agentId)) 0 := by
  have hsmall : Small (sampleRaw (.object [(ofString "b", .int 1), (ofString "a", .int 2)])) :=
    ⟨by decide, by decide, by decide, by decide⟩
  obtain ⟨message, hmessages, hloads⟩ := exists_replayedMessages hsmall
  have hmem : message ∈ replayedMessages _ := hmessages ▸ mem_singleton_self message
  refine ⟨_, ?_, message, hmem, ?_⟩
  · rw [identityOf, loads_bytesOf hsmall]
    decide +kernel
  · rw [identityOf, identityOf, hloads, loads_bytesOf hsmall]
    decide +kernel

end Edr.FailureSink
