import Edr.Lib.Fold
import Edr.Lib.Json.Bytes
import Edr.Python

/-!
# Normalisation of messages

`normalize_event` as it works on the JSON value of a message: it subscripts the value, and what it
finds is taken for a text, a number or a dictionary as it is used. `RawMessage` of `Edr.Event` has
the fields of a message that passes.
-/

namespace Edr

open List Lockstep Text

/-! ## Dictionaries -/

section

variable {F : Type}

/-- `value.get(key)` of a value that may not be a dictionary. -/
def Json.dictGet (v : Json F) (key : String) : Except PyError (Json F) :=
  match v with
  | .object members => .ok ((Json.object members).get key)
  | .null | .bool _ | .int _ | .float _ | .string _ | .array _ => .error .attributeError

/-- `value is None`. -/
def Json.isNull : Json F → Bool
  | .null => true
  | .bool _ | .int _ | .float _ | .string _ | .array _ | .object _ => false

/-- `isinstance(value, dict)`. -/
def Json.isObject : Json F → Bool
  | .object _ => true
  | .null | .bool _ | .int _ | .float _ | .string _ | .array _ => false

theorem Json.subscript_eq (v : Json F) (key : String) : v.subscript key =
    if v.isObject then
      match v.get? (.ofString key) with
      | some w => .ok w
      | none => .error .keyError
    else .error .typeError := by
  cases v <;> rfl

theorem Json.dictGet_eq (v : Json F) (key : String) : v.dictGet key =
    if v.isObject then .ok (v.get key) else .error .attributeError := by
  cases v <;> rfl

theorem Json.subscript_eq_ok {v w : Json F} {key : String} :
    v.subscript key = .ok w ↔ v.get? (Text.ofString key) = some w := by
  cases v with
  | object members =>
    rw [Json.subscript]
    rcases (Json.object members).get? (Text.ofString key) with _ | u <;> simp
  | null | bool | int | float | string | array => simp [Json.subscript, Json.get?]

theorem Json.get_of_subscript {v w : Json F} {key : String} (h : v.subscript key = .ok w) :
    v.get key = w := by
  rw [Json.get, Json.subscript_eq_ok.1 h]
  rfl

theorem Json.distinct_get {v : Json F} (h : v.distinct) (key : String) : (v.get key).distinct := by
  rw [Json.get]
  rcases hget : v.get? (.ofString key) with _ | w
  · rfl
  · exact Json.distinct_of_get? h hget

theorem Json.Alike.get {v w : Json F} (h : v.Alike w) (key : String) :
    (v.get key).Alike (w.get key) := by
  rcases h.get? (.ofString key) with ⟨v', w', hv, hw, halike⟩ | ⟨hv, hw⟩ <;>
    rw [Json.get, Json.get, hv, hw]
  · exact halike
  · exact ⟨rfl, rfl, rfl⟩

end

/-! ## `normalize_event` -/

/-- The columns that are members of the payload, before `dns_answers_json`. -/
def payloadColumns : List (String × String) :=
  [("process_name", "processName"), ("process_path", "processPath"), ("pid", "pid"),
    ("ppid", "ppid"), ("command_line", "commandLine"), ("user_name", "userName"),
    ("file_path", "filePath"), ("file_action", "action"), ("file_hash_sha256", "sha256"),
    ("remote_ip", "remoteIp"), ("remote_domain", "remoteDomain"), ("remote_port", "remotePort"),
    ("protocol", "protocol"), ("dns_query", "query"), ("dns_record_type", "recordType"),
    ("dns_response_code", "responseCode")]

/-- The columns that are members of the payload, after `dns_answers_json`. -/
def payloadColumnsL7 : List (String × String) :=
  [("l7_protocol", "l7Protocol"), ("http_method", "httpMethod"), ("http_host", "httpHost"),
    ("url", "url"), ("http_status_code", "httpStatusCode"), ("http_user_agent", "httpUserAgent"),
    ("tls_sni", "tlsSni"), ("tls_version", "tlsVersion"),
    ("tls_certificate_subject", "tlsCertificateSubject"),
    ("tls_certificate_issuer", "tlsCertificateIssuer"),
    ("tls_certificate_sha256", "tlsCertificateSha256")]

/-- What `normalize_event` returns; the columns of `payload` are in the tables above, and
    `created_at` and `updated_at` are `ingestedAt`. -/
structure NormalizedEvent (F : Type) where
  eventId : UUID
  batchId : UUID
  endpointId : Int
  agentId : Text
  hostname : Text
  osType : Text
  ipAddress : Json F
  eventType : Text
  occurredAt : Time
  ingestedAt : Time
  payload : Json F
  dnsAnswersJson : Option Text
  rawPayload : Text
  payloadSha256 : String
  schemaVersion : Int

def NormalizedEvent.identity {F : Type} (r : NormalizedEvent F) : UUID × Int × Text × String :=
  (r.eventId, r.endpointId, r.agentId, r.payloadSha256)

namespace Interpreter

variable {F : Type} (py : Interpreter F)

/-- `bytes.decode()`. -/
def decodeText (bytes : Bytes) : Except PyError Text :=
  match decodeUtf8 bytes with
  | some text => if text.any CodePoint.isSurrogate then .error .valueError else .ok text
  | none => .error .valueError

/-- `text.encode()`. -/
def encodeText (text : Text) : Except PyError Bytes :=
  match encodeUtf8 text with
  | some bytes => .ok bytes
  | none => .error .valueError

/-- `parse_timestamp`: what is not a string has no `replace`. -/
def timestamp : Json F → Except PyError Time
  | .string text =>
    match py.parseTimestamp text with
    | some t => .ok t
    | none => .error .valueError
  | .null | .bool _ | .int _ | .float _ | .array _ | .object _ => .error .attributeError

def identityPayload (eventType occurredAt payload : Json F) : Json F :=
  .object [(ofString "eventType", eventType), (ofString "occurredAt", occurredAt),
    (ofString "payload", payload)]

def answersText (answers : Json F) : Except PyError (Option Text) :=
  if answers.isNull then
    .ok none
  else do
    let bytes ← py.canonicalJson answers
    return some (← decodeText bytes)

def normalizeEvent (raw : Json F) (ingestedAt : Time) : Except PyError (NormalizedEvent F) := do
  let event ← raw.subscript "event"
  let payload ← event.subscript "payload"
  let eventType ← event.subscript "eventType"
  let occurredAt ← event.subscript "occurredAt"
  let rawPayload ← decodeText (← py.canonicalJson (identityPayload eventType occurredAt payload))
  let answers ← payload.dictGet "answers"
  let eventId ← py.uuid (← event.subscript "eventId")
  let batchId ← py.uuid (← raw.subscript "batchId")
  let endpointId ← py.int (← raw.subscript "endpointId")
  let agentId ← raw.subscript "agentId"
  let hostname ← raw.subscript "hostname"
  let osType ← raw.subscript "osType"
  let occurred ← py.timestamp occurredAt
  let dnsAnswersJson ← py.answersText answers
  let digested ← encodeText rawPayload
  let schemaVersion ← py.int (← raw.subscript "schemaVersion")
  return {
    eventId, batchId, endpointId
    agentId := py.str agentId
    hostname := py.str hostname
    osType := py.str osType
    ipAddress := raw.get "ipAddress"
    eventType := py.str eventType
    occurredAt := occurred
    ingestedAt
    payload
    dnsAnswersJson
    rawPayload
    payloadSha256 := py.sha256 digested
    schemaVersion }

def identityOf (value : Bytes) (ingestedAt : Time) : Option (UUID × Int × Text × String) :=
  match py.loads value with
  | .ok raw => ((py.normalizeEvent raw ingestedAt).map (·.identity)).toOption
  | .error _ => none

/-- `json_ready` of a record. -/
def jsonReady (r : NormalizedEvent F) : Json F :=
  let column (names : String × String) := (names.1, r.payload.get names.2)
  let time (t : Time) : Json F := .string (py.isoFormat t)
  let columns : List (String × Json F) :=
    [("event_id", .ofString (uuidText r.eventId)), ("batch_id", .ofString (uuidText r.batchId)),
      ("endpoint_id", .int r.endpointId), ("agent_id", .string r.agentId),
      ("hostname", .string r.hostname), ("os_type", .string r.osType), ("ip_address", r.ipAddress),
      ("event_type", .string r.eventType), ("occurred_at", time r.occurredAt),
      ("ingested_at", time r.ingestedAt)] ++ payloadColumns.map column ++
    [("dns_answers_json", (r.dnsAnswersJson.map Json.string).getD .null)] ++
    payloadColumnsL7.map column ++
    [("raw_payload", .string r.rawPayload), ("payload_sha256", .ofString r.payloadSha256),
      ("schema_version", .int r.schemaVersion), ("created_at", time r.ingestedAt),
      ("updated_at", time r.ingestedAt), ("is_delete", .int 0)]
  .object (columns.map fun c => (ofString c.1, c.2))

/-- What `EventStorageWorker._process` publishes about a message that it has stored. -/
def validatedMessage (r : NormalizedEvent F) (raw : Json F) : Json F :=
  .object [(ofString "event", py.jsonReady r), (ofString "raw", raw)]

/-! ## Values that are alike -/

section

variable {py} {v w : Json F}

theorem isObject_eq_of_alike (h : v.Alike w) : v.isObject = w.isObject :=
  h.congr (fun _ _ => rfl) fun _ _ => rfl

theorem subscript_lockstep (h : v.Alike w) (key : String) :
    Lockstep Json.Alike (v.subscript key) (w.subscript key) := by
  rw [Json.subscript_eq, Json.subscript_eq, ← isObject_eq_of_alike h]
  cases v.isObject with
  | false => rfl
  | true =>
    rcases h.get? (.ofString key) with ⟨v', w', hv, hw, halike⟩ | ⟨hv, hw⟩ <;> rw [hv, hw]
    · exact halike
    · rfl

theorem dictGet_lockstep (h : v.Alike w) (key : String) :
    Lockstep Json.Alike (v.dictGet key) (w.dictGet key) := by
  rw [Json.dictGet_eq, Json.dictGet_eq, ← isObject_eq_of_alike h]
  cases v.isObject with
  | false => rfl
  | true => exact h.get key

theorem uuid_eq_of_alike (h : v.Alike w) : py.uuid v = py.uuid w :=
  h.congr (fun _ _ => rfl) fun _ _ => rfl

theorem int_eq_of_alike (h : v.Alike w) : py.int v = py.int w :=
  h.congr (fun _ _ => rfl) fun _ _ => rfl

theorem timestamp_eq_of_alike (h : v.Alike w) : py.timestamp v = py.timestamp w :=
  h.congr (fun _ _ => rfl) fun _ _ => rfl

theorem canonicalJson_eq_of_alike (h : v.Alike w) : py.canonicalJson v = py.canonicalJson w := by
  rw [canonicalJson, canonicalJson, h.canonicalJson_eq, h.depth_eq]

theorem alike_identityPayload {eventType eventType' occurredAt occurredAt' payload payload' : Json F}
    (htype : eventType.Alike eventType') (htime : occurredAt.Alike occurredAt')
    (hpayload : payload.Alike payload') :
    (identityPayload eventType occurredAt payload).Alike
      (identityPayload eventType' occurredAt' payload') := by
  have hkeys : (["eventType", "occurredAt", "payload"].map ofString).Nodup := by decide
  refine ⟨?_, Json.distinct_object.2 ⟨hkeys, ?_⟩, Json.distinct_object.2 ⟨hkeys, ?_⟩⟩
  · rw [identityPayload, identityPayload, Json.canon_object, Json.canon_object]
    simp [htype.canon_eq, htime.canon_eq, hpayload.canon_eq]
  · simp only [forall_mem_cons]
    exact ⟨htype.distinct_left, htime.distinct_left, hpayload.distinct_left,
      nofun⟩
  · simp only [forall_mem_cons]
    exact ⟨htype.distinct_right, htime.distinct_right, hpayload.distinct_right,
      nofun⟩

theorem answersText_eq_of_alike (h : v.Alike w) : py.answersText v = py.answersText w := by
  have hkind : v.isNull = w.isNull := h.congr (fun _ _ => rfl) fun _ _ => rfl
  rw [answersText, answersText, hkind, canonicalJson_eq_of_alike h]

end

/-! ## Messages about one event -/

/-- What two messages have to have in common to be about one event. The batch ids have only to be
    ones. -/
structure SameMessage (raw raw' : Json F) : Prop where
  event : Lockstep Json.Alike (raw.subscript "event") (raw'.subscript "event")
  batchId : Lockstep (fun v w => Lockstep (fun _ _ => True) (py.uuid v) (py.uuid w))
    (raw.subscript "batchId") (raw'.subscript "batchId")
  endpointId : Lockstep Json.Alike (raw.subscript "endpointId") (raw'.subscript "endpointId")
  agentId : Lockstep (fun v w => py.str v = py.str w) (raw.subscript "agentId")
    (raw'.subscript "agentId")
  hostname : Lockstep Json.Alike (raw.subscript "hostname") (raw'.subscript "hostname")
  osType : Lockstep Json.Alike (raw.subscript "osType") (raw'.subscript "osType")
  schemaVersion : Lockstep Json.Alike (raw.subscript "schemaVersion")
    (raw'.subscript "schemaVersion")

variable {py} {raw raw' : Json F} {r : NormalizedEvent F} {t t' : Time}

theorem normalizeEvent_lockstep (h : SameMessage py raw raw') (t t' : Time) :
    Lockstep (fun r r' => r'.identity = r.identity) (py.normalizeEvent raw t)
      (py.normalizeEvent raw' t') := by
  refine bind h.event fun event event' hevent => ?_
  refine bind (subscript_lockstep hevent _) fun payload payload' hpayload => ?_
  refine bind (subscript_lockstep hevent _) fun eventType eventType' htype => ?_
  refine bind (subscript_lockstep hevent _) fun occurredAt occurredAt' htime => ?_
  have hidentity := alike_identityPayload htype htime hpayload
  refine bind (.of_eq (canonicalJson_eq_of_alike hidentity)) ?_
  rintro bytes _ rfl
  refine bind (.of_eq rfl) ?_
  rintro rawPayload _ rfl
  refine bind (dictGet_lockstep hpayload _) fun answers answers' hanswers => ?_
  refine bind (subscript_lockstep hevent _) fun eventId eventId' heventId => ?_
  refine bind (.of_eq (uuid_eq_of_alike heventId)) ?_
  rintro id _ rfl
  refine bind h.batchId fun batchId batchId' hbatchId => ?_
  refine bind hbatchId fun batch batch' _ => ?_
  refine bind h.endpointId fun endpointId endpointId' hendpointId => ?_
  refine bind (.of_eq (int_eq_of_alike hendpointId)) ?_
  rintro endpoint _ rfl
  refine bind h.agentId fun agentId agentId' hagentId => ?_
  refine bind h.hostname fun hostname hostname' _ => ?_
  refine bind h.osType fun osType osType' _ => ?_
  refine bind (.of_eq (timestamp_eq_of_alike htime)) ?_
  rintro occurred _ rfl
  refine bind (.of_eq (answersText_eq_of_alike hanswers)) ?_
  rintro dnsAnswersJson _ rfl
  refine bind (.of_eq rfl) ?_
  rintro digested _ rfl
  refine bind h.schemaVersion fun schemaVersion schemaVersion' hschema => ?_
  refine bind (.of_eq (int_eq_of_alike hschema)) ?_
  rintro version _ rfl
  -- what is left of the result is read from the agent id and from values that are equal by now
  change (_, _, _, _) = (_, _, _, _)
  rw [hagentId]

theorem members_of_normalizeEvent (h : py.normalizeEvent raw t = .ok r) :
    (∃ event, raw.subscript "event" = .ok event ∧ event.subscript "payload" = .ok r.payload) ∧
      r.ipAddress = raw.get "ipAddress" ∧
      ∃ batchId, raw.subscript "batchId" = .ok batchId ∧ py.uuid batchId = .ok r.batchId := by
  simp only [normalizeEvent, bind_eq_ok] at h
  obtain ⟨event, hevent, payload, hpayload, _, -, _, -, _, -, _, -, _, -, _, -, _, -, batchId,
    hbatchId, batch, hbatch, _, -, _, -, _, -, _, -, _, -, _, -, _, -, _, -, _, -, _, -, h⟩ := h
  cases h
  exact ⟨⟨event, hevent, hpayload⟩, rfl, batchId, hbatchId, hbatch⟩

end Interpreter

/-! ## Another batch id, or another order of keys -/

namespace Interpreter

variable {F : Type} {py : Interpreter F} {raw raw' b : Json F} {r : NormalizedEvent F} {t : Time}

def SameEvent (py : Interpreter F) (raw raw' : Json F) : Prop :=
  ∃ batchId id, py.uuid batchId = .ok id ∧
    (raw.setMember (ofString "batchId") batchId).Reordered raw'

theorem distinct_of_uuid {id : UUID} (h : py.uuid b = .ok id) : b.distinct := by
  cases b with
  | string => rfl
  | null | bool | int | float | array | object => cases h

theorem subscript_setMember {key : String} (hkey : Text.ofString key ≠ Text.ofString "batchId") :
    (raw.setMember (.ofString "batchId") b).subscript key = raw.subscript key := by
  have hkind : (raw.setMember (.ofString "batchId") b).isObject = raw.isObject := by
    cases raw <;> rfl
  rw [Json.subscript_eq, Json.subscript_eq, hkind, Json.get?_setMember_of_ne hkey]

theorem SameEvent.sameMessage (h : SameEvent py raw raw') (hdistinct : raw.distinct)
    (hr : py.normalizeEvent raw t = .ok r) (hplain : (raw.get "agentId").plain) :
    SameMessage py raw raw' := by
  obtain ⟨b, id, hb, hreordered⟩ := h
  obtain ⟨-, -, batchId, hbatchId, hbatch⟩ := members_of_normalizeEvent hr
  have halike := hreordered.alike (Json.distinct_setMember hdistinct (distinct_of_uuid hb))
  have hmember (key : String) (hkey : Text.ofString key ≠ Text.ofString "batchId") :
      Lockstep Json.Alike (raw.subscript key) (raw'.subscript key) :=
    subscript_setMember hkey ▸ subscript_lockstep halike key
  refine ⟨hmember _ (by decide), ?_, hmember _ (by decide), ?_, hmember _ (by decide),
    hmember _ (by decide), hmember _ (by decide)⟩
  · -- both batch ids are accepted
    have hset : (raw.setMember (.ofString "batchId") b).subscript "batchId" = .ok b := by
      rw [Json.subscript_eq_ok] at hbatchId ⊢
      exact Json.get?_setMember_self (hbatchId ▸ Option.some_ne_none _)
    obtain ⟨b', hb', halike'⟩ := (subscript_lockstep halike "batchId").exists_ok hset
    exact .of_ok hbatchId hb' (.of_ok hbatch ((uuid_eq_of_alike halike').symm.trans hb) trivial)
  · -- a plain agent id is the same value
    have hagent := hmember "agentId" (by decide)
    rcases hv : raw.subscript "agentId" with e | v <;>
      rcases hw : raw'.subscript "agentId" with e' | w <;> rw [hv, hw] at hagent
    · exact hagent
    · exact hagent
    · exact hagent
    · rw [Json.get_of_subscript hv] at hplain
      exact congrArg py.str (hagent.eq_of_plain hplain).symm

/-- Another batch id or order of keys leaves the identity as it is, if no object with two members is
    in the agent id (`Json.plain`). -/
theorem SameEvent.exists_identity (h : SameEvent py raw raw') (hdistinct : raw.distinct)
    (hr : py.normalizeEvent raw t = .ok r) (hplain : (raw.get "agentId").plain) (t' : Time) :
    ∃ r', py.normalizeEvent raw' t' = .ok r' ∧ r'.identity = r.identity :=
  (normalizeEvent_lockstep (h.sameMessage hdistinct hr hplain) t t').exists_ok hr

theorem sameEvent_of_reordered (h : raw.Reordered raw') (hdistinct : raw.distinct)
    (hr : py.normalizeEvent raw t = .ok r) : SameEvent py raw raw' := by
  obtain ⟨-, -, batchId, hbatchId, hbatch⟩ := members_of_normalizeEvent hr
  refine ⟨batchId, _, hbatch, ?_⟩
  rwa [Json.setMember_self hdistinct (Json.subscript_eq_ok.1 hbatchId)]

/-! ## What is published about a message -/

theorem distinct_columns {columns : List (String × Json F)} (hnames : (columns.map (·.1)).Nodup)
    (hvalues : ∀ c ∈ columns, c.2.distinct) :
    (Json.object (columns.map fun c => (ofString c.1, c.2))).distinct := by
  refine Json.distinct_object.2 ⟨?_, forall_mem_map.2 hvalues⟩
  have hmap := hnames.map fun _ _ h => ofString_injective h
  rw [map_map] at hmap ⊢
  exact hmap

theorem distinct_jsonReady (hpayload : r.payload.distinct) (hip : r.ipAddress.distinct) :
    (py.jsonReady r).distinct := by
  refine distinct_columns ?_ ?_
  · simp only [map_append, map_map, map_cons, map_nil]
    change (_ ++ payloadColumns.map (·.1) ++ _ ++ payloadColumnsL7.map (·.1) ++ _).Nodup
    decide +kernel
  · have hcolumns (columns : List (String × String)) :
        ∀ c ∈ columns.map (fun names => (names.1, r.payload.get names.2)), c.2.distinct :=
      forall_mem_map.2 fun names _ => Json.distinct_get hpayload names.2
    have hanswers : ((r.dnsAnswersJson.map Json.string).getD .null : Json F).distinct := by
      rcases r.dnsAnswersJson with _ | text <;> rfl
    simp only [forall_mem_append, forall_mem_cons]
    exact ⟨⟨⟨⟨⟨rfl, rfl, rfl, rfl, rfl, rfl, hip, rfl, rfl, rfl,
      fun _ h => absurd h not_mem_nil⟩, hcolumns _⟩, hanswers,
      fun _ h => absurd h not_mem_nil⟩, hcolumns _⟩, rfl, rfl, rfl, rfl, rfl, rfl,
      fun _ h => absurd h not_mem_nil⟩

theorem distinct_validatedMessage (hdistinct : raw.distinct)
    (hr : py.normalizeEvent raw t = .ok r) : (py.validatedMessage r raw).distinct := by
  have hkeys : (["event", "raw"].map Text.ofString).Nodup := by decide
  obtain ⟨⟨event, hevent, hpayload⟩, hip, -⟩ := members_of_normalizeEvent hr
  rw [Json.subscript_eq_ok] at hevent hpayload
  have hready : (py.jsonReady r).distinct := distinct_jsonReady
    (Json.distinct_of_get? (Json.distinct_of_get? hdistinct hevent) hpayload)
    (hip ▸ Json.distinct_get hdistinct _)
  refine Json.distinct_object.2 ⟨hkeys, ?_⟩
  simp only [forall_mem_cons]
  exact ⟨hready, hdistinct, fun _ h => absurd h not_mem_nil⟩

end Interpreter

end Edr
