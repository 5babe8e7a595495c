import Edr.Buffer.Batches
import Edr.Lib.Json.Accepted
import Edr.Lib.Json.Pieces

/-!
# The texts of the Windows agent

The Windows agent writes the JSON of its events by hand. A string of an event may have any characters:
`json_escape` goes over its bytes, and escapes quotes, backslashes and control characters. The bytes
of other characters stay as they are, so that it does with the bytes of a text what it would do with
its characters (`utf8_jsonEscape`).

* `body_eq_print`: `make_batch` puts these texts into an envelope, as they are, with the agent id
  escaped and the batch id as it is. Where this needs no escapes, as the ids that `uuid_string` makes,
  the body is read as the envelope with the events.
-/

namespace Edr.Agent

open List Function Text CodePoint Nat

namespace Windows

open Json (escape printString)

def utf8 (s : String) : Bytes := (ofString s).flatMap Utf8.encodeChar

/-! ## Escaping -/

/-- A hexadecimal digit of `std::hex`. -/
def hexByte (n : Nat) : UInt8 := .ofNat (if n < 10 then 48 + n else 87 + n)

/-- What `json_escape` writes for a byte. -/
def escapeByte (character : UInt8) : Bytes :=
  if character = 0x22 then [0x5c, 0x22]
  else if character = 0x5c then [0x5c, 0x5c]
  else if character = 0x08 then [0x5c, 0x62]
  else if character = 0x0c then [0x5c, 0x66]
  else if character = 0x0a then [0x5c, 0x6e]
  else if character = 0x0d then [0x5c, 0x72]
  else if character = 0x09 then [0x5c, 0x74]
  else if character < 0x20 then
    [0x5c, 0x75, 0x30, 0x30, hexByte (character.toNat / 16), hexByte (character.toNat % 16)]
  else [character]

/-- `json_escape`, on the bytes of a string. -/
def jsonEscapeBytes (value : Bytes) : Bytes := value.flatMap escapeByte

def escapeChar (character : Char) : List Char :=
  if character = '"' then ['\\', '"']
  else if character = '\\' then ['\\', '\\']
  else if character = '\x08' then ['\\', 'b']
  else if character = '\x0c' then ['\\', 'f']
  else if character = '\n' then ['\\', 'n']
  else if character = '\r' then ['\\', 'r']
  else if character = '\t' then ['\\', 't']
  else if character.toNat < 0x20 then
    ['\\', 'u', '0', '0', (character.toNat / 16).digitChar, (character.toNat % 16).digitChar]
  else [character]

/-- `json_escape`, on the characters of a text. -/
def jsonEscape (value : String) : String := .ofList (value.toList.flatMap escapeChar)

theorem escape_of_le {c : CodePoint} (h : 0x80 ≤ c.val) : escape c = [c] := by
  rcases Json.escape_cases c with ⟨hself, -⟩ | ⟨-, hc | hc⟩
  · exact hself
  · simp only [Json.isPrintable, Bool.and_eq_true, decide_eq_true_eq] at hc
    omega
  · omega

theorem escapeChar_of_le {c : Char} (h : 0x80 ≤ c.toNat) : escapeChar c = [c] := by
  unfold escapeChar
  split_ifs <;> first | rfl | omega | (subst c; simp at h)

theorem escapeByte_of_le {b : UInt8} (h : 0x80 ≤ b.toNat) : escapeByte b = [b] := by
  unfold escapeByte
  split_ifs with _ _ _ _ _ _ _ hlt <;> first | rfl | (subst b; simp at h) | skip
  rw [UInt8.lt_iff_toNat_lt] at hlt
  exact absurd hlt (by simp; omega)

theorem map_escapeChar (c : Char) :
    (escapeChar c).map ofChar = escape (ofChar c) := by
  have hascii : ∀ n : Fin 0x80, (escapeChar (.ofNat n.val)).map ofChar =
      escape (ofChar (.ofNat n.val)) := by decide
  by_cases h : c.toNat < 0x80
  · have := hascii ⟨c.toNat, h⟩
    rwa [Char.ofNat_toNat] at this
  · rw [escapeChar_of_le (not_lt.1 h), escape_of_le (not_lt.1 h), map_singleton]

theorem ofString_jsonEscape (value : String) :
    ofString (jsonEscape value) = (ofString value).flatMap escape := by
  rw [jsonEscape, ofString, String.toList_ofList, ofString, map_flatMap,
    flatMap_map]
  exact flatMap_congr fun c _ => map_escapeChar c

theorem flatMap_escapeByte (c : CodePoint) :
    (Utf8.encodeChar c).flatMap escapeByte = (escape c).flatMap Utf8.encodeChar := by
  have hascii : ∀ n : Fin 0x80, (Utf8.encodeChar (Fin.ofNat _ n.val)).flatMap escapeByte =
      (escape (Fin.ofNat _ n.val)).flatMap Utf8.encodeChar := by decide
  by_cases h : c.val < 0x80
  · have hc : Fin.ofNat 0x110000 c.val = c := Fin.ext (mod_eq_of_lt c.isLt)
    have := hascii ⟨c.val, h⟩
    rwa [hc] at this
  · rw [escape_of_le (not_lt.1 h), flatMap_singleton]
    -- all the bytes are beyond ASCII, and stay
    conv_rhs => rw [← flatMap_singleton' (Utf8.encodeChar c)]
    exact flatMap_congr fun b hb => escapeByte_of_le
      (Utf8.le_of_mem_encodeChar Nat.le.refl (not_lt.1 h) b hb)

theorem utf8_jsonEscape (value : String) :
    utf8 (jsonEscape value) = jsonEscapeBytes (utf8 value) := by
  rw [utf8, ofString_jsonEscape, jsonEscapeBytes, utf8, flatMap_assoc, flatMap_assoc]
  exact flatMap_congr fun c _ => (flatMap_escapeByte c).symm

/-! ## Texts that need no escapes -/

theorem jsonEscape_eq_self {s : String} (h : ∀ c ∈ s.toList, escapeChar c = [c]) :
    jsonEscape s = s := by
  have hself : s.toList.flatMap escapeChar = s.toList := by
    conv_rhs => rw [← flatMap_singleton' s.toList]
    exact flatMap_congr h
  rw [jsonEscape, hself, String.ofList_toList]

/-- `uuid_string`, from the bytes of the random device. -/
def uuidString (source : Fin 16 → UInt8) : String :=
  let bytes (index : Fin 16) : UInt8 :=
    if index = 6 then source 6 &&& 0x0f ||| 0x40
    else if index = 8 then source 8 &&& 0x3f ||| 0x80
    else source index
  String.ofList ((List.finRange 16).flatMap fun index =>
    (if index = 4 ∨ index = 6 ∨ index = 8 ∨ index = 10 then ['-'] else []) ++
      [((bytes index).toNat / 16).digitChar, ((bytes index).toNat % 16).digitChar])

theorem jsonEscape_uuidString (source : Fin 16 → UInt8) :
    jsonEscape (uuidString source) = uuidString source := by
  have hdigit (n : Nat) (hn : n < 16) : escapeChar n.digitChar = [n.digitChar] := by
    have hall : ∀ n : Fin 16, escapeChar n.val.digitChar = [n.val.digitChar] := by decide
    exact hall ⟨n, hn⟩
  refine jsonEscape_eq_self fun c hc => ?_
  rw [uuidString, String.toList_ofList, mem_flatMap] at hc
  obtain ⟨index, -, hc⟩ := hc
  rcases mem_append.1 hc with hc | hc
  · split_ifs at hc
    · rw [mem_singleton.1 hc]
      decide
    · cases hc
  · simp only [mem_cons, not_mem_nil, or_false] at hc
    rcases hc with rfl | rfl
    · refine hdigit _ (Nat.div_lt_of_lt_mul ?_)
      exact UInt8.toNat_lt _
    · exact hdigit _ (Nat.mod_lt _ (by decide))

/-- `std::tm`, as far as `put_time` reads it. -/
structure Tm where
  year : Nat
  month : Nat
  day : Nat
  hour : Nat
  minute : Nat
  second : Nat

/-- `gmtime`: the days from March 1st of the year 0 on are put into years that end with February. -/
def gmtime (seconds : Nat) : Tm :=
  let days := seconds / 86400 + 719468
  let day := days % 146097
  let year := (day - day / 1460 + day / 36524 - day / 146096) / 365
  let day := day - (365 * year + year / 4 - year / 100)
  let month := (5 * day + 2) / 153
  { year := days / 146097 * 400 + year + month / 10
    month := if month < 10 then month + 3 else month - 9
    day := day - (153 * month + 2) / 5 + 1
    hour := seconds / 3600 % 24
    minute := seconds / 60 % 60
    second := seconds % 60 }

/-- `std::setw` with the fill `0`. -/
def padded (width n : Nat) : List Char := leftpad width '0' (Nat.toDigits 10 n)

/-- `utc_at`, from the milliseconds since the epoch. -/
def utcAt (point : Nat) : String :=
  let utc := gmtime (point / 1000)
  .ofList ([padded 4 utc.year, ['-'], padded 2 utc.month, ['-'], padded 2 utc.day, ['T'],
    padded 2 utc.hour, [':'], padded 2 utc.minute, [':'], padded 2 utc.second, ['.'],
    padded 3 (point % 1000), ['Z']].flatten)

example : utcAt 1782896400007 = "2026-07-01T09:00:00.007Z" := by decide +kernel

theorem jsonEscape_utcAt (point : Nat) : jsonEscape (utcAt point) = utcAt point := by
  have hdigit (c : Char) (h : c.isDigit) : escapeChar c = [c] := by
    have hall : ∀ n : Fin 0x80, (Char.ofNat n.val).isDigit →
        escapeChar (.ofNat n.val) = [.ofNat n.val] := by decide
    have hlt : c.toNat < 0x80 := (Char.isDigit_iff_toNat.1 h).2.trans_lt (by decide)
    simpa using hall ⟨c.toNat, hlt⟩ (by simpa using h)
  have hpadded (width n : Nat) : ∀ c ∈ padded width n, escapeChar c = [c] := by
    intro c hc
    rw [padded, leftpad, mem_append, mem_replicate] at hc
    rcases hc with ⟨-, rfl⟩ | hc
    · decide
    · exact hdigit c (Nat.isDigit_of_mem_toDigits (by decide) (by decide) hc)
  refine jsonEscape_eq_self ?_
  rw [utcAt, String.toList_ofList]
  simp only [flatten_cons, flatten_nil, forall_mem_append, forall_mem_singleton]
  refine ⟨hpadded _ _, by decide, hpadded _ _, by decide, hpadded _ _, by decide, hpadded _ _,
    by decide, hpadded _ _, by decide, hpadded _ _, by decide, hpadded _ _, by decide, ?_⟩
  exact forall_mem_nil _

/-! ## Events -/

inductive JsonValue
  | string (value : String)
  | integer (value : Int64)
  | boolean (value : Bool)
  | strings (values : List String)

/-- `std::map<std::string, JsonValue>`: the entries are in the order of their keys. -/
structure Payload where
  entries : List (String × JsonValue)
  sorted : entries.Pairwise fun x y => x.1 < y.1

structure Event where
  eventId : String
  eventType : String
  occurredAt : String
  payload : Payload

instance : Inhabited Event := ⟨⟨"", "", "", ⟨[], .nil⟩⟩⟩

def quoted (value : String) : String := "\"" ++ jsonEscape value ++ "\""

def member (key value : String) : String := "\"" ++ jsonEscape key ++ "\":" ++ value

def jsonValue : JsonValue → String
  | .string value => quoted value
  | .integer value => toString value.toInt
  | .boolean value => if value then "true" else "false"
  | .strings values => "[" ++ ",".intercalate (values.map quoted) ++ "]"

def encodeEvent (event : Event) : String :=
  "\x7b\"eventId\":\"" ++ jsonEscape event.eventId ++ "\",\"eventType\":\"" ++
    jsonEscape event.eventType ++ "\",\"occurredAt\":\"" ++ jsonEscape event.occurredAt ++
    "\",\"payload\":\x7b" ++
    ",".intercalate (event.payload.entries.map fun entry => member entry.1 (jsonValue entry.2)) ++
    "\x7d\x7d"

section

variable {F : Type}

def text (value : String) : Json F := .string (ofString value)

def JsonValue.toJson : JsonValue → Json F
  | .string value => text value
  | .integer value => .int value.toInt
  | .boolean value => .bool value
  | .strings values => .array (values.map text)

def Payload.toJson (payload : Payload) : Json F :=
  .object (payload.entries.map fun entry => (ofString entry.1, entry.2.toJson))

def Event.toJson (event : Event) : Json F :=
  .object [(ofString "eventId", text event.eventId),
    (ofString "eventType", text event.eventType),
    (ofString "occurredAt", text event.occurredAt),
    (ofString "payload", event.payload.toJson)]

variable {floats : Floats F}

theorem ofString_quoted (value : String) :
    ofString (quoted value) = printString (ofString value) := by
  rw [quoted, ofString_append, ofString_append, ofString_jsonEscape]
  rfl

theorem ofString_quoted_eq (value : String) :
    ofString (quoted value) = (text value).print floats := by
  rw [ofString_quoted, text, Json.print]

theorem ofString_array {α : Type} {l : List α} {item : α → String} {json : α → Json F}
    (h : ∀ x ∈ l, ofString (item x) = (json x).print floats) :
    ofString ("[" ++ ",".intercalate (l.map item) ++ "]") =
      (Json.array (l.map json)).print floats := by
  have hitems : (l.map item).map ofString = (l.map json).map (Json.print floats) := by
    rw [map_map, map_map]
    refine map_congr_left fun x hx => ?_
    rw [comp_apply, comp_apply, h x hx]
  rw [ofString_append, ofString_append, ofString_intercalate, hitems, Json.print,
    Json.printItems_eq]
  rfl

theorem ofString_jsonValue (value : JsonValue) :
    ofString (jsonValue value) = value.toJson.print floats := by
  cases value with
  | string value => exact ofString_quoted_eq value
  | integer value =>
    rw [JsonValue.toJson, Json.print]
    exact Json.ofString_toString value.toInt
  | boolean value => cases value <;> rfl
  | strings values => exact ofString_array fun value _ => ofString_quoted_eq value

theorem ofString_object {α : Type} {entries : List α} {key value : α → String} {json : α → Json F}
    (h : ∀ x ∈ entries, ofString (value x) = (json x).print floats) :
    ofString ("\x7b" ++ ",".intercalate (entries.map fun x => member (key x) (value x)) ++
      "\x7d") =
    (Json.object (entries.map fun x => (ofString (key x), json x))).print floats := by
  have hentry (x : α) (hx : x ∈ entries) : ofString (member (key x) (value x)) =
      printString (ofString (key x)) ++ ch ':' :: (json x).print floats := by
    rw [member, ofString_append, ofString_append, ofString_append,
      ofString_jsonEscape, h x hx, printString]
    simp only [append_assoc]
    rfl
  have hentries : (entries.map fun x => member (key x) (value x)).map ofString =
      (entries.map fun x => (ofString (key x), json x)).map fun m =>
        printString m.1 ++ ch ':' :: m.2.print floats := by
    rw [map_map, map_map]
    refine map_congr_left fun x hx => ?_
    rw [comp_apply, comp_apply, hentry x hx]
  rw [ofString_append, ofString_append, ofString_intercalate, hentries, Json.print,
    Json.printMembers_eq]
  rfl

theorem ofString_payload (payload : Payload) :
    ofString ("\x7b" ++ ",".intercalate (payload.entries.map fun entry =>
      member entry.1 (jsonValue entry.2)) ++ "\x7d") = payload.toJson.print floats :=
  ofString_object fun entry _ => ofString_jsonValue entry.2

def Event.entries (event : Event) : List (String × String × Json F) :=
  [("eventId", quoted event.eventId, text event.eventId),
    ("eventType", quoted event.eventType, text event.eventType),
    ("occurredAt", quoted event.occurredAt, text event.occurredAt),
    ("payload", "\x7b" ++ ",".intercalate (event.payload.entries.map fun entry =>
      member entry.1 (jsonValue entry.2)) ++ "\x7d", event.payload.toJson)]

theorem encodeEvent_eq (event : Event) :
    encodeEvent event = "\x7b" ++
      ",".intercalate ((event.entries : List (String × String × Json F)).map fun x =>
        member x.1 x.2.1) ++ "\x7d" := by
  have hpieces (id type time payload end_ : String) (hid : id = "\x7b" ++ member "eventId" "\"")
      (htype : type = "\"" ++ "," ++ member "eventType" "\"")
      (htime : time = "\"" ++ "," ++ member "occurredAt" "\"")
      (hpayload : payload = "\"" ++ "," ++ member "payload" "\x7b") (hend : end_ = "\x7d" ++ "\x7d") :
      id ++ jsonEscape event.eventId ++ type ++ jsonEscape event.eventType ++ time ++
        jsonEscape event.occurredAt ++ payload ++
        ",".intercalate (event.payload.entries.map fun entry => member entry.1 (jsonValue entry.2)) ++
        end_ =
      "\x7b" ++ ",".intercalate ((event.entries : List (String × String × Json F)).map fun x =>
        member x.1 x.2.1) ++ "\x7d" := by
    subst hid htype htime hpayload hend
    simp only [Event.entries, map_cons, map_nil, String.intercalate_cons_cons,
      String.intercalate_singleton, member, quoted, String.append_assoc]
  exact hpieces _ _ _ _ _ (by decide) (by decide) (by decide) (by decide) rfl

theorem encodeEvent_eq_print (floats : Floats F) (event : Event) :
    ofString (encodeEvent event) = event.toJson.print floats := by
  have hentries (x : String × String × Json F) (hx : x ∈ event.entries) :
      ofString x.2.1 = x.2.2.print floats := by
    simp only [Event.entries, mem_cons, not_mem_nil, or_false] at hx
    rcases hx with rfl | rfl | rfl | rfl
    · exact ofString_quoted_eq event.eventId
    · exact ofString_quoted_eq event.eventType
    · exact ofString_quoted_eq event.occurredAt
    · exact ofString_payload event.payload
  rw [encodeEvent_eq, ofString_object hentries, Event.toJson, Event.entries]
  rfl

/-! ## What a decoder reads -/

structure Allows (limits : Limits) : Prop where
  depth : 5 ≤ limits.depth
  digits : 19 ≤ limits.digits

variable {limits : Limits}

theorem ok_text (value : String) : (text value : Json F).Ok limits 0 := ⟨Nat.le.refl, rfl, rfl⟩

theorem length_digits_toInt (n : Int64) : (digitsOf n.toInt.natAbs).length ≤ 19 := by
  have hlt : n.toInt.natAbs < 10 ^ (18 + 1) := by
    have := n.toInt_lt
    have := n.le_toInt
    omega
  exact Json.length_digitsAux Nat.le.refl hlt

theorem ok_jsonValue (hlimits : Allows limits) (value : JsonValue) :
    (value.toJson : Json F).Ok limits 1 := by
  cases value with
  | string value => exact (ok_text value).mono (zero_le 1)
  | integer value =>
    exact ⟨zero_le 1, decide_eq_true ((length_digits_toInt value).trans hlimits.digits), rfl⟩
  | boolean value => exact ⟨zero_le 1, rfl, rfl⟩
  | strings values =>
    refine Json.ok_array fun v hv => ?_
    obtain ⟨value, -, rfl⟩ := mem_map.1 hv
    exact ok_text value

theorem nodup_keys (payload : Payload) :
    (payload.entries.map fun x => ofString x.1).Nodup := by
  refine pairwise_map.2 (payload.sorted.imp fun {x y} h heq => ?_)
  rw [ofString_injective heq] at h
  exact String.lt_irrefl _ h

theorem ok_payload (hlimits : Allows limits) (payload : Payload) :
    (payload.toJson : Json F).Ok limits 2 := by
  refine Json.ok_object ?_ fun m hm => ?_
  · rw [map_map]
    exact nodup_keys payload
  · obtain ⟨entry, -, rfl⟩ := mem_map.1 hm
    exact ok_jsonValue hlimits entry.2

theorem ok_event (hlimits : Allows limits) (event : Event) :
    (event.toJson : Json F).Ok limits 3 := by
  refine Json.ok_object ?_ fun m hm => ?_
  · have hkeys : (["eventId", "eventType", "occurredAt", "payload"].map ofString).Nodup := by
      refine List.Nodup.map (fun _ _ => ofString_injective) (by decide)
    exact hkeys
  · simp only [mem_cons, not_mem_nil, or_false] at hm
    rcases hm with rfl | rfl | rfl | rfl
    · exact (ok_text event.eventId).mono (zero_le 2)
    · exact (ok_text event.eventType).mono (zero_le 2)
    · exact (ok_text event.occurredAt).mono (zero_le 2)
    · exact ok_payload hlimits event.payload

theorem loads_of_eq_print {s : String} {v : Json F} {n : Nat} (h : ofString s = v.print floats)
    (hv : v.Ok limits n) (hn : n ≤ limits.depth) : Json.loads floats limits (utf8 s) = .ok v := by
  rw [utf8, h]
  exact Json.loads_print (hv.depth.trans hn) hv.fits hv.distinct

theorem loads_encodeEvent (hlimits : Allows limits) (event : Event) :
    Json.loads floats limits (utf8 (encodeEvent event)) = .ok event.toJson :=
  loads_of_eq_print (encodeEvent_eq_print floats event) (ok_event hlimits event)
    ((by decide : 3 ≤ 5).trans hlimits.depth)

theorem le_of_mem_encodeEvent (floats : Floats F) {event : Event} {b : UInt8}
    (hb : b ∈ utf8 (encodeEvent event)) : 0x20 ≤ b.toNat := by
  rw [utf8, encodeEvent_eq_print floats, mem_flatMap] at hb
  obtain ⟨c, hc, hb⟩ := hb
  exact Utf8.le_of_mem_encodeChar (by decide) (Json.le_of_mem_print hc) b hb

/-! ## Batches -/

def envelope (batchId agentId sentAt : String) (events : List (Json F)) : Json F :=
  .object [(ofString "schemaVersion", .int 1), (ofString "batchId", text batchId),
    (ofString "agentId", text agentId), (ofString "sentAt", text sentAt),
    (ofString "events", .array events)]

def envelopeEntries (batchId agentId sentAt : String) (texts : List String)
    (events : List (Json F)) : List (String × String × Json F) :=
  [("schemaVersion", "1", .int 1), ("batchId", quoted batchId, text batchId),
    ("agentId", quoted agentId, text agentId), ("sentAt", quoted sentAt, text sentAt),
    ("events", "[" ++ ",".intercalate texts ++ "]", .array events)]

theorem envelope_eq {batchId agentId sentAt : String} (hbatch : jsonEscape batchId = batchId)
    (hsent : jsonEscape sentAt = sentAt) (texts : List String) (events : List (Json F)) :
    opening jsonEscape agentId batchId sentAt ++ ",".intercalate texts ++ closing =
      "\x7b" ++ ",".intercalate ((envelopeEntries batchId agentId sentAt texts events).map fun x =>
        member x.1 x.2.1) ++ "\x7d" := by
  have hpieces (batch agent sent items end_ : String)
      (hbatch' : batch = "\x7b" ++ member "schemaVersion" "1" ++ "," ++ member "batchId" "\"")
      (hagent : agent = "\"" ++ "," ++ member "agentId" "\"")
      (hsent' : sent = "\"" ++ "," ++ member "sentAt" "\"")
      (hitems : items = "\"" ++ "," ++ member "events" "[") (hend : end_ = "]" ++ "\x7d") :
      batch ++ batchId ++ agent ++ jsonEscape agentId ++ sent ++ sentAt ++ items ++
        ",".intercalate texts ++ end_ =
      "\x7b" ++ ",".intercalate ((envelopeEntries batchId agentId sentAt texts events).map fun x =>
        member x.1 x.2.1) ++ "\x7d" := by
    subst hbatch' hagent hsent' hitems hend
    simp only [envelopeEntries, map_cons, map_nil, String.intercalate_cons_cons,
      String.intercalate_singleton, member, quoted, String.append_assoc, hbatch, hsent]
  exact hpieces _ _ _ _ _ (by decide) (by decide) (by decide) (by decide) rfl

theorem ofString_envelope {batchId agentId sentAt : String} (hbatch : jsonEscape batchId = batchId)
    (hsent : jsonEscape sentAt = sentAt) (events : List Event) :
    ofString (opening jsonEscape agentId batchId sentAt ++
      ",".intercalate (events.map encodeEvent) ++ closing) =
    (envelope batchId agentId sentAt (events.map Event.toJson)).print floats := by
  have hentries (x : String × String × Json F)
      (hx : x ∈ envelopeEntries batchId agentId sentAt (events.map encodeEvent)
        (events.map Event.toJson)) : ofString x.2.1 = x.2.2.print floats := by
    simp only [envelopeEntries, mem_cons, not_mem_nil, or_false] at hx
    rcases hx with rfl | rfl | rfl | rfl | rfl
    · exact (Json.ofString_toString 1).trans (by rw [Json.print])
    · exact ofString_quoted_eq batchId
    · exact ofString_quoted_eq agentId
    · exact ofString_quoted_eq sentAt
    · exact ofString_array fun event _ => encodeEvent_eq_print floats event
  rw [envelope_eq hbatch hsent _ (events.map Event.toJson), ofString_object hentries,
    envelopeEntries, envelope]
  rfl

theorem ok_envelope (hlimits : Allows limits) (batchId agentId sentAt : String)
    (events : List Event) :
    (envelope batchId agentId sentAt (events.map Event.toJson) : Json F).Ok limits 5 := by
  refine Json.ok_object ?_ fun m hm => ?_
  · have hkeys : (["schemaVersion", "batchId", "agentId", "sentAt", "events"].map
        ofString).Nodup :=
      List.Nodup.map (fun _ _ => ofString_injective) (by decide)
    exact hkeys
  · simp only [mem_cons, not_mem_nil, or_false] at hm
    rcases hm with rfl | rfl | rfl | rfl | rfl
    · exact ⟨zero_le 4, decide_eq_true ((by decide : 1 ≤ 19).trans hlimits.digits), rfl⟩
    · exact (ok_text batchId).mono (zero_le 4)
    · exact (ok_text agentId).mono (zero_le 4)
    · exact (ok_text sentAt).mono (zero_le 4)
    · refine Json.ok_array fun v hv => ?_
      obtain ⟨event, -, rfl⟩ := mem_map.1 hv
      exact ok_event hlimits event

theorem loads_envelope (hlimits : Allows limits) {batchId agentId sentAt : String}
    (hbatch : jsonEscape batchId = batchId) (hsent : jsonEscape sentAt = sentAt)
    (events : List Event) :
    Json.loads floats limits (utf8 (opening jsonEscape agentId batchId sentAt ++
      ",".intercalate (events.map encodeEvent) ++ closing)) =
    .ok (envelope batchId agentId sentAt (events.map Event.toJson)) :=
  loads_of_eq_print (ofString_envelope hbatch hsent events)
    (ok_envelope hlimits batchId agentId sentAt events) hlimits.depth

def HoldEvents (rows : List BufferedRow) : Prop :=
  ∀ row ∈ rows, ∃ event : Event, row.event.json = encodeEvent event

theorem loads_body (hlimits : Allows limits) {agentId generated : String}
    {now maxEvents maxBytes : Nat} {rows : List BufferedRow} {batch : Batch}
    (h : makeBatch jsonEscape agentId (utcAt now) generated maxEvents maxBytes rows =
      .ok (some batch))
    (hne : batch.rows ≠ []) (hrows : HoldEvents rows)
    (hbatch : jsonEscape batch.batchId = batch.batchId) :
    ∃ events, Json.loads floats limits (utf8 batch.body) =
        .ok (envelope batch.batchId agentId (utcAt now) events) ∧
      List.Forall₂ (fun row event => Json.loads floats limits (utf8 row.event.json) = .ok event)
        batch.rows events := by
  have hheld (row : BufferedRow) (hrow : row ∈ batch.rows) :
      ∃ event : Event, row.event.json = encodeEvent event :=
    hrows row ((selects_of_makeBatch h).subset hrow)
  choose! event hevent using hheld
  have hjson (row : BufferedRow) (hrow : row ∈ batch.rows) : row.event.json ≠ "" := by
    intro hempty
    have hprint := encodeEvent_eq_print floats (event row)
    obtain ⟨c, more, hcons, -⟩ := Scan.exists_cons_print floats (event row).toJson
    rw [← hevent row hrow, hempty, hcons] at hprint
    cases hprint
  have hjoined : batch.rows.map (·.event.json) = (batch.rows.map event).map encodeEvent := by
    rw [map_map]
    exact map_congr_left hevent
  refine ⟨(batch.rows.map event).map Event.toJson, ?_, ?_⟩
  · rw [body_of_makeBatch h hne, encodedBody_eq_joined hjson, joined, hjoined]
    exact loads_envelope hlimits hbatch (jsonEscape_utcAt now) _
  · rw [map_map, forall₂_map_right_iff, forall₂_same]
    intro row hrow
    rw [hevent row hrow]
    exact loads_encodeEvent hlimits (event row)

/-- The texts of the Windows agent are read as what they were made from: that of every event, which
    has no control characters, and the body of every batch with rows that hold such texts, if its id
    needs no escapes. -/
theorem loads_texts (floats : Floats F) (hlimits : Allows limits) :
    (∀ event : Event, (∀ b ∈ utf8 (encodeEvent event), 0x20 ≤ b.toNat) ∧
      Json.loads floats limits (utf8 (encodeEvent event)) = .ok event.toJson) ∧
    ∀ (agentId generated : String) (now maxEvents maxBytes : Nat) (rows : List BufferedRow)
      (batch : Batch),
      makeBatch jsonEscape agentId (utcAt now) generated maxEvents maxBytes rows =
        .ok (some batch) →
      batch.rows ≠ [] → HoldEvents rows → jsonEscape batch.batchId = batch.batchId →
      ∃ events, Json.loads floats limits (utf8 batch.body) =
          .ok (envelope batch.batchId agentId (utcAt now) events) ∧
        List.Forall₂ (fun row event => Json.loads floats limits (utf8 row.event.json) = .ok event)
          batch.rows events :=
  ⟨fun event => ⟨fun _ hb => le_of_mem_encodeEvent floats hb, loads_encodeEvent hlimits event⟩,
    fun _ _ _ _ _ _ _ h hne hrows hbatch => loads_body hlimits h hne hrows hbatch⟩

end

/-- No text is a float. -/
def noFloats : Floats Empty := ⟨fun _ => .nan, Empty.elim, fun x => x.elim, fun x => x.elim⟩

/-- A process with quotes, a backslash and control characters in its command line. -/
def quotedEvent : Event :=
  ⟨"6f1d2a34-5b6c-4d7e-8f90-a1b2c3d4e5f6", "PROCESS_EXECUTION", "2026-07-01T08:59:58.120Z",
    ⟨[("commandLine", .string "cmd /c \"a\\b\"\n\t\x00"), ("processId", .integer 4120),
      ("processName", .string "cmd.exe")], by decide⟩⟩

/-- A DNS answer with several addresses. -/
def answerEvent : Event :=
  ⟨"0d9a4e5c-7b1f-4c3a-9e21-5f0a6b7c8d9e", "DNS_QUERY", "2026-07-01T08:59:59.001Z",
    ⟨[("queryName", .string "example.com"), ("resolvedIps", .strings ["192.0.2.1", "2001:db8::1"]),
      ("success", .boolean true)], by decide⟩⟩

/-- The pending row that holds an event. -/
def rowOf (rowId : Nat) (batchId : Option String) (event : Event) : BufferedRow :=
  ⟨rowId, none, event.eventId, batchId,
    ⟨event.eventId, event.eventType, event.occurredAt, encodeEvent event⟩, 0⟩

set_option maxRecDepth 8000 in
/-- A batch id with a quote is written as it is. -/
theorem loads_body_quote :
    ∃ batch, makeBatch jsonEscape "agent-1" (utcAt 1782896400007) "" 100 5000
        [rowOf 1 (some "\"") answerEvent] = .ok (some batch) ∧
      HoldEvents [rowOf 1 (some "\"") answerEvent] ∧ batch.batchId = "\"" ∧ batch.rows ≠ [] ∧
      ∀ v, Json.loads noFloats ⟨5, 19⟩ (utf8 batch.body) ≠ .ok v := by
  refine ⟨_, rfl, fun row hrow => ⟨answerEvent, by rw [mem_singleton.1 hrow]; rfl⟩, rfl,
    cons_ne_nil _ _, ?_⟩
  have herror : (Json.loads noFloats ⟨5, 19⟩ (utf8 (opening jsonEscape "agent-1" "\""
      (utcAt 1782896400007) ++ encodeEvent answerEvent ++ closing))).toBool = false := by
    decide +kernel
  intro v hv
  cases (congrArg Except.toBool hv).symm.trans herror

set_option maxRecDepth 8000 in
theorem loads_texts_twoRows :
    let id := uuidString fun i => .ofNat (17 * i)
    let rows := [rowOf 1 none quotedEvent, rowOf 2 none answerEvent]
    ∃ batch, makeBatch jsonEscape "agent-1" (utcAt 1782896400007) id 100 5000 rows =
        .ok (some batch) ∧ batch.rows = rows ∧
      Json.loads noFloats ⟨5, 19⟩ (utf8 batch.body) = .ok (envelope
        "00112233-4455-4677-8899-aabbccddeeff" "agent-1" "2026-07-01T09:00:00.007Z"
        [quotedEvent.toJson, answerEvent.toJson]) := by
  intro id rows
  have hholds : HoldEvents rows := by
    intro row hrow
    simp only [rows, mem_cons, not_mem_nil, or_false] at hrow
    rcases hrow with rfl | rfl
    · exact ⟨quotedEvent, rfl⟩
    · exact ⟨answerEvent, rfl⟩
  obtain ⟨batch, hbatch, hid, hrows⟩ : ∃ batch,
      makeBatch jsonEscape "agent-1" (utcAt 1782896400007) id 100 5000 rows = .ok (some batch) ∧
        batch.batchId = id ∧ batch.rows = rows := ⟨_, rfl, rfl, rfl⟩
  have hlimits : Allows ⟨5, 19⟩ := ⟨Nat.le.refl, Nat.le.refl⟩
  obtain ⟨hevents, hbodies⟩ := loads_texts noFloats hlimits
  obtain ⟨events, hloads, hread⟩ := hbodies _ _ _ _ _ _ _ hbatch (hrows ▸ cons_ne_nil _ _) hholds
    (hid ▸ jsonEscape_uuidString _)
  simp only [hrows, rows, forall₂_cons_left_iff, forall₂_nil_left_iff] at hread
  obtain ⟨_, _, hfirst, ⟨_, _, hsecond, rfl, rfl⟩, rfl⟩ := hread
  have hquoted := Except.ok.inj (hfirst.symm.trans (hevents quotedEvent).2)
  have hanswer := Except.ok.inj (hsecond.symm.trans (hevents answerEvent).2)
  rw [hid, hquoted, hanswer] at hloads
  exact ⟨batch, hbatch, hrows, hloads⟩

end Windows

end Edr.Agent
