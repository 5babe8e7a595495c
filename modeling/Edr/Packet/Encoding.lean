import Edr.Buffer.Encoding
import Edr.Collector
import Edr.Packet.Dns

/-!
# The texts of captured frames

The Windows agent puts bytes of a frame into the strings of an event. `json_escape` goes over their
bytes, so that what is not UTF-8 stays so within the text of the event (`isUtf8_of_escape`), and
within the body of its batch. The collector reads the events that are, and its loop leaves all other
verdicts as they are unless it fails to make a message of an event it has validated, as it does for
the URL `http://[`.
-/

namespace Edr.Agent.Windows

open List Json Text CodePoint
open Packet (Emits emits_parseEthernet emits_parseSegment ascii)
open Packet.Windows (parse parseHttp header helloEvent reported)

/-! ## UTF-8 -/

def IsUtf8 (bytes : Bytes) : Prop := ∃ s : String, utf8 s = bytes

theorem utf8_append (s t : String) : utf8 (s ++ t) = utf8 s ++ utf8 t := by
  rw [utf8, ofString_append, flatMap_append]
  rfl

theorem utf8_intercalate (texts : List String) :
    utf8 (",".intercalate texts) = [44].intercalate (texts.map utf8) := by
  induction texts with
  | nil => rfl
  | cons s texts ih =>
    cases texts with
    | nil => simp
    | cons t texts =>
      rw [String.intercalate_cons_cons, utf8_append, utf8_append, ih, map_cons, map_cons, map_cons,
        intercalate_cons_cons]
      rfl

theorem isUtf8_chars (chars : List Char) :
    IsUtf8 ((chars.map ofChar).flatMap Utf8.encodeChar) :=
  ⟨.ofList chars, by rw [utf8, ofString, String.toList_ofList]⟩

theorem IsUtf8.append {a b : Bytes} (ha : IsUtf8 a) (hb : IsUtf8 b) : IsUtf8 (a ++ b) := by
  obtain ⟨s, rfl⟩ := ha
  obtain ⟨t, rfl⟩ := hb
  exact ⟨s ++ t, utf8_append s t⟩

/-- An ASCII byte is no part of another character. -/
theorem IsUtf8.split {a b : Bytes} {q : UInt8} (hq : q.toNat < 0x80) (h : IsUtf8 (a ++ q :: b)) :
    IsUtf8 a ∧ IsUtf8 b := by
  obtain ⟨s, hs⟩ := h
  rw [utf8, ofString] at hs
  generalize s.toList = chars at hs
  induction chars generalizing a with
  | nil => simp at hs
  | cons c chars ih =>
    rw [map_cons, flatMap_cons, append_eq_append_iff] at hs
    have hc : IsUtf8 (Utf8.encodeChar (ofChar c)) := by simpa using isUtf8_chars [c]
    rcases hs with ⟨a, rfl, hrest⟩ | ⟨_ | ⟨q', more⟩, hchar, hrest⟩
    · exact (ih hrest).imp_left hc.append
    · rw [append_nil] at hchar
      exact ⟨hchar ▸ hc, (ih (a := []) hrest.symm).2⟩
    · obtain ⟨rfl, rfl⟩ := cons_eq_cons.1 hrest
      by_cases hascii : (ofChar c).val < 0x80
      · rw [Utf8.encodeChar, if_pos hascii] at hchar
        obtain ⟨rfl, hmore⟩ | ⟨_, -, hmore⟩ := cons_eq_append_iff.1 hchar
        · obtain ⟨-, rfl⟩ := cons_eq_cons.1 hmore
          exact ⟨isUtf8_chars [], isUtf8_chars chars⟩
        · simp at hmore
      · have := Utf8.le_of_mem_encodeChar Nat.le.refl (Nat.not_lt.1 hascii) q (by simp [hchar])
        omega

theorem IsUtf8.of_ascii {a b : Bytes} (ha : ∀ x ∈ a, x.toNat < 0x80) (h : IsUtf8 (a ++ b)) :
    IsUtf8 b := by
  induction a with
  | nil => exact h
  | cons x a ih =>
    rw [forall_mem_cons] at ha
    exact ih ha.2 (h.split (a := []) ha.1).2

theorem escapeByte_ascii {b : UInt8} (hb : b.toNat < 0x80) :
    IsUtf8 [b] ∧ escapeByte b ≠ [] ∧ ∀ x ∈ escapeByte b, x.toNat < 0x80 := by
  have hall : ∀ n : Fin 0x80, (utf8 (.ofList [Char.ofNat n.val]) = [UInt8.ofNat n.val] ∧
      escapeByte (.ofNat n.val) ≠ [] ∧
      ∀ x ∈ escapeByte (.ofNat n.val), x.toNat < 0x80) := by decide +kernel
  have := hall ⟨b.toNat, hb⟩
  rw [UInt8.ofNat_toNat] at this
  exact ⟨⟨_, this.1⟩, this.2⟩

/-- `json_escape` makes no text valid; `a` has the first bytes of a character. -/
theorem isUtf8_of_escape {a value : Bytes} (h : IsUtf8 (a ++ jsonEscapeBytes value)) :
    IsUtf8 (a ++ value) := by
  induction value generalizing a with
  | nil => exact h
  | cons b value ih =>
    rw [jsonEscapeBytes, flatMap_cons] at h
    rw [← singleton_append, ← append_assoc]
    by_cases hb : b.toNat < 0x80
    · obtain ⟨hself, hne, hascii⟩ := escapeByte_ascii hb
      obtain ⟨q, more, hcons⟩ := exists_cons_of_ne_nil hne
      rw [hcons] at h hascii
      rw [forall_mem_cons] at hascii
      obtain ⟨ha, hrest⟩ := h.split hascii.1
      exact (ha.append hself).append (ih (a := []) (hrest.of_ascii hascii.2))
    · rw [escapeByte_of_le (Nat.not_lt.1 hb), ← append_assoc] at h
      exact ih h

/-! ## The texts -/

/-- `encode_event` of an event of a frame, in bytes. -/
def encodeBytes (eventId occurredAt : String) (event : Packet.Event Bytes) : Bytes :=
  utf8 ("\x7b\"eventId\":\"" ++ jsonEscape eventId ++ "\",\"eventType\":\"" ++
    jsonEscape event.eventType ++ "\",\"occurredAt\":\"" ++ jsonEscape occurredAt ++
    "\",\"payload\":\x7b") ++
  [44].intercalate (event.payload.map fun entry =>
    utf8 ("\"" ++ jsonEscape entry.1 ++ "\":\"") ++ jsonEscapeBytes entry.2 ++ utf8 "\"") ++
  utf8 "\x7d\x7d"

/-- The body of a batch of texts, in bytes. -/
def bodyOf (agentId batchId sentAt : String) (texts : List Bytes) : Bytes :=
  utf8 (opening jsonEscape agentId batchId sentAt) ++ [44].intercalate texts ++ utf8 closing

def Sorted (event : Packet.Event Bytes) : Prop := event.payload.Pairwise fun x y => x.1 < y.1

variable {F : Type} {floats : Floats F} {limits : Limits} {eventId occurredAt : String}
  {event : Packet.Event Bytes}

theorem encodeBytes_eq (hsorted : Sorted event)
    (h : ∀ entry ∈ event.payload, IsUtf8 entry.2) :
    ∃ event', encodeBytes eventId occurredAt event = utf8 (encodeEvent event') := by
  choose! text htext using h
  let entries := event.payload.map fun entry => (entry.1, JsonValue.string (text entry))
  have hentries : entries.Pairwise fun x y => x.1 < y.1 := pairwise_map.2 hsorted
  refine ⟨⟨eventId, event.eventType, occurredAt, ⟨entries, hentries⟩⟩, ?_⟩
  have htexts : (event.payload.map fun entry =>
      utf8 ("\"" ++ jsonEscape entry.1 ++ "\":\"") ++ jsonEscapeBytes entry.2 ++ utf8 "\"") =
      (entries.map fun entry => member entry.1 (jsonValue entry.2)).map utf8 := by
    rw [map_map, map_map]
    refine map_congr_left fun entry hentry => ?_
    have hcolon : "\":\"" = "\":" ++ "\"" := rfl
    rw [← htext entry hentry, ← utf8_jsonEscape, ← utf8_append, ← utf8_append, hcolon]
    simp only [Function.comp_apply, member, jsonValue, quoted, String.append_assoc]
  rw [encodeBytes, htexts, ← utf8_intercalate, ← utf8_append, ← utf8_append]
  dsimp only [encodeEvent]

theorem bodyOf_map (agentId batchId sentAt : String) (texts : List String) :
    bodyOf agentId batchId sentAt (texts.map utf8) =
      utf8 (opening jsonEscape agentId batchId sentAt ++ ",".intercalate texts ++ closing) := by
  rw [bodyOf, ← utf8_intercalate, ← utf8_append, ← utf8_append]

/-- The collector, with what `EVENT_ADAPTER` makes of the value of an event. -/
structure Server (F Uuid P : Type) extends Collector.Service Uuid P where
  validate : Json F → Option (Collector.TelemetryEvent P)

variable {Uuid P : Type} (c : Server F Uuid P)

/-- What the loop of the collector is given of an event, with the answer of the broker. -/
def Server.received (event : Event) (acknowledged : Bool) : Collector.RawEvent P :=
  ⟨ofString event.eventId, c.validate event.toJson, acknowledged⟩

/-- The events of a batch, as the loop is given them. -/
def Server.batch (events : List (Event × Bool)) : List (Collector.RawEvent P) :=
  events.map fun e => c.received e.1 e.2

/-- The event does not make the loop raise. -/
def Server.Takes (event : Event) : Prop :=
  c.Valid (c.received event true) → ¬c.Unsendable (c.received event true)

/-- The texts of the events of a batch. -/
def textsOf (events : List (Event × Bool)) : List Bytes := events.map fun e => utf8 (encodeEvent e.1)

/-- A text of an event is UTF-8 and read as JSON, every batch with it is read, with its other events
    as they are, and these have the verdicts they have without it. -/
def Accepted (floats : Floats F) (limits : Limits) (text : Bytes) : Prop :=
  IsUtf8 text ∧ ∃ event : Event, loads floats limits text = .ok event.toJson ∧
    ∀ (agentId : String) (source : Fin 16 → UInt8) (now : Nat) (before after : List (Event × Bool)),
      loads floats limits (bodyOf agentId (uuidString source) (utcAt now)
          (textsOf before ++ text :: textsOf after)) =
        .ok (envelope (uuidString source) agentId (utcAt now)
          (before.map (·.1.toJson) ++ event.toJson :: after.map (·.1.toJson))) ∧
      ((∀ other ∈ before ++ after, other.1.eventId ≠ event.eventId) → ∀ acknowledged,
        ((c.batch before ++ c.received event acknowledged :: c.batch after).foldlM c.judge {}).map
            (·.others (ofString event.eventId)) =
          ((c.batch before ++ c.batch after).foldlM c.judge {}).map
            (·.others (ofString event.eventId)))

variable {c}

theorem accepted_encodeEvent (hlimits : Allows limits) {event : Event} (h : c.Takes event) :
    Accepted c floats limits (utf8 (encodeEvent event)) := by
  refine ⟨⟨_, rfl⟩, event, loads_encodeEvent hlimits event,
    fun agentId source now before after => ⟨?_, fun hids acknowledged => ?_⟩⟩
  · have hloads : loads floats limits _ = .ok (envelope (uuidString source) agentId (utcAt now) _) :=
      loads_envelope hlimits (jsonEscape_uuidString source) (jsonEscape_utcAt now)
        (before.map (·.1) ++ event :: after.map (·.1))
    rw [← bodyOf_map] at hloads
    simpa [textsOf, Function.comp_def] using hloads
  · have hother (o : Collector.RawEvent P) (ho : o ∈ c.batch before ++ c.batch after) :
        o.eventId ≠ ofString event.eventId := by
      rw [Server.batch, Server.batch, ← map_append] at ho
      obtain ⟨other, hmem, rfl⟩ := mem_map.1 ho
      exact fun heq => hids other hmem (ofString_injective heq)
    have htakes : c.Valid (c.received event acknowledged) →
        ¬c.Unsendable (c.received event acknowledged) := h
    exact c.foldlM_judge_others htakes hother

theorem takes_of_accepted (hlimits : Allows limits) {event : Event}
    (h : Accepted c floats limits (utf8 (encodeEvent event))) : c.Takes event := by
  obtain ⟨-, event', hloads, hbatch⟩ := h
  have hjson := Except.ok.inj (hloads.symm.trans (loads_encodeEvent hlimits event))
  have hreceived : c.received event' true = c.received event true := by
    simp_all [Server.received, Event.toJson, text]
  intro hvalid hunsendable
  -- in a batch of its own
  have hverdict := (hbatch "" default 0 [] []).2 (by simp) true
  have hseen : ∀ id, id ∈ ({} : Collector.Progress).seen ↔
      ∃ o ∈ ([] : List (Collector.RawEvent P)), o.eventId = id := by simp
  rcases c.judge_cases (c.received event true) hseen with ⟨-, herror⟩ | ⟨hstops, -⟩
  · have hloop : [c.received event true].foldlM c.judge {} = .error .raised := by
      rw [foldlM_cons, herror]
      rfl
    rw [hreceived] at hverdict
    cases (congrArg _ hloop).symm.trans hverdict
  · exact hstops ⟨⟨hvalid, by simp⟩, hunsendable⟩

theorem isInfix_intercalate (separator : Bytes) {x : Bytes} {l : List Bytes} (h : x ∈ l) :
    x <:+: separator.intercalate l := by
  induction l with
  | nil => cases h
  | cons y l ih =>
    cases l with
    | nil => simp_all
    | cons z l =>
      rw [intercalate_cons_cons]
      rcases mem_cons.1 h with rfl | h
      · rw [append_assoc]
        exact infix_append [] _ _
      · exact (ih h).trans (suffix_append _ _).isInfix

theorem isUtf8_of_encodeBytes (h : IsUtf8 (encodeBytes eventId occurredAt event)) :
    ∀ entry ∈ event.payload, IsUtf8 entry.2 := by
  intro entry hentry
  obtain ⟨a, b, hsplit⟩ := isInfix_intercalate [44] (mem_map_of_mem (f := fun entry =>
    utf8 ("\"" ++ jsonEscape entry.1 ++ "\":\"") ++ jsonEscapeBytes entry.2 ++ utf8 "\"") hentry)
  have hcolon : "\":\"" = "\":" ++ "\"" := rfl
  have hquote : utf8 "\"" = [34] := rfl
  rw [encodeBytes, ← hsplit, hcolon, ← String.append_assoc, utf8_append _ "\"", hquote] at h
  simp only [append_assoc, singleton_append] at h
  rw [← append_assoc, ← append_assoc] at h
  exact isUtf8_of_escape (a := []) ((h.split (by decide)).2.split (by decide)).1

/-! ## Frames -/

theorem emits_sorted (packet : Bytes) : Emits Sorted (parse packet) := by
  refine emits_parseEthernet (Packet.Windows.emits_parseUdp fun _ _ => ?_)
    (emits_parseSegment 1 _ (fun payload event h => ?_) fun hello => ?_) packet
  · simp [Sorted, -String.lt_iff_ltb]
  · dsimp only [parseHttp] at h
    split_ifs at h
    · cases h
      dsimp only [Sorted]
      cases header "Host:" _ <;> cases header "User-Agent:" _ <;> simp [-String.lt_iff_ltb]
    · cases h
  · dsimp only [Sorted, helloEvent]
    cases reported hello <;> simp [-String.lt_iff_ltb]

/-- The events of a frame leave the other events of a batch alone iff all their strings are UTF-8 and
    none of them makes the collector raise. -/
theorem accepted_iff (c : Server F Uuid P) (floats : Floats F) (limits : { limits // Allows limits })
    (eventId occurredAt : String) (packet : Bytes) :
    ∃ events errors, parse packet = .ok (events, errors) ∧
      ((∀ event ∈ events, Accepted c floats limits.1 (encodeBytes eventId occurredAt event)) ↔
        ∀ event ∈ events, (∀ entry ∈ event.payload, IsUtf8 entry.2) ∧
          ∀ sent, encodeBytes eventId occurredAt event = utf8 (encodeEvent sent) → c.Takes sent) := by
  obtain ⟨⟨events, errors⟩, hparse, -, hsorted⟩ := emits_sorted packet
  refine ⟨events, errors, hparse, forall₂_congr fun event hevent => ?_⟩
  refine ⟨fun h => ⟨isUtf8_of_encodeBytes h.1, fun sent hsent => ?_⟩, fun ⟨hutf8, htakes⟩ => ?_⟩
  · exact takes_of_accepted limits.2 (hsent ▸ h)
  · obtain ⟨sent, hsent⟩ := @encodeBytes_eq eventId occurredAt event (hsorted event hevent) hutf8
    exact hsent ▸ accepted_encodeEvent limits.2 (htakes sent hsent)

/-- A request for the URL `\xff`. -/
def invalidUrl : Bytes :=
  (default : Packet.Frame).encode 6 ((default : Packet.Segment).encode [71, 69, 84, 32, 255])

set_option maxRecDepth 4000 in
/-- The batch with the event of the request is not read, though its other event is. -/
theorem batch_invalidUrl :
    ∃ event, parse invalidUrl = .ok ([event], 0) ∧
      ∀ v, loads noFloats ⟨5, 19⟩ (bodyOf "agent-1" "00112233-4455-4677-8899-aabbccddeeff"
        (utcAt 1782896400007) [utf8 (encodeEvent answerEvent),
          encodeBytes "6f1d2a34-5b6c-4d7e-8f90-a1b2c3d4e5f6" (utcAt 1782896399120) event]) ≠
        .ok v := by
  let event : Packet.Event Bytes := ⟨"L7_EVENT",
    [("httpMethod", ascii "GET"), ("l7Protocol", ascii "HTTP"), ("url", [255])]⟩
  have herror : (loads noFloats ⟨5, 19⟩ (bodyOf "agent-1" "00112233-4455-4677-8899-aabbccddeeff"
      (utcAt 1782896400007) [utf8 (encodeEvent answerEvent),
        encodeBytes "6f1d2a34-5b6c-4d7e-8f90-a1b2c3d4e5f6" (utcAt 1782896399120) event])).toBool =
      false := by decide +kernel
  refine ⟨event, rfl, fun v hv => ?_⟩
  cases (congrArg Except.toBool hv).symm.trans herror

end Edr.Agent.Windows
