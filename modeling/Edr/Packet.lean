import Edr.Lib.Cursor

/-!
# The packet parsers of the agents

Both agents look into the Ethernet frames that they capture for DNS questions, HTTP requests and TLS
ClientHellos. The parsers are two programs of the same make: the header of the frame, the labels of a
name and the extensions of a ClientHello are read in the same way (`parseEthernet`, `readLabels`,
`readHello`), and differ in what is checked before and in what is reported (`Windows`, `Macos`).

A parser returns events and the number of parse errors that it has counted.
-/

namespace Edr.Packet

open List

open Cursor

/-! ## What the parsers share -/

structure Event (τ : Type) where
  eventType : String
  payload : List (String × τ)

abbrev Parsed (τ : Type) := List (Event τ) × Nat

section

variable {τ : Type}

/-- `parse_ethernet`, where `udp` and `tcp` parse what is in the packet from an offset on. -/
def parseEthernet (udp tcp : Bytes → Nat → Except Trap (Parsed τ)) (packet : Bytes) :
    Except Trap (Parsed τ) := do
  if packet.length < 34 then return ([], 0)
  if (← u16 packet 12) ≠ some 0x0800 then return ([], 0)
  let ipHeader := ((← byteAt packet 14) &&& 0x0f).toNat * 4
  if ipHeader < 20 ∨ packet.length < 14 + ipHeader then return ([], 1)
  let protocol ← byteAt packet 23
  if protocol = 17 then udp packet (14 + ipHeader)
  else if protocol = 6 then tcp packet (14 + ipHeader)
  else return ([], 0)

def readLabels (dns : Bytes) (cursor : Nat) (labels : List Bytes) :
    Except Trap (Option (List Bytes × Nat)) :=
  if cursor < dns.length then do
    let length := (← byteAt dns cursor).toNat
    if length = 0 then return some (labels, cursor + 1)
    else if length > 63 ∨ cursor + 1 + length > dns.length then return none
    else
      let label ← slice dns (cursor + 1) length
      readLabels dns (cursor + 1 + length) (labels ++ [label])
  else return some (labels, cursor)
termination_by dns.length - cursor

def tcpPayload (packet : Bytes) (offset : Nat) : Except Trap (Option Bytes) := do
  let tcpHeader := ((← byteAt packet (offset + 12)) >>> 4 &&& 0x0f).toNat * 4
  if tcpHeader < 20 ∨ packet.length ≤ offset + tcpHeader then return none
  return some (← suffix packet (offset + tcpHeader))

/-- A server name: the start and the length of the data of its extension, and its bytes. -/
structure ServerName where
  start : Nat
  length : Nat
  bytes : Bytes

def readName (payload : Bytes) (finish type start length : Nat) (sni : Option ServerName) :
    Except Trap (Option ServerName) := do
  if type = 0 ∧ length ≥ 5 then
    match ← u16 payload (start + 3) with
    | some nameLength =>
      if start + 5 + nameLength ≤ finish then
        return some ⟨start, length, ← slice payload (start + 5) nameLength⟩
      else return sni
    | none => return sni
  else return sni

/-- The loop over the extensions, where `unread` is counted if a length cannot be read. -/
def readExtensions (unread : Nat) (payload : Bytes) (finish cursor : Nat) (sni : Option ServerName) :
    Except Trap (Option ServerName × Nat) :=
  if cursor + 4 ≤ finish then do
    match ← u16 payload cursor, ← u16 payload (cursor + 2) with
    | some type, some length =>
      if cursor + 4 + length > finish then return (sni, 1)
      else
        let sni ← readName payload finish type (cursor + 4) length sni
        readExtensions unread payload finish (cursor + 4 + length) sni
    | _, _ => return (sni, unread)
  else return (sni, 0)
termination_by finish - cursor

/-- What is read of a ClientHello before its extensions, and where these begin and end. -/
structure HelloHead where
  version : Nat
  cursor : Nat
  finish : Nat

def readHead (payload : Bytes) : Except Trap (Option HelloHead × Nat) := do
  if payload.length < 9 then return (none, 0)
  if (← byteAt payload 0) ≠ 22 ∨ (← byteAt payload 5) ≠ 1 then return (none, 0)
  if 9 + 34 > payload.length then return (none, 1)
  let version := (← u16 payload 9).getD 0x0303
  if 43 ≥ payload.length then return (none, 0)
  let cursor := 43 + 1 + (← byteAt payload 43).toNat
  let some cipherLength ← u16 payload cursor | return (none, 0)
  let cursor := cursor + 2 + cipherLength
  if cursor ≥ payload.length then return (none, 0)
  let cursor := cursor + 1 + (← byteAt payload cursor).toNat
  let some extensionLength ← u16 payload cursor | return (none, 0)
  let cursor := cursor + 2
  return (some ⟨version, cursor, min payload.length (cursor + extensionLength)⟩, 0)

structure Hello where
  version : Nat
  sni : Option ServerName

def readHello (unread : Nat) (payload : Bytes) : Except Trap (Option Hello × Nat) := do
  match ← readHead payload with
  | (none, errors) => return (none, errors)
  | (some head, _) =>
    let (sni, errors) ← readExtensions unread payload head.finish head.cursor none
    return (some ⟨head.version, sni⟩, errors)

/-- What a TCP segment carries: a request, as `http` reads it, or a ClientHello. -/
def parseSegment (http : Bytes → Option (Event τ)) (unread : Nat) (report : Hello → Event τ)
    (packet : Bytes) (offset : Nat) : Except Trap (Parsed τ) := do
  if packet.length < offset + 20 then return ([], 1)
  let some payload ← tcpPayload packet offset | return ([], 0)
  match http payload with
  | some event => return ([event], 0)
  | none =>
    let (hello, errors) ← readHello unread payload
    return ((hello.map report).toList, errors)

end

def ascii (text : String) : Bytes := text.toList.map fun c => c.toNat.toUInt8

def httpMethods : List String := ["GET", "POST", "PUT", "PATCH", "DELETE", "HEAD", "OPTIONS"]

def typeName (types : List (Nat × String)) (n : Nat) : String := (types.lookup n).getD (toString n)

/-! ## The Windows agent -/

namespace Windows

def recordTypes : List (Nat × String) := [(1, "A"), (5, "CNAME"), (12, "PTR"), (28, "AAAA")]

/-- `parse_udp`. -/
def parseUdp (packet : Bytes) (offset : Nat) : Except Trap (Parsed Bytes) := do
  if packet.length < offset + 20 then return ([], 1)
  let ports := [← u16 packet offset, ← u16 packet (offset + 2)]
  if none ∈ ports ∨ some 53 ∉ ports then return ([], 0)
  let dns ← suffix packet (offset + 8)
  let some (labels, cursor) ← readLabels dns 12 [] | return ([], 1)
  let some queryType ← u16 dns cursor | return ([], 1)
  if labels = [] then return ([], 1)
  let query := labels.foldl (fun query label =>
    (if query = [] then query else query ++ ascii ".") ++ label) []
  return ([⟨"DNS_QUERY",
    [("query", query), ("recordType", ascii (typeName recordTypes queryType))]⟩], 0)

/-- The bytes before the first `\r\n`. -/
def firstLine : Bytes → Bytes
  | 13 :: 10 :: _ => []
  | b :: rest => b :: firstLine rest
  | [] => []

/-- `sanitize_url`. -/
def sanitizeUrl (url : Bytes) : Bytes := url.takeWhile fun b => decide (b ≠ 63 ∧ b ≠ 35)

def header (name : String) (lines : List Bytes) : Option Bytes :=
  (lines.filter fun line => (ascii name).isPrefixOf line).getLast?.map fun line =>
    let value := line.drop name.length
    if value.head? = some 32 then value.drop 1 else value

def parseHttp (payload : Bytes) : Option (Event Bytes) :=
  let text := payload.take 16384
  let first := firstLine text
  let method := first.takeWhile (· ≠ 32)
  if method.length < first.length ∧ method ∈ httpMethods.map ascii then
    let lines := (text.splitOn 10).map fun line =>
      if line.getLast? = some 13 then line.dropLast else line
    some ⟨"L7_EVENT", ((header "Host:" lines).map ("httpHost", ·)).toList ++
      [("httpMethod", method)] ++ ((header "User-Agent:" lines).map ("httpUserAgent", ·)).toList ++
      [("l7Protocol", ascii "HTTP"),
        ("url", sanitizeUrl ((first.drop (method.length + 1)).takeWhile (· ≠ 32)))]⟩
  else none

/-- `tls_version`. -/
def tlsVersion (value : Nat) : String :=
  ([(0x0301, "TLS1.0"), (0x0302, "TLS1.1"), (0x0303, "TLS1.2"), (0x0304, "TLS1.3")].lookup value).getD
    "UNKNOWN"

def reported (hello : Hello) : Option ServerName := hello.sni

def helloEvent (hello : Hello) : Event Bytes :=
  ⟨"L7_EVENT", [("l7Protocol", ascii "TLS")] ++
    ((reported hello).map fun sni => ("tlsSni", sni.bytes)).toList ++
    [("tlsVersion", ascii (tlsVersion hello.version))]⟩

/-- `parse_tcp`. -/
def parseTcp : Bytes → Nat → Except Trap (Parsed Bytes) := parseSegment parseHttp 1 helloEvent

/-- `PacketParser::parse_ethernet`. -/
def parse (packet : Bytes) : Except Trap (Parsed Bytes) := parseEthernet parseUdp parseTcp packet

end Windows

/-! ## The macOS agent -/

/-- The functions of Swift that are used: `String(decoding:as:)`, `String(data:encoding:)`,
    `lowercased`, `trimmingCharacters` and `Int`. -/
structure SwiftText where
  decoding : Bytes → List Char
  utf8 : Bytes → Option (List Char)
  lowercased : List Char → List Char
  trimming : List Char → List Char
  int : List Char → Option Int
  decoding_ascii : ∀ bytes : Bytes, (∀ b ∈ bytes, b < 128) →
    decoding bytes = bytes.map fun b => .ofNat b.toNat
  decoding_eq_nil : ∀ bytes, decoding bytes = [] → bytes = []
  utf8_head : ∀ (b : UInt8) (bytes : Bytes) text, b < 128 → utf8 (b :: bytes) = some text →
    text.head? = some (.ofNat b.toNat)

def SwiftText.latin1 : SwiftText where
  decoding bytes := bytes.map fun b => .ofNat b.toNat
  utf8 bytes := some (bytes.map fun b => .ofNat b.toNat)
  lowercased := id
  trimming := id
  int _ := none
  decoding_ascii _ _ := rfl
  decoding_eq_nil _ h := map_eq_nil_iff.1 h
  utf8_head := by
    rintro b bytes _ - ⟨rfl⟩
    rfl

namespace Macos

/-- `JSONValue`, as far as it is used. -/
inductive JSONValue
  | string (s : List Char)
  | integer (n : Int)

def recordTypes : List (Nat × String) :=
  [(1, "A"), (2, "NS"), (5, "CNAME"), (12, "PTR"), (15, "MX"), (16, "TXT"), (28, "AAAA")]

variable (swift : SwiftText)

/-- `parseUDP`. -/
def parseUDP (packet : Bytes) (offset : Nat) : Except Trap (Parsed JSONValue) := do
  if packet.length < offset + 8 then return ([], 1)
  let some sourcePort ← u16 packet offset | return ([], 1)
  let some destinationPort ← u16 packet (offset + 2) | return ([], 1)
  if sourcePort ≠ 53 ∧ destinationPort ≠ 53 then return ([], 0)
  let dns ← suffix packet (offset + 8)
  if dns.length < 12 then return ([], 1)
  let some (labels, cursor) ← readLabels dns 12 [] | return ([], 1)
  let some queryType ← u16 dns cursor | return ([], 1)
  if labels = [] then return ([], 1)
  let responseCode := ((← byteAt dns 3) &&& 0x0f).toNat
  let flags ← byteAt dns 2
  return ([⟨"DNS_QUERY", [("query", .string (['.'].intercalate (labels.map swift.decoding))),
    ("recordType", .string (typeName recordTypes queryType).toList)] ++
    if flags &&& 0x80 = 0 then []
    else [("responseCode",
      .string (if responseCode = 0 then "NOERROR" else toString responseCode).toList)]⟩], 0)

/-- The parts of a text between `\r\n`. -/
def components : List Char → List (List Char)
  | '\r' :: '\n' :: rest => [] :: components rest
  | c :: rest =>
    match components rest with
    | line :: lines => (c :: line) :: lines
    | [] => [[c]]
  | [] => [[]]

def header (name : String) (lines : List (List Char)) : Option JSONValue :=
  (lines.filter fun line => name.toList.isPrefixOf (swift.lowercased line)).getLast?.map fun line =>
    .string (swift.trimming (line.drop name.length))

/-- `parseHTTP`. -/
def parseHTTP (payload : Bytes) : Option (Event JSONValue) := do
  let text ← swift.utf8 (payload.take 16384)
  let lines := components text
  let first ← lines.head?
  let fields := (first.splitOn ' ').filter (· ≠ [])
  let start ←
    if "HTTP/".toList.isPrefixOf first then
      some ((fields[1]?.bind swift.int).map fun status =>
        ("httpStatusCode", .integer status)).toList
    else match fields with
      | method :: url :: _ =>
        if method ∈ httpMethods.map String.toList then
          some [("httpMethod", .string method),
            ("url", .string (url.takeWhile fun c => decide (c ≠ '?' ∧ c ≠ '#')))]
        else none
      | _ => none
  let others := lines.drop 1
  return ⟨"L7_EVENT", [("l7Protocol", .string "HTTP".toList)] ++ start ++
    ((header swift "host:" others).map ("httpHost", ·)).toList ++
    ((header swift "user-agent:" others).map ("httpUserAgent", ·)).toList⟩

/-- `tlsVersion`. -/
def tlsVersion (value : Nat) : String :=
  ([(0x0301, "TLS1.0"), (0x0302, "TLS1.1"), (0x0303, "TLS1.2"), (0x0304, "TLS1.3")].lookup value).getD
    ("0x" ++ String.ofList (leftpad 4 '0' (Nat.toDigits 16 value)))

def reported (hello : Hello) : Option ServerName :=
  hello.sni.filter fun sni => swift.decoding sni.bytes ≠ []

def helloEvent (hello : Hello) : Event JSONValue :=
  ⟨"L7_EVENT", [("l7Protocol", .string "TLS".toList),
    ("tlsVersion", .string (tlsVersion hello.version).toList)] ++
    ((reported swift hello).map fun sni => ("tlsSni", .string (swift.decoding sni.bytes))).toList⟩

/-- `parseTCP`. -/
def parseTCP : Bytes → Nat → Except Trap (Parsed JSONValue) :=
  parseSegment (parseHTTP swift) 0 (helloEvent swift)

/-- `PacketStreamParser.parseEthernet`. -/
def parse (packet : Bytes) : Except Trap (Parsed JSONValue) :=
  parseEthernet (parseUDP swift) (parseTCP swift) packet

end Macos

/-! ## The header of a frame -/

/-- An Ethernet frame with an IPv4 header of `words` words. -/
structure Frame where
  addresses : Bytes
  words : Nat
  fields : Bytes
  options : Bytes
  addresses_length : addresses.length = 12
  words_ge : 5 ≤ words
  words_lt : words < 16
  fields_length : fields.length = 8
  options_length : 10 + options.length = words * 4

instance : Inhabited Frame :=
  ⟨⟨replicate 12 0, 5, replicate 8 0, replicate 10 0, rfl, by decide, by decide, rfl, rfl⟩⟩

namespace Frame

variable (frame : Frame) (protocol : UInt8) (content : Bytes)

def encode : Bytes :=
  frame.addresses ++ (encode16 0x0800 ++ (0x40 + frame.words).toUInt8 :: (frame.fields ++
    protocol :: (frame.options ++ content)))

def offset : Nat := 14 + frame.words * 4

theorem drop_offset : (frame.encode protocol content).drop frame.offset = content := by
  have hsplit : frame.encode protocol content = (frame.addresses ++ (encode16 0x0800 ++
      (0x40 + frame.words).toUInt8 :: (frame.fields ++ protocol :: frame.options))) ++ content := by
    simp [encode]
  rw [hsplit]
  refine drop_left' ?_
  simp only [offset, length_append, length_cons, frame.addresses_length, frame.fields_length,
    ← frame.options_length, encode16, length_nil]
  omega

theorem length_encode : (frame.encode protocol content).length = frame.offset + content.length := by
  simp only [encode, offset, length_append, length_cons, frame.addresses_length,
    frame.fields_length, ← frame.options_length, encode16, length_nil]
  omega

theorem parseEthernet_encode {τ : Type} (udp tcp : Bytes → Nat → Except Trap (Parsed τ)) :
    parseEthernet udp tcp (frame.encode protocol content) =
      if protocol = 17 then udp (frame.encode protocol content) frame.offset
      else if protocol = 6 then tcp (frame.encode protocol content) frame.offset
      else .ok ([], 0) := by
  have hlength := frame.length_encode protocol content
  have hge := frame.words_ge
  have hlt := frame.words_lt
  have hnibble : ∀ n < 16, ((0x40 + n).toUInt8 &&& 0x0f).toNat = n := by decide
  have h : (frame.encode protocol content).drop 12 = _ := drop_left' frame.addresses_length
  obtain ⟨htype, h⟩ := u16_of_drop (by omega) h
  obtain ⟨hwords, h⟩ := byteAt_of_drop h
  have h := drop_add h
  rw [frame.fields_length] at h
  obtain ⟨hprotocol, -⟩ := byteAt_of_drop h
  simp only [offset] at hlength ⊢
  simp only [parseEthernet, htype, hwords, hprotocol, hnibble _ hlt, ok_bind]
  rw [if_neg (by omega), if_neg (by simp), if_neg (by omega)]
  rfl

end Frame

/-- The program does not read outside of the packet, and returns at most one event, in `P`. -/
def Emits {τ : Type} (P : Event τ → Prop) (x : Except Trap (Parsed τ)) : Prop :=
  Yields x fun r => r.1.length ≤ 1 ∧ ∀ event ∈ r.1, P event

def Bounded {τ : Type} (x : Except Trap (Parsed τ)) : Prop := Emits (fun _ => True) x

section

variable {τ : Type} {P : Event τ → Prop}

theorem emits_nil (errors : Nat) : Emits P (.ok ([], errors)) := .pure ⟨Nat.zero_le 1, nofun⟩

theorem emits_singleton {event : Event τ} (h : P event) (errors : Nat) :
    Emits P (.ok ([event], errors)) :=
  .pure ⟨Nat.le_refl 1, fun _ hmem => mem_singleton.1 hmem ▸ h⟩

theorem emits_parseEthernet {udp tcp : Bytes → Nat → Except Trap (Parsed τ)}
    (hudp : ∀ packet offset, Emits P (udp packet offset))
    (htcp : ∀ packet offset, Emits P (tcp packet offset)) (packet : Bytes) :
    Emits P (parseEthernet udp tcp packet) := by
  refine .ite (fun _ => emits_nil 0) fun hlength => yields_u16.bind fun type _ => ?_
  refine .ite (fun _ => emits_nil 0) fun _ => (yields_byteAt (by omega)).bind fun b _ => ?_
  refine .ite (fun _ => emits_nil 1) fun _ => (yields_byteAt (by omega)).bind fun p _ => ?_
  exact .ite (fun _ => hudp packet _) fun _ => .ite (fun _ => htcp packet _) fun _ => emits_nil 0

end

end Edr.Packet
