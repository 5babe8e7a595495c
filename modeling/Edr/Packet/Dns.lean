import Edr.Packet.Tls

/-!
# The question of a DNS message

Both parsers read the labels of the question after the header of twelve bytes, whatever the header
says, and join them by dots.
-/

namespace Edr.Packet

open List

open Cursor

def encodeLabels (labels : List Bytes) : Bytes := labels.flatMap fun l => l.length.toUInt8 :: l

structure Question where
  sourcePort : Nat
  destinationPort : Nat
  fields : Bytes
  header : Bytes
  labels : List Bytes
  queryType : Nat
  rest : Bytes
  source_lt : sourcePort < 65536
  destination_lt : destinationPort < 65536
  ports : sourcePort = 53 ∨ destinationPort = 53
  fields_length : fields.length = 4
  header_length : header.length = 12
  labels_ne_nil : labels ≠ []
  labels_length : ∀ l ∈ labels, l ≠ [] ∧ l.length ≤ 63
  labels_ascii : ∀ l ∈ labels, ∀ b ∈ l, b < 128
  queryType_lt : queryType < 65536

instance : Nonempty Question :=
  ⟨{  sourcePort := 53, destinationPort := 53, fields := replicate 4 0, header := replicate 12 0
      labels := [[97]], queryType := 1, rest := []
      source_lt := by decide, destination_lt := by decide, ports := .inl rfl, fields_length := rfl
      header_length := rfl, labels_ne_nil := nofun, labels_length := by decide
      labels_ascii := by simp, queryType_lt := by decide }⟩

def Question.message (question : Question) : Bytes :=
  question.header ++ (encodeLabels question.labels ++
    0 :: (encode16 question.queryType ++ question.rest))

def Question.encode (question : Question) : Bytes :=
  encode16 question.sourcePort ++ (encode16 question.destinationPort ++
    (question.fields ++ question.message))

section

variable {dns rest : Bytes}

theorem readLabels_encode {labels : List Bytes} (hlabels : ∀ l ∈ labels, l ≠ [] ∧ l.length ≤ 63)
    {cursor : Nat} (h : dns.drop cursor = encodeLabels labels ++ 0 :: rest) (before : List Bytes) :
    ∃ cursor', readLabels dns cursor before = .ok (some (before ++ labels, cursor')) ∧
      dns.drop cursor' = rest := by
  induction labels generalizing cursor before with
  | nil =>
    have hlength := length_of_drop h (by simp)
    obtain ⟨hbyte, hrest⟩ := byteAt_of_drop h
    refine ⟨cursor + 1, ?_, hrest⟩
    rw [readLabels, if_pos (by simp at hlength; omega), hbyte, append_nil]
    rfl
  | cons l labels ih =>
    rw [forall_mem_cons] at hlabels
    have hpos := length_pos_iff.2 hlabels.1.1
    have h : dns.drop cursor = l.length.toUInt8 :: (l ++ (encodeLabels labels ++ 0 :: rest)) := by
      rw [h, encodeLabels, flatMap_cons, cons_append, cons_append, append_assoc]
      rfl
    have hlength := length_of_drop h (by simp)
    simp only [length_cons, length_append] at hlength
    obtain ⟨hbyte, h⟩ := byteAt_of_drop h
    obtain ⟨hslice, h⟩ := slice_of_drop h (by omega)
    obtain ⟨cursor', hread, hrest⟩ := ih hlabels.2 h (before ++ [l])
    refine ⟨cursor', ?_, hrest⟩
    have hvalue : l.length.toUInt8.toNat = l.length := by
      simp [Nat.toUInt8]
      omega
    rw [readLabels, if_pos (by omega), hbyte, ok_bind, hvalue]
    dsimp only
    rw [if_neg (by omega), if_neg (by omega), hslice, ok_bind, hread, append_assoc]
    rfl

/-- No bytes make the loop leave the message. -/
theorem yields_readLabels (dns : Bytes) (cursor : Nat) (labels : List Bytes) :
    Yields (readLabels dns cursor labels) fun _ => True := by
  induction hn : dns.length - cursor using Nat.strongRecOn generalizing cursor labels with
  | ind n ih =>
    rw [readLabels]
    refine .ite (fun hlt => (yields_byteAt hlt).bind fun b _ => ?_) fun _ => .pure trivial
    refine .ite (fun _ => .pure trivial) fun _ => .ite (fun _ => .pure trivial) fun _ => ?_
    exact (yields_slice (by omega)).bind fun label _ => ih _ (by omega) _ _ rfl

end

/-! ## The events of both agents -/

/-- What both parsers read of a question. -/
theorem Question.reads (question : Question) {packet : Bytes} {offset : Nat}
    (h : packet.drop offset = question.encode) :
    offset + 20 ≤ packet.length ∧ u16 packet offset = .ok (some question.sourcePort) ∧
      u16 packet (offset + 2) = .ok (some question.destinationPort) ∧
      ∃ cursor, readLabels (packet.drop (offset + 8)) 12 [] = .ok (some (question.labels, cursor)) ∧
        u16 (packet.drop (offset + 8)) cursor = .ok (some question.queryType) := by
  have hlength := length_of_drop h (by simp [encode, encode16])
  simp only [encode, message, length_append, question.fields_length, question.header_length,
    length_cons, encode16, length_nil] at hlength
  obtain ⟨hsource, h⟩ := u16_of_drop question.source_lt h
  obtain ⟨hdestination, h⟩ := u16_of_drop question.destination_lt h
  have h := drop_add h
  rw [question.fields_length] at h
  have hdns : packet.drop (offset + 8) = question.message := h
  have hlabels : question.message.drop 12 = encodeLabels question.labels ++
    0 :: (encode16 question.queryType ++ question.rest) := drop_left' question.header_length
  obtain ⟨cursor, hread, htype⟩ := readLabels_encode question.labels_length hlabels []
  rw [hdns]
  exact ⟨by omega, hsource, hdestination, cursor, hread, (u16_of_drop question.queryType_lt htype).1⟩

/-- The Windows agent puts a dot before a label unless nothing comes before it. -/
theorem foldl_join {query : Bytes} (hquery : query ≠ []) (labels : List Bytes) :
    labels.foldl (fun query label => (if query = [] then query else query ++ ascii ".") ++ label)
      query = (ascii ".").intercalate (query :: labels) := by
  induction labels generalizing query with
  | nil => simp
  | cons l labels ih =>
    rw [foldl_cons, if_neg hquery, ih (by simp [hquery]), intercalate_cons_cons]
    cases labels <;> simp [intercalate_cons_cons]

theorem Windows.parseUdp_encode (question : Question) {packet : Bytes} {offset : Nat}
    (h : packet.drop offset = question.encode) :
    Windows.parseUdp packet offset = .ok ([⟨"DNS_QUERY",
      [("query", (ascii ".").intercalate question.labels),
        ("recordType", ascii (typeName Windows.recordTypes question.queryType))]⟩], 0) := by
  obtain ⟨hlength, hsource, hdestination, cursor, hlabels, htype⟩ := question.reads h
  obtain ⟨label, labels, hcons⟩ := exists_cons_of_ne_nil question.labels_ne_nil
  have hlabel : label ≠ [] := (question.labels_length label (by simp [hcons])).1
  have hports : ¬ (none ∈ [some question.sourcePort, some question.destinationPort] ∨
      some 53 ∉ [some question.sourcePort, some question.destinationPort]) := by
    rcases question.ports with hport | hport <;> simp [hport]
  simp only [Windows.parseUdp, hsource, hdestination, ok_bind]
  rw [if_neg (by omega), if_neg hports, suffix_eq (by omega), ok_bind, hlabels, ok_bind]
  dsimp only
  rw [htype, ok_bind, hcons]
  dsimp only
  rw [if_neg (by simp), foldl_cons, if_pos rfl, nil_append, foldl_join hlabel]
  rfl

theorem Macos.parseUDP_encode (swift : SwiftText) (question : Question) {packet : Bytes}
    {offset : Nat} (h : packet.drop offset = question.encode) :
    ∃ response, Macos.parseUDP swift packet offset = .ok ([⟨"DNS_QUERY",
      [("query", .string (['.'].intercalate (question.labels.map swift.decoding))),
        ("recordType", .string (typeName Macos.recordTypes question.queryType).toList)] ++
          response⟩], 0) := by
  obtain ⟨hlength, hsource, hdestination, cursor, hlabels, htype⟩ := question.reads h
  have hdns : 12 ≤ (packet.drop (offset + 8)).length := by
    rw [length_drop]
    omega
  obtain ⟨code, hcode, -⟩ := yields_byteAt (by omega : 3 < (packet.drop (offset + 8)).length)
  obtain ⟨flags, hflags, -⟩ := yields_byteAt (by omega : 2 < (packet.drop (offset + 8)).length)
  have hports : ¬ (question.sourcePort ≠ 53 ∧ question.destinationPort ≠ 53) :=
    fun h => question.ports.elim h.1 h.2
  have hsuffix := suffix_eq (by omega : offset + 8 ≤ packet.length)
  simp only [Macos.parseUDP, hsource, hdestination, hsuffix, hlabels, htype, hcode, hflags, ok_bind]
  rw [if_neg (by omega), if_neg hports, if_neg (by omega), if_neg question.labels_ne_nil]
  exact ⟨_, rfl⟩

theorem Windows.emits_parseUdp {P : Event Bytes → Prop}
    (hP : ∀ query type, P ⟨"DNS_QUERY", [("query", query), ("recordType", type)]⟩) (packet : Bytes)
    (offset : Nat) : Emits P (Windows.parseUdp packet offset) := by
  refine .ite (fun _ => emits_nil 1) fun hlength => ?_
  refine yields_u16.bind fun source _ => yields_u16.bind fun destination _ => ?_
  refine .ite (fun _ => emits_nil 0) fun _ => ?_
  rw [suffix_eq (by omega), ok_bind]
  refine (yields_readLabels _ _ _).bind fun r _ => ?_
  cases r with
  | none => exact emits_nil 1
  | some r =>
    refine yields_u16.bind fun queryType _ => ?_
    cases queryType with
    | none => exact emits_nil 1
    | some queryType => exact .ite (fun _ => emits_nil 1) fun _ => emits_singleton (hP _ _) 0

theorem Macos.bounded_parseUDP (swift : SwiftText) (packet : Bytes) (offset : Nat) :
    Bounded (Macos.parseUDP swift packet offset) := by
  refine .ite (fun _ => emits_nil 1) fun hlength => yields_u16.bind fun source _ => ?_
  cases source with
  | none => exact emits_nil 1
  | some source =>
    refine yields_u16.bind fun destination _ => ?_
    cases destination with
    | none => exact emits_nil 1
    | some destination =>
      refine .ite (fun _ => emits_nil 0) fun _ => ?_
      rw [suffix_eq (by omega), ok_bind]
      refine .ite (fun _ => emits_nil 1) fun hdns => ?_
      refine (yields_readLabels _ _ _).bind fun r _ => ?_
      cases r with
      | none => exact emits_nil 1
      | some r =>
        refine yields_u16.bind fun queryType _ => ?_
        cases queryType with
        | none => exact emits_nil 1
        | some queryType =>
          refine .ite (fun _ => emits_nil 1) fun _ => ?_
          exact (yields_byteAt (by omega)).bind fun _ _ => (yields_byteAt (by omega)).bind fun _ _ =>
            emits_singleton trivial 0

theorem parse_question (swift : SwiftText) :
    (∀ (frame : Frame) (question : Question),
      Windows.parse (frame.encode 17 question.encode) = .ok ([⟨"DNS_QUERY",
        [("query", (ascii ".").intercalate question.labels),
          ("recordType", ascii (typeName Windows.recordTypes question.queryType))]⟩], 0) ∧
      ∃ response, Macos.parse swift (frame.encode 17 question.encode) = .ok ([⟨"DNS_QUERY",
        [("query", .string (['.'].intercalate (question.labels.map fun l =>
            l.map fun b => Char.ofNat b.toNat))),
          ("recordType", .string (typeName Macos.recordTypes question.queryType).toList)] ++
            response⟩], 0)) ∧
    ∀ packet, (∀ offset, Bounded (Windows.parseUdp packet offset) ∧
        Bounded (Macos.parseUDP swift packet offset)) ∧
      Bounded (Windows.parse packet) ∧ Bounded (Macos.parse swift packet) := by
  refine ⟨fun frame question => ?_, fun packet => ⟨fun offset =>
    ⟨Windows.emits_parseUdp (fun _ _ => trivial) packet offset,
      Macos.bounded_parseUDP swift packet offset⟩,
    emits_parseEthernet (Windows.emits_parseUdp fun _ _ => trivial)
      (emits_parseSegment 1 _ (fun _ _ _ => trivial) fun _ => trivial) packet,
    emits_parseEthernet (Macos.bounded_parseUDP swift)
      (emits_parseSegment 0 _ (fun _ _ _ => trivial) fun _ => trivial) packet⟩⟩
  have h := frame.drop_offset 17 question.encode
  have hdecoding : (question.labels.map fun l => l.map fun b => Char.ofNat b.toNat) =
      question.labels.map swift.decoding :=
    map_congr_left fun l hl => (swift.decoding_ascii l (question.labels_ascii l hl)).symm
  rw [Windows.parse, Macos.parse, frame.parseEthernet_encode, frame.parseEthernet_encode, hdecoding]
  exact ⟨Windows.parseUdp_encode question h, Macos.parseUDP_encode swift question h⟩

end Edr.Packet
