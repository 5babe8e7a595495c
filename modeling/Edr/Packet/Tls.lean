import Edr.Packet

/-!
# The server name of a ClientHello

The extensions of a ClientHello are a list of types and lengths. Both parsers walk over it and take
the name of a `server_name` extension, which has a length of its own. That one is compared with the
end of all extensions, and not with the end of the extension that it is in.
-/

namespace Edr.Packet

open List

open Cursor

/-! ## Any bytes -/

structure Extension where
  type : Nat
  start : Nat
  length : Nat

def number (payload : Bytes) (i : Nat) : Nat :=
  (payload.getD i 0).toNat * 256 + (payload.getD (i + 1) 0).toNat

def extensions (payload : Bytes) (finish cursor : Nat) : List Extension :=
  if cursor + 4 + number payload (cursor + 2) ≤ finish then
    ⟨number payload cursor, cursor + 4, number payload (cursor + 2)⟩ ::
      extensions payload finish (cursor + 4 + number payload (cursor + 2))
  else []
termination_by finish - cursor

namespace Extension

variable (payload : Bytes) (finish : Nat) (e : Extension)

/-- The length of the name in a `server_name` extension. -/
def nameLength : Nat := number payload (e.start + 3)

def Names : Prop := e.type = 0 ∧ 5 ≤ e.length ∧ e.start + 5 + e.nameLength payload ≤ finish

instance : Decidable (e.Names payload finish) := inferInstanceAs (Decidable (_ ∧ _))

def serverName : ServerName :=
  ⟨e.start, e.length, (payload.drop (e.start + 5)).take (e.nameLength payload)⟩

end Extension

def named (payload : Bytes) (head : HelloHead) : Option Extension :=
  ((extensions payload head.finish head.cursor).filter
    fun e => e.Names payload head.finish).getLast?

section

variable {payload : Bytes} {finish i : Nat}

theorem u16_eq (h : i + 1 < payload.length) : u16 payload i = .ok (some (number payload i)) := by
  have hbyte {i : Nat} (h : i < payload.length) : byteAt payload i = .ok (payload.getD i 0) := by
    rw [byteAt, getElem?_eq_getElem h, getD_eq_getElem?_getD, getElem?_eq_getElem h]
    rfl
  rw [u16, if_pos h, hbyte (by omega), hbyte h]
  rfl

theorem readName_eq (hfinish : finish ≤ payload.length) (e : Extension)
    (he : e.start + e.length ≤ finish) (sni : Option ServerName) :
    readName payload finish e.type e.start e.length sni =
      .ok (if e.Names payload finish then some (e.serverName payload) else sni) := by
  have hiff : e.Names payload finish ↔
      (e.type = 0 ∧ e.length ≥ 5) ∧ e.start + 5 + number payload (e.start + 3) ≤ finish :=
    and_assoc.symm
  unfold readName
  by_cases hname : e.type = 0 ∧ e.length ≥ 5
  · rw [if_pos hname, u16_eq (by omega), ok_bind]
    simp only [hiff, hname, and_self, true_and]
    split_ifs with hfits
    · rw [slice, if_pos (by omega)]
      rfl
    · rfl
  · rw [if_neg hname, if_neg fun h => hname (hiff.1 h).1]
    rfl

theorem readExtensions_eq (unread : Nat) (hfinish : finish ≤ payload.length) (cursor : Nat)
    (sni : Option ServerName) :
    ∃ errors, readExtensions unread payload finish cursor sni =
      .ok ((extensions payload finish cursor).foldl (fun sni e =>
        if e.Names payload finish then some (e.serverName payload) else sni) sni, errors) := by
  induction hn : finish - cursor using Nat.strongRecOn generalizing cursor sni with
  | ind n ih =>
    rw [readExtensions, extensions]
    by_cases hheader : cursor + 4 ≤ finish
    · rw [if_pos hheader, u16_eq (by omega), u16_eq (by omega)]
      simp only [ok_bind]
      by_cases hfits : cursor + 4 + number payload (cursor + 2) ≤ finish
      · rw [if_neg (by omega), if_pos hfits, readName_eq hfinish
          ⟨number payload cursor, cursor + 4, number payload (cursor + 2)⟩ hfits, ok_bind, foldl_cons]
        exact ih _ (by omega) _ _ rfl
      · rw [if_pos (by omega), if_neg hfits]
        exact ⟨1, rfl⟩
    · rw [if_neg hheader, if_neg (by omega)]
      exact ⟨0, rfl⟩

theorem foldl_last {α β : Type} (p : α → Prop) [DecidablePred p] (f : α → β) (l : List α) :
    l.foldl (fun b a => if p a then some (f a) else b) none =
      ((l.filter fun a => p a).getLast?).map f := by
  induction l using List.reverseRecOn with
  | nil => rfl
  | append_singleton l a ih =>
    rw [foldl_concat, ih, filter_append]
    by_cases h : p a <;> simp [h]

theorem yields_readHead (payload : Bytes) :
    Yields (readHead payload) fun r => ∀ head, r.1 = some head → head.finish ≤ payload.length := by
  have hnone (errors : Nat) : Yields (pure ((none : Option HelloHead), errors)) fun r =>
      ∀ head, r.1 = some head → head.finish ≤ payload.length := .pure nofun
  refine .ite (fun _ => hnone 0) fun hlength => ?_
  refine (yields_byteAt (by omega)).bind fun _ _ => (yields_byteAt (by omega)).bind fun _ _ => ?_
  refine .ite (fun _ => hnone 0) fun _ => .ite (fun _ => hnone 1) fun _ => ?_
  refine yields_u16.bind fun version _ => .ite (fun _ => hnone 0) fun hsession => ?_
  refine (yields_byteAt (by omega)).bind fun session _ => yields_u16.bind fun ciphers _ => ?_
  cases ciphers with
  | none => exact hnone 0
  | some ciphers =>
    refine .ite (fun _ => hnone 0) fun _ => (yields_byteAt (by omega)).bind fun _ _ => ?_
    refine yields_u16.bind fun length _ => ?_
    cases length with
    | none => exact hnone 0
    | some length =>
      refine .pure fun head hhead => ?_
      cases hhead
      exact Nat.min_le_left _ _

/-- The reading of a ClientHello never leaves the segment, and reports the name of the last
    extension that has one. -/
theorem readHello_eq (unread : Nat) (payload : Bytes) :
    ∃ head errors, readHead payload = .ok (head, errors) ∧ ∃ errors, readHello unread payload =
      .ok (head.map fun head => ⟨head.version, (named payload head).map (·.serverName payload)⟩,
        errors) := by
  obtain ⟨⟨head, errors⟩, hread, hfinish⟩ := yields_readHead payload
  refine ⟨head, errors, hread, ?_⟩
  rw [readHello, hread, ok_bind]
  cases head with
  | none => exact ⟨errors, rfl⟩
  | some head =>
    obtain ⟨errors, hwalk⟩ := readExtensions_eq unread (hfinish head rfl) head.cursor none
    refine ⟨errors, ?_⟩
    dsimp only
    rw [hwalk, foldl_last, ok_bind]
    rfl

/-! ## Names that are inside of their extension -/

def ServerName.Inside (sni : ServerName) : Prop := 5 + sni.bytes.length ≤ sni.length

def OwnLength (payload : Bytes) : Prop :=
  ∀ head errors, readHead payload = .ok (some head, errors) →
    ∀ e ∈ named payload head, 5 + e.nameLength payload ≤ e.length

variable {head : HelloHead} {e : Extension}

theorem names_of_named (h : named payload head = some e) : e.Names payload head.finish :=
  of_decide_eq_true (mem_filter.1 (mem_of_getLast? h)).2

theorem length_serverName (hfinish : head.finish ≤ payload.length)
    (h : named payload head = some e) :
    (e.serverName payload).bytes.length = e.nameLength payload := by
  have hnames := (names_of_named h).2.2
  simp only [Extension.serverName, length_take, length_drop]
  omega

/-- Whatever is reported of a ClientHello, if it is the name unless this is empty. -/
theorem inside_iff (unread : Nat) (payload : Bytes) {report : Hello → Option ServerName}
    (hreport : ∀ hello sni, report hello = some sni → hello.sni = some sni)
    (hsome : ∀ hello sni, hello.sni = some sni → sni.bytes ≠ [] → report hello = some sni) :
    (∀ hello errors sni, readHello unread payload = .ok (some hello, errors) →
      report hello = some sni → sni.Inside) ↔ OwnLength payload := by
  obtain ⟨⟨head, errors⟩, hread, hfinish⟩ := yields_readHead payload
  obtain ⟨head', errors', hread', errors'', hhello⟩ := readHello_eq unread payload
  cases hread.symm.trans hread'
  constructor
  · intro h head errors hhead e he
    cases hread.symm.trans hhead
    have hlength := length_serverName (hfinish head rfl) he
    by_cases hempty : (e.serverName payload).bytes = []
    · rw [hempty, length_nil] at hlength
      have hfive := (names_of_named he).2.1
      omega
    · have hsni : (named payload head).map (·.serverName payload) = some (e.serverName payload) := by
        rw [he]
        rfl
      have hinside := h _ _ _ hhello (hsome _ _ hsni hempty)
      rwa [ServerName.Inside, hlength] at hinside
  · intro h hello errors sni hresult hsni
    cases head with
    | none => cases hhello.symm.trans hresult
    | some head =>
      cases hhello.symm.trans hresult
      obtain ⟨e, he, rfl⟩ := Option.map_eq_some_iff.1 (hreport _ _ hsni)
      rw [ServerName.Inside, length_serverName (hfinish head rfl) he]
      exact h head _ hread e he

end

theorem Macos.reported_of_ne_nil (swift : SwiftText) {hello : Hello} {sni : ServerName}
    (h : hello.sni = some sni) (hne : sni.bytes ≠ []) : Macos.reported swift hello = some sni := by
  have hne : swift.decoding sni.bytes ≠ [] := fun hnil => hne (swift.decoding_eq_nil _ hnil)
  rw [Macos.reported, h]
  exact Option.filter_some_pos (decide_eq_true hne)

theorem reported_inside_iff (swift : SwiftText) (payload : Bytes) :
    ((∀ hello errors sni, readHello 1 payload = .ok (some hello, errors) →
      Windows.reported hello = some sni → sni.Inside) ↔ OwnLength payload) ∧
    ((∀ hello errors sni, readHello 0 payload = .ok (some hello, errors) →
      Macos.reported swift hello = some sni → sni.Inside) ↔ OwnLength payload) := by
  exact ⟨inside_iff 1 payload (fun _ _ h => h) fun _ _ h _ => h,
    inside_iff 0 payload (fun _ _ h => Option.eq_some_of_filter_eq_some h) fun _ _ =>
      Macos.reported_of_ne_nil swift⟩

def overlong : Bytes :=
  [22, 3, 1, 0, 65, 1, 0, 0, 61, 3, 3] ++ replicate 32 0 ++ [0, 0, 2, 19, 1, 1, 0, 0, 17] ++
    [0, 0, 0, 5, 0, 3, 0, 0, 8] ++ [0, 21, 0, 4, 65, 66, 67, 68]

set_option maxRecDepth 2000 in
theorem overlong_reported (unread : Nat) : readHello unread overlong = .ok (some ⟨0x0303,
    some ⟨56, 5, [0, 21, 0, 4, 65, 66, 67, 68]⟩⟩, 0) := by
  have hhead : readHead overlong = .ok (some ⟨0x0303, 52, 69⟩, 0) := rfl
  have hfirst : u16 overlong 52 = .ok (some 0) ∧ u16 overlong 54 = .ok (some 5) := ⟨rfl, rfl⟩
  have hsecond : u16 overlong 61 = .ok (some 21) ∧ u16 overlong 63 = .ok (some 4) := ⟨rfl, rfl⟩
  have hname : readName overlong 69 0 56 5 none =
    .ok (some ⟨56, 5, [0, 21, 0, 4, 65, 66, 67, 68]⟩) := rfl
  have hother (sni) : readName overlong 69 21 65 4 sni = .ok sni := rfl
  rw [readHello, hhead, ok_bind]
  dsimp only
  rw [readExtensions]
  simp only [hfirst, hname, ok_bind]
  rw [if_pos (by omega), if_neg (by omega), readExtensions]
  simp only [hsecond, hother, ok_bind]
  rw [if_pos (by omega), if_neg (by omega), readExtensions]
  rfl

theorem overlong_not_inside :
    (¬ ∀ hello errors sni, readHello 1 overlong = .ok (some hello, errors) →
      Windows.reported hello = some sni → sni.Inside) ∧
    ¬ ∀ hello errors sni, readHello 0 overlong = .ok (some hello, errors) →
      Macos.reported SwiftText.latin1 hello = some sni → sni.Inside := by
  have hnot : ¬ (⟨56, 5, [0, 21, 0, 4, 65, 66, 67, 68]⟩ : ServerName).Inside := by
    simp [ServerName.Inside]
  exact ⟨fun h => hnot (h _ _ _ (overlong_reported 1) rfl),
    fun h => hnot (h _ _ _ (overlong_reported 0) rfl)⟩

/-! ## Well-formed ClientHellos -/

def encodeExtension (e : Nat × Bytes) : Bytes := encode16 e.1 ++ (encode16 e.2.length ++ e.2)

/-- The data of a `server_name` extension with one host name. -/
def encodeName (name : Bytes) : Bytes :=
  encode16 (name.length + 3) ++ 0 :: (encode16 name.length ++ name)

/-- A ClientHello with one host name, and the record that it is in. The lengths of the record and of
    the message are not read. -/
structure ClientHello where
  record : Bytes
  message : Bytes
  version : Nat
  random : Bytes
  session : Bytes
  ciphers : Bytes
  compression : Bytes
  before : List (Nat × Bytes)
  name : Bytes
  after : List (Nat × Bytes)
  record_length : record.length = 4
  message_length : message.length = 3
  version_lt : version < 65536
  random_length : random.length = 32
  session_lt : session.length < 256
  ciphers_lt : ciphers.length < 65536
  compression_lt : compression.length < 256
  others : ∀ e ∈ before ++ after, e.1 ≠ 0 ∧ e.1 < 65536
  name_ne_nil : name ≠ []
  name_ascii : ∀ b ∈ name, b < 128
  extensions_lt : ((before ++ (0, encodeName name) :: after).flatMap encodeExtension).length < 65536

instance : Inhabited ClientHello :=
  ⟨{  record := replicate 4 0, message := replicate 3 0, version := 0x0303, random := replicate 32 0
      session := [], ciphers := [], compression := [], before := [], name := [97], after := []
      record_length := rfl, message_length := rfl, version_lt := by decide, random_length := rfl
      session_lt := by decide, ciphers_lt := by decide, compression_lt := by decide
      others := nofun, name_ne_nil := nofun, name_ascii := by simp, extensions_lt := by decide }⟩

namespace ClientHello

variable (hello : ClientHello)

def block : Bytes :=
  (hello.before ++ (0, encodeName hello.name) :: hello.after).flatMap encodeExtension

def encode (rest : Bytes) : Bytes :=
  22 :: (hello.record ++ 1 :: (hello.message ++ (encode16 hello.version ++ (hello.random ++
    hello.session.length.toUInt8 :: (hello.session ++ (encode16 hello.ciphers.length ++
      (hello.ciphers ++ hello.compression.length.toUInt8 :: (hello.compression ++
        (encode16 hello.block.length ++ (hello.block ++ rest))))))))))

end ClientHello

section

variable {payload rest : Bytes} {cursor : Nat} (unread finish : Nat) (sni : Option ServerName)

/-- One turn of the loop. -/
theorem readExtensions_step {type : Nat} {data : Bytes} (htype : type < 65536)
    (hlength : data.length < 65536)
    (h : payload.drop cursor = encodeExtension (type, data) ++ rest)
    (hfits : cursor + 4 + data.length ≤ finish) :
    readExtensions unread payload finish cursor sni =
      (readName payload finish type (cursor + 4) data.length sni >>= fun sni =>
        readExtensions unread payload finish (cursor + 4 + data.length) sni) ∧
    payload.drop (cursor + 4) = data ++ rest := by
  rw [encodeExtension, append_assoc] at h
  obtain ⟨hread, h⟩ := u16_of_drop htype h
  rw [append_assoc] at h
  obtain ⟨hread', h⟩ := u16_of_drop hlength h
  refine ⟨?_, h⟩
  rw [readExtensions, if_pos (by omega), hread, hread']
  simp only [ok_bind]
  rw [if_neg (by omega)]

theorem length_encodeExtension (type : Nat) (data : Bytes) :
    (encodeExtension (type, data)).length = 4 + data.length := by
  simp [encodeExtension, encode16]
  omega

/-- Extensions of other types do not change the name. -/
theorem readExtensions_others {es : List (Nat × Bytes)} (hes : ∀ e ∈ es, e.1 ≠ 0 ∧ e.1 < 65536)
    (h : payload.drop cursor = es.flatMap encodeExtension ++ rest)
    (hfits : cursor + (es.flatMap encodeExtension).length ≤ finish)
    (hlt : (es.flatMap encodeExtension).length < 65536) :
    readExtensions unread payload finish cursor sni =
      readExtensions unread payload finish (cursor + (es.flatMap encodeExtension).length) sni := by
  induction es generalizing cursor with
  | nil => rfl
  | cons e es ih =>
    obtain ⟨type, data⟩ := e
    rw [forall_mem_cons] at hes
    rw [flatMap_cons, length_append, length_encodeExtension] at hfits hlt
    rw [flatMap_cons, append_assoc] at h
    obtain ⟨hstep, hdata⟩ := readExtensions_step unread finish sni hes.1.2 (by omega) h (by omega)
    have hname : readName payload finish type (cursor + 4) data.length sni = .ok sni := by
      rw [readName, if_neg fun hzero => hes.1.1 hzero.1]
      rfl
    rw [hstep, hname, ok_bind, ih hes.2 (drop_add hdata) (by omega) (by omega), flatMap_cons,
      length_append, length_encodeExtension]
    congr 1
    omega

theorem length_encodeName (name : Bytes) : (encodeName name).length = 5 + name.length := by
  simp [encodeName, encode16]
  omega

theorem readName_encode {name : Bytes} {start : Nat} (hlt : name.length < 65536)
    (h : payload.drop start = encodeName name ++ rest)
    (hfits : start + (encodeName name).length ≤ finish) :
    readName payload finish 0 start (encodeName name).length sni =
      .ok (some ⟨start, (encodeName name).length, name⟩) := by
  have hlength := length_encodeName name
  have hpayload := length_of_drop h (by simp [encodeName, encode16])
  rw [encodeName, append_assoc, cons_append, append_assoc] at h
  have h := drop_add h
  obtain ⟨-, h⟩ := byteAt_of_drop h
  have h : payload.drop (start + 3) = _ := h
  obtain ⟨hread, h⟩ := u16_of_drop hlt h
  obtain ⟨hslice, -⟩ := slice_of_drop h (by
    rw [hpayload, length_append, hlength]
    omega)
  rw [readName, if_pos ⟨rfl, by omega⟩, hread, ok_bind]
  dsimp only
  rw [if_pos (by omega), hslice]
  rfl

end

namespace ClientHello

variable (hello : ClientHello)

theorem readHead_encode (rest : Bytes) :
    ∃ cursor, readHead (hello.encode rest) =
      .ok (some ⟨hello.version, cursor, cursor + hello.block.length⟩, 0) ∧
      (hello.encode rest).drop cursor = hello.block ++ rest ∧
      cursor + hello.block.length ≤ (hello.encode rest).length := by
  have hbyte {n : Nat} (h : n < 256) : n.toUInt8.toNat = n := by
    simp [Nat.toUInt8, Nat.mod_eq_of_lt h]
  have h : (hello.encode rest).drop 0 = 22 :: _ := rfl
  obtain ⟨hrecord, h⟩ := byteAt_of_drop h
  have h := drop_add h
  rw [hello.record_length] at h
  obtain ⟨hmessage, h⟩ := byteAt_of_drop h
  have h := drop_add h
  rw [hello.message_length] at h
  obtain ⟨hversion, h⟩ := u16_of_drop hello.version_lt h
  have h := drop_add h
  rw [hello.random_length] at h
  have h : (hello.encode rest).drop 43 = _ := h
  have hlong := length_of_drop h (by simp)
  obtain ⟨hsession, h⟩ := byteAt_of_drop h
  have h := drop_add h
  obtain ⟨hciphers, h⟩ := u16_of_drop hello.ciphers_lt h
  have h := drop_add h
  have hlong' := length_of_drop h (by simp)
  obtain ⟨hcompression, h⟩ := byteAt_of_drop h
  have h := drop_add h
  obtain ⟨hextensions, h⟩ := u16_of_drop hello.extensions_lt h
  have hend := length_of_drop h (by simp [block, encodeExtension, encode16])
  rw [length_append] at hend
  rw [length_cons] at hlong hlong'
  refine ⟨_, ?_, h, by omega⟩
  simp only [readHead, hrecord, hmessage, hversion, ok_bind]
  rw [if_neg (by omega), if_neg (by simp), if_neg (by omega), if_neg (by omega)]
  simp only [hsession, hbyte hello.session_lt, hciphers, ok_bind]
  rw [if_neg (by omega)]
  simp only [hcompression, hbyte hello.compression_lt, hextensions, ok_bind]
  rw [Nat.min_eq_right]
  · rfl
  · change _ + hello.block.length ≤ _
    omega

/-- What is read of a well-formed ClientHello is its host name. -/
theorem readHello_encode (unread : Nat) (rest : Bytes) :
    ∃ start length, readHello unread (hello.encode rest) =
      .ok (some ⟨hello.version, some ⟨start, length, hello.name⟩⟩, 0) := by
  obtain ⟨cursor, hread, h, hfits⟩ := hello.readHead_encode rest
  have hblock : hello.block = hello.before.flatMap encodeExtension ++
      (encodeExtension (0, encodeName hello.name) ++ hello.after.flatMap encodeExtension) := by
    simp [block]
  have hlength := length_encodeName hello.name
  have hlt : hello.block.length < 65536 := hello.extensions_lt
  have hothers := forall_mem_append.1 hello.others
  set payload := hello.encode rest
  set finish := cursor + hello.block.length with hfinish
  rw [hblock, length_append, length_append, length_encodeExtension] at hlt hfinish
  rw [hblock, append_assoc, append_assoc] at h
  -- the extensions before the name, the name, and the extensions after it
  have hbefore := readExtensions_others unread finish none hothers.1 h (by omega) (by omega)
  have h := drop_add h
  obtain ⟨hstep, hdata⟩ := readExtensions_step unread finish none (by omega) (by omega) h
    (by omega)
  have hname := readName_encode finish none (by omega) hdata (by omega)
  have hafter sni := readExtensions_others unread finish sni hothers.2 (drop_add hdata) (by omega)
    (by omega)
  refine ⟨cursor + (hello.before.flatMap encodeExtension).length + 4,
    (encodeName hello.name).length, ?_⟩
  rw [readHello, hread, ok_bind]
  dsimp only
  rw [hbefore, hstep, hname, ok_bind, hafter, readExtensions, if_neg (by omega)]
  rfl

end ClientHello

/-- A TCP header of `words` words. -/
structure Segment where
  fields : Bytes
  words : Nat
  reserved : Nat
  options : Bytes
  fields_length : fields.length = 12
  words_ge : 5 ≤ words
  words_lt : words < 16
  reserved_lt : reserved < 16
  options_length : 13 + options.length = words * 4

instance : Inhabited Segment :=
  ⟨{  fields := (default : Frame).addresses, words := (default : Frame).words, reserved := 0
      options := replicate 7 0, fields_length := Frame.addresses_length _
      words_ge := Frame.words_ge _, words_lt := Frame.words_lt _, reserved_lt := by decide
      options_length := rfl }⟩

def Segment.encode (segment : Segment) (payload : Bytes) : Bytes :=
  segment.fields ++ (segment.words * 16 + segment.reserved).toUInt8 :: (segment.options ++ payload)

theorem Segment.tcpPayload_encode (segment : Segment) {packet payload : Bytes} {offset : Nat}
    (h : packet.drop offset = segment.encode payload) (hpayload : payload ≠ []) :
    offset + 20 ≤ packet.length ∧ tcpPayload packet offset = .ok (some payload) := by
  have hnibble : ∀ w < 16, ∀ r < 16, ((w * 16 + r).toUInt8 >>> (4 : UInt8) &&& 0x0f).toNat = w := by
    decide
  have hlength := length_of_drop h (by simp [encode])
  have hpos := length_pos_iff.2 hpayload
  have hwords := segment.words_ge
  have hoptions := segment.options_length
  simp only [encode, length_append, length_cons, segment.fields_length] at hlength
  have h := drop_add h
  rw [segment.fields_length] at h
  obtain ⟨hbyte, h⟩ := byteAt_of_drop h
  have h := drop_add h
  refine ⟨by omega, ?_⟩
  simp only [tcpPayload, hbyte, ok_bind, hnibble _ segment.words_lt _ segment.reserved_lt]
  rw [if_neg (by omega), suffix_eq (by omega), ← h, ok_bind]
  congr 3
  omega

/-! ## The events of both agents -/

theorem Windows.parseHttp_record (payload : Bytes) : Windows.parseHttp (22 :: payload) = none := by
  have hmethods : ∀ m ∈ httpMethods.map ascii, m.head? ≠ some 22 := by decide
  refine if_neg fun h => hmethods _ h.2 ?_
  rw [take_succ_cons]
  rfl

namespace Macos

theorem components_cons {c : Char} (hc : c ≠ '\r') (text : List Char) :
    ∃ line lines, components (c :: text) = (c :: line) :: lines := by
  rw [components]
  · cases components text with
    | nil => exact ⟨[], [], rfl⟩
    | cons line lines => exact ⟨line, lines, rfl⟩
  · exact fun _ h _ => hc h

theorem fields_cons {c : Char} (hc : c ≠ ' ') (line : List Char) :
    ∃ field fields, ((c :: line).splitOn ' ').filter (· ≠ []) = (c :: field) :: fields := by
  obtain ⟨field, fields, hsplit⟩ := exists_cons_of_ne_nil (splitOn_ne_nil ' ' line)
  refine ⟨field, fields.filter (· ≠ []), ?_⟩
  rw [splitOn_cons_eq_if_modifyHead, if_neg (by simpa using hc), hsplit]
  rfl

theorem parseHTTP_record (swift : SwiftText) (payload : Bytes) :
    parseHTTP swift (22 :: payload) = none := by
  have hmethods : ∀ m ∈ httpMethods.map String.toList, m.head? ≠ some (.ofNat 22) := by decide
  rw [parseHTTP, take_succ_cons]
  cases htext : swift.utf8 (22 :: payload.take 16383) with
  | none => rfl
  | some text =>
    obtain ⟨text, rfl⟩ := head?_eq_some_iff.1 (swift.utf8_head 22 _ text (by decide) htext)
    obtain ⟨line, lines, hlines⟩ := components_cons (by decide : Char.ofNat 22 ≠ _) text
    obtain ⟨field, fields, hfields⟩ := fields_cons (by decide : Char.ofNat 22 ≠ _) line
    have hmethod : Char.ofNat 22 :: field ∉ httpMethods.map String.toList :=
      fun h => hmethods _ h rfl
    simp only [UInt8.reduceToNat, Option.bind_eq_bind, Option.bind_some, hlines, head?_cons, hfields]
    rw [if_neg (by simp)]
    cases fields with
    | nil => rfl
    | cons url fields =>
      dsimp only
      rw [if_neg hmethod]
      rfl

end Macos

section

variable {τ : Type} {http : Bytes → Option (Event τ)} (unread : Nat) (report : Hello → Event τ)

theorem emits_parseSegment {P : Event τ → Prop} (hhttp : ∀ payload, ∀ event ∈ http payload, P event)
    (hreport : ∀ hello, P (report hello)) (packet : Bytes) (offset : Nat) :
    Emits P (parseSegment http unread report packet offset) := by
  dsimp only [parseSegment, tcpPayload]
  refine .ite (fun _ => emits_nil 1) fun _ => ?_
  simp only [bind_assoc]
  refine (yields_byteAt (by omega)).bind fun b _ => ?_
  split_ifs
  · exact emits_nil 0
  · rw [suffix_eq (by omega)]
    simp only [ok_bind, pure_bind]
    cases hevent : http (packet.drop _) with
    | some event => exact emits_singleton (hhttp _ event hevent) 0
    | none =>
      obtain ⟨head, _, _, errors, hhello⟩ := readHello_eq unread (packet.drop _)
      rw [hhello, ok_bind]
      cases head with
      | none => exact emits_nil errors
      | some head => exact emits_singleton (hreport _) errors

theorem parseSegment_encode (hhttp : ∀ payload, http (22 :: payload) = none) (segment : Segment)
    (hello : ClientHello) {packet rest : Bytes} {offset : Nat}
    (h : packet.drop offset = segment.encode (hello.encode rest)) :
    ∃ start length, parseSegment http unread report packet offset =
      .ok ([report ⟨hello.version, some ⟨start, length, hello.name⟩⟩], 0) := by
  obtain ⟨hlength, hpayload⟩ := segment.tcpPayload_encode h (by simp [ClientHello.encode])
  obtain ⟨start, length, hhello⟩ := hello.readHello_encode unread rest
  have hnone : http (hello.encode rest) = none := hhttp _
  refine ⟨start, length, ?_⟩
  dsimp only [parseSegment]
  rw [if_neg (by omega), hpayload, ok_bind]
  dsimp only
  rw [hnone, hhello]
  rfl

end

theorem parse_clientHello (swift : SwiftText) :
    (∀ (frame : Frame) (segment : Segment) (hello : ClientHello) (rest : Bytes),
      Windows.parse (frame.encode 6 (segment.encode (hello.encode rest))) =
        .ok ([⟨"L7_EVENT", [("l7Protocol", ascii "TLS"), ("tlsSni", hello.name),
          ("tlsVersion", ascii (Windows.tlsVersion hello.version))]⟩], 0) ∧
      Macos.parse swift (frame.encode 6 (segment.encode (hello.encode rest))) =
        .ok ([⟨"L7_EVENT", [("l7Protocol", .string "TLS".toList),
          ("tlsVersion", .string (Macos.tlsVersion hello.version).toList),
          ("tlsSni", .string (hello.name.map fun b => Char.ofNat b.toNat))]⟩], 0)) ∧
    ∀ packet offset, Bounded (Windows.parseTcp packet offset) ∧
      Bounded (Macos.parseTCP swift packet offset) := by
  refine ⟨fun frame segment hello rest => ?_, fun packet offset =>
    ⟨emits_parseSegment 1 _ (fun _ _ _ => trivial) (fun _ => trivial) packet offset,
      emits_parseSegment 0 _ (fun _ _ _ => trivial) (fun _ => trivial) packet offset⟩⟩
  have h := frame.drop_offset 6 (segment.encode (hello.encode rest))
  constructor
  · obtain ⟨start, length, hparse⟩ := parseSegment_encode 1 Windows.helloEvent
      Windows.parseHttp_record segment hello h
    rw [Windows.parse, frame.parseEthernet_encode]
    exact hparse
  · obtain ⟨start, length, hparse⟩ := parseSegment_encode 0 (Macos.helloEvent swift)
      (Macos.parseHTTP_record swift) segment hello h
    rw [Macos.parse, frame.parseEthernet_encode, ← swift.decoding_ascii _ hello.name_ascii]
    refine hparse.trans ?_
    rw [Macos.helloEvent, Macos.reported_of_ne_nil swift rfl hello.name_ne_nil]
    rfl

end Edr.Packet
