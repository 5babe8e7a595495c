import Edr.Lib.Cursor

/-!
# The capture stream of the macOS agent

`PacketStreamParser.append` is given what `tcpdump` writes, in chunks of any size. It cuts the records
off the start of a buffer, as `Data` does: `removeFirst` leaves the indices of the other bytes as they
are. The fields of a record are read as if the buffer began at index 0, which is so only until the
header has been removed.
-/

namespace Edr.Packet

open List

/-! ## The code -/

/-- `Data`: bytes, and the index of the first one. -/
structure Data where
  startIndex : Nat := 0
  bytes : List UInt8 := []

namespace Data

def count (data : Data) : Nat := data.bytes.length

def byte (data : Data) (i : Nat) : Except Trap UInt8 :=
  if data.startIndex ≤ i then
    match data.bytes[i - data.startIndex]? with
    | some b => .ok b
    | none => .error .outOfRange
  else .error .outOfRange

def slice (data : Data) (first last : Nat) : Except Trap (List UInt8) :=
  if data.startIndex ≤ first ∧ first ≤ last ∧ last ≤ data.startIndex + data.count then
    .ok ((data.bytes.drop (first - data.startIndex)).take (last - first))
  else .error .outOfRange

def removeFirst (data : Data) (n : Nat) : Data := ⟨data.startIndex + n, data.bytes.drop n⟩

def u32 (data : Data) (offset : Nat) (littleEndian : Bool) : Except Trap (Option Nat) :=
  if offset + 3 < data.count then do
    let b₀ ← data.byte offset
    let b₁ ← data.byte (offset + 1)
    let b₂ ← data.byte (offset + 2)
    let b₃ ← data.byte (offset + 3)
    return some (if littleEndian then
        b₀.toNat + b₁.toNat * 2 ^ 8 + b₂.toNat * 2 ^ 16 + b₃.toNat * 2 ^ 24
      else b₀.toNat * 2 ^ 24 + b₁.toNat * 2 ^ 16 + b₂.toNat * 2 ^ 8 + b₃.toNat)
  else return none

end Data

structure PacketStreamParser where
  buffer : Data := {}
  headerParsed : Bool := false
  littleEndian : Bool := true
  parseErrorCount : Nat := 0

section

variable {ε : Type} (parseEthernet : List UInt8 → List ε × Nat)

/-- The loop over the records, where `parseEthernet` returns the events of a packet and the number of
    its errors. -/
def readRecords (p : PacketStreamParser) : Except Trap (PacketStreamParser × List ε) :=
  if 16 ≤ p.buffer.count then do
    match ← p.buffer.u32 8 p.littleEndian with
    | some includedLength =>
      if includedLength ≤ 1048576 then
        if 16 + includedLength ≤ p.buffer.count then
          let packet ← p.buffer.slice 16 (16 + includedLength)
          let (events, errors) := parseEthernet packet
          let (p, rest) ← readRecords { p with
            buffer := p.buffer.removeFirst (16 + includedLength)
            parseErrorCount := p.parseErrorCount + errors }
          return (p, events ++ rest)
        else return (p, [])
      else return ({ p with buffer := {}, parseErrorCount := p.parseErrorCount + 1 }, [])
    | none => return ({ p with buffer := {}, parseErrorCount := p.parseErrorCount + 1 }, [])
  else return (p, [])
termination_by p.buffer.bytes.length
decreasing_by
  simp_all [Data.removeFirst, Data.count]
  omega

def magic (littleEndian : Bool) : List UInt8 :=
  if littleEndian then [0xd4, 0xc3, 0xb2, 0xa1] else [0xa1, 0xb2, 0xc3, 0xd4]

def PacketStreamParser.append (p : PacketStreamParser) (data : List UInt8) :
    Except Trap (PacketStreamParser × List ε) :=
  let p := { p with buffer := { p.buffer with bytes := p.buffer.bytes ++ data } }
  if p.headerParsed then readRecords parseEthernet p
  else if p.buffer.count < 24 then return (p, [])
  else
    let parsed := { p with buffer := p.buffer.removeFirst 24, headerParsed := true }
    if p.buffer.bytes.take 4 = magic true then
      readRecords parseEthernet { parsed with littleEndian := true }
    else if p.buffer.bytes.take 4 = magic false then
      readRecords parseEthernet { parsed with littleEndian := false }
    else return ({ p with buffer := {}, parseErrorCount := p.parseErrorCount + 1 }, [])

def feed (p : PacketStreamParser) : List (List UInt8) → Except Trap (PacketStreamParser × List ε)
  | [] => return (p, [])
  | chunk :: chunks => do
    let (p, events) ← p.append parseEthernet chunk
    let (p, rest) ← feed p chunks
    return (p, events ++ rest)

end

/-! ## Streams -/

section

variable {ε : Type} {parseEthernet : List UInt8 → List ε × Nat} {littleEndian : Bool}
  {stream fed chunk : List UInt8} {chunks : List (List UInt8)}

abbrev Record := List UInt8 × List UInt8

structure Record.Valid (littleEndian : Bool) (record : Record) : Prop where
  header : record.1.length = 16
  length : Data.u32 ⟨0, record.1⟩ 8 littleEndian = .ok (some record.2.length)
  bound : record.2.length ≤ 1048576

structure Header (littleEndian : Bool) (header : List UInt8) : Prop where
  length : header.length = 24
  magic : header.take 4 = magic littleEndian

def PacketStreamParser.after (littleEndian : Bool) (fed : List UInt8) : PacketStreamParser :=
  if fed.length < 24 then { buffer := ⟨0, fed⟩ }
  else { buffer := ⟨24, fed.drop 24⟩, headerParsed := true, littleEndian }

theorem readRecords_of_lt {p : PacketStreamParser} (h : p.buffer.count < 16) :
    readRecords parseEthernet p = .ok (p, []) := by
  rw [readRecords, if_neg (by omega)]
  rfl

/-- The length of the record is looked for before the start of the buffer. -/
theorem readRecords_fails {p : PacketStreamParser} (h : 16 ≤ p.buffer.count)
    (hstart : 8 < p.buffer.startIndex) : readRecords parseEthernet p = .error .outOfRange := by
  have hbyte : p.buffer.byte 8 = .error .outOfRange := if_neg (by omega)
  rw [readRecords, if_pos h, Data.u32, if_pos (by omega), hbyte]
  rfl

theorem append_after
    (hmagic : 24 ≤ (fed ++ chunk).length → (fed ++ chunk).take 4 = magic littleEndian) :
    (PacketStreamParser.after littleEndian fed).append parseEthernet chunk =
      if (fed ++ chunk).length < 40 then .ok (.after littleEndian (fed ++ chunk), [])
      else .error .outOfRange := by
  -- once there is a header, what comes after it is in the buffer, from index 24 on
  have hrecords (hlen : 24 ≤ (fed ++ chunk).length) :
      readRecords parseEthernet
        { buffer := ⟨24, (fed ++ chunk).drop 24⟩, headerParsed := true, littleEndian } =
      if (fed ++ chunk).length < 40 then .ok (.after littleEndian (fed ++ chunk), [])
      else .error .outOfRange := by
    split_ifs with hshort
    · rw [readRecords_of_lt (by simp [Data.count] at *; omega), PacketStreamParser.after,
        if_neg (by omega)]
    · exact readRecords_fails (by simp [Data.count] at *; omega) (show 8 < 24 by omega)
  by_cases hfed : fed.length < 24
  · rw [PacketStreamParser.after, if_pos hfed, PacketStreamParser.append]
    by_cases hlen : (fed ++ chunk).length < 24
    · simp [Data.count, PacketStreamParser.after] at *
      rw [if_pos hlen, if_pos (by omega), if_pos hlen]
      rfl
    · rw [← hrecords (by omega)]
      have hmagic := hmagic (by omega)
      cases littleEndian <;> simp [Data.count, Data.removeFirst, hmagic, magic] at * <;> omega
  · have hdrop : fed.drop 24 ++ chunk = (fed ++ chunk).drop 24 :=
      (drop_append_of_le_length (by omega)).symm
    rw [← hrecords (by simp; omega), PacketStreamParser.after, if_neg hfed, PacketStreamParser.append,
      if_pos rfl, hdrop]

theorem feed_eq (hfed : fed.length < 40) (hmagic : 24 ≤ (fed ++ chunks.flatten).length →
      (fed ++ chunks.flatten).take 4 = magic littleEndian) :
    feed parseEthernet (.after littleEndian fed) chunks =
      if (fed ++ chunks.flatten).length < 40 then
        .ok (.after littleEndian (fed ++ chunks.flatten), [])
      else .error .outOfRange := by
  induction chunks generalizing fed with
  | nil => simp [feed, hfed]; rfl
  | cons chunk chunks ih =>
    rw [flatten_cons, ← append_assoc] at hmagic ⊢
    have hfirst : 24 ≤ (fed ++ chunk).length → (fed ++ chunk).take 4 = magic littleEndian := by
      intro hlen
      exact (take_append_of_le_length (by omega)).symm.trans (hmagic (by rw [length_append]; omega))
    rw [feed, append_after hfirst]
    by_cases hshort : (fed ++ chunk).length < 40
    · rw [if_pos hshort]
      simp only [bind, Except.bind, ih hshort hmagic]
      split_ifs <;> rfl
    · rw [if_neg hshort, if_neg (by rw [length_append]; omega)]
      rfl

theorem feed_ok_iff {header : List UInt8} {records : List Record}
    (hheader : Header littleEndian header) (hrecords : ∀ r ∈ records, r.Valid littleEndian)
    (hchunks : chunks.flatten = header ++ records.flatMap fun r => r.1 ++ r.2) :
    (∃ p, feed parseEthernet {} chunks =
        .ok (p, records.flatMap fun r => (parseEthernet r.2).1) ∧
      p.parseErrorCount = (records.map fun r => (parseEthernet r.2).2).sum) ↔ records = [] := by
  have hstart : PacketStreamParser.after littleEndian [] = {} := rfl
  have hmagic : ([] ++ chunks.flatten).take 4 = magic littleEndian := by
    rw [nil_append, hchunks, take_append_of_le_length (by rw [hheader.length]; omega), hheader.magic]
  rw [← hstart, feed_eq (by decide) fun _ => hmagic, nil_append, hchunks, length_append,
    hheader.length]
  constructor
  · rintro ⟨p, hp, -⟩
    split_ifs at hp with hshort
    cases records with
    | nil => rfl
    | cons r records =>
      have hlength := (hrecords r mem_cons_self).header
      simp at hshort
      omega
  · rintro rfl
    refine ⟨_, if_pos (by simp), ?_⟩
    simp [PacketStreamParser.after, hheader.length]

theorem feed_header_only :
    ∃ p, feed (fun _ => ([()], 0)) {} [magic true, replicate 20 0] = .ok (p, []) ∧
      p.parseErrorCount = 0 := by
  have hheader : Header true (magic true ++ replicate 20 0) := ⟨rfl, rfl⟩
  have hrecords : ∀ r ∈ ([] : List Record), r.Valid true := by simp
  exact (feed_ok_iff hheader hrecords (by simp)).2 rfl

theorem feed_one_record : Record.Valid true (replicate 16 0, []) ∧
    feed (fun _ => ([()], 0)) {} [magic true ++ replicate 20 0 ++ replicate 16 0] =
      .error .outOfRange := by
  have hfeed : feed (fun _ => ([()], 0)) (.after true [])
      [magic true ++ replicate 20 0 ++ replicate 16 0] = _ := feed_eq (by decide) fun _ => rfl
  exact ⟨⟨rfl, rfl, by decide⟩, hfeed.trans (if_neg (by decide))⟩

end

end Edr.Packet
