import Edr.Buffer
import Edr.Lib.Prefixes

/-!
# The rows of a batch

Both agents send the rows that share the batch of the first one, as many of them as the limits on the
number of events and on the size of the body allow. The Windows agent adds one row after the other and
counts bytes, while the macOS agent encodes different numbers of rows, by bisection.
-/

namespace Edr.Agent

open List

open Prefixes

/-- The rows that share a batch. -/
def eligible (batchId : Option String) (rows : List BufferedRow) : List BufferedRow :=
  rows.filter fun row => decide (row.batchId = batchId)

theorem eligible_cons_self (first : BufferedRow) (rest : List BufferedRow) :
    eligible first.batchId (first :: rest) = first :: eligible first.batchId rest :=
  filter_cons_of_pos (decide_eq_true rfl)

/-- The limits on a batch. -/
structure Within (maxEvents maxBytes : Nat) (body : List BufferedRow → String)
    (rows : List BufferedRow) : Prop where
  events : rows.length ≤ maxEvents
  bytes : (body rows).utf8ByteSize ≤ maxBytes

/-- An agent chooses the longest prefix of the rows of the batch that is within the limits. -/
def ChoosesLongest (maxEvents maxBytes : Nat) (body : List BufferedRow → String)
    (batchId : Option String) (rows : List BufferedRow)
    (result : Except BufferError (Option Batch)) : Prop :=
  ∃ batch, result = .ok (some batch) ∧
    IsLongest (Within maxEvents maxBytes body) (eligible batchId rows) batch.rows

/-- More rows make a longer body. -/
def Grows (body : List BufferedRow → String) : Prop :=
  ∀ rows rows' : List BufferedRow, rows' <+: rows →
    (body rows').utf8ByteSize ≤ (body rows).utf8ByteSize

theorem Grows.closed {body : List BufferedRow → String} (h : Grows body)
    (maxEvents maxBytes : Nat) : Closed (Within maxEvents maxBytes body) :=
  fun rows rows' hcut hrows =>
    ⟨hcut.length_le.trans hrows.events, (h rows rows' hcut).trans hrows.bytes⟩

/-- The texts of the events, with commas between them. -/
def joined (encodeEvent : BufferedRow → String) (rows : List BufferedRow) : String :=
  ",".intercalate (rows.map encodeEvent)

theorem utf8ByteSize_joined (encodeEvent : BufferedRow → String) (rows : List BufferedRow) :
    (joined encodeEvent rows).utf8ByteSize =
      (rows.map fun row => (encodeEvent row).utf8ByteSize).sum + (rows.length - 1) := by
  induction rows with
  | nil => rfl
  | cons row rows ih =>
    cases rows with
    | nil => simp [joined]
    | cons next rows =>
      rw [joined, map_cons, String.intercalate_cons_of_ne_nil (by simp), ← joined,
        String.utf8ByteSize_append, String.utf8ByteSize_append, ih]
      simp only [map_cons, sum_cons, length_cons]
      have hcomma : ",".utf8ByteSize = 1 := rfl
      omega

namespace Windows

/-- What `make_batch` has when it has chosen these rows. -/
def assembled (rows : List BufferedRow) : Chosen := rows.foldl Chosen.add ⟨[], "", []⟩

/-- The body of `make_batch` with these rows. -/
def encodedBody (opening : String) (rows : List BufferedRow) : String :=
  opening ++ (assembled rows).events ++ closing

@[simp] theorem assembled_append_singleton (rows : List BufferedRow) (row : BufferedRow) :
    assembled (rows ++ [row]) = (assembled rows).add row := by
  rw [assembled, List.foldl_append]
  rfl

@[simp] theorem rows_assembled (rows : List BufferedRow) : (assembled rows).rows = rows := by
  induction rows using List.reverseRecOn with
  | nil => rfl
  | append_singleton rows row ih =>
    rw [assembled_append_singleton, Chosen.add, ih]

variable {rows : List BufferedRow}

theorem mem_seen_assembled {eventId : String} :
    eventId ∈ (assembled rows).seen ↔ eventId ∈ rows.map (·.eventId) := by
  induction rows using reverseRecOn with
  | nil => rfl
  | append_singleton rows row ih =>
    rw [assembled_append_singleton, Chosen.add, mem_cons, ih, map_append, mem_append,
      map_singleton, mem_singleton, or_comm]

theorem candidateSize_assembled (opening : String) (rows : List BufferedRow) (row : BufferedRow) :
    (assembled rows).candidateSize (opening.utf8ByteSize + closing.utf8ByteSize) row =
      (encodedBody opening (rows ++ [row])).utf8ByteSize := by
  rw [encodedBody, assembled_append_singleton, Chosen.add, Chosen.candidateSize]
  cases h : (assembled rows).events.isEmpty with
  | true =>
    have hempty : (assembled rows).events = "" := String.isEmpty_iff.1 h
    simp [hempty]
    omega
  | false =>
    have hcomma : ",".utf8ByteSize = 1 := rfl
    simp [hcomma]
    omega

theorem grows_encodedBody (opening : String) : Grows (encodedBody opening) := by
  rintro rows rows' ⟨added, rfl⟩
  induction added using reverseRecOn with
  | nil => rw [append_nil]
  | append_singleton added row ih =>
    refine ih.trans ?_
    rw [← append_assoc, ← candidateSize_assembled, Chosen.candidateSize, encodedBody,
      String.utf8ByteSize_append, String.utf8ByteSize_append]
    omega

theorem encodedBody_eq_joined {opening : String} (h : ∀ row ∈ rows, row.event.json ≠ "") :
    encodedBody opening rows = opening ++ joined (·.event.json) rows ++ closing := by
  rw [encodedBody]
  congr 2
  induction rows using reverseRecOn with
  | nil => rfl
  | append_singleton rows row ih =>
    have hih := ih fun row hrow => h row (mem_append_left _ hrow)
    rw [assembled_append_singleton, Chosen.add, hih, joined, joined, map_append,
      map_singleton]
    cases rows with
    | nil => simp
    | cons first rows =>
      -- the comma is left out only after an empty text
      have hne : (",".intercalate ((first :: rows).map (·.event.json))).isEmpty = false := by
        rw [Bool.eq_false_iff, Ne, String.isEmpty_iff, ← String.utf8ByteSize_eq_zero_iff, ← joined,
          utf8ByteSize_joined, map_cons, sum_cons]
        have hfirst := h first (mem_append_left _ mem_cons_self)
        rw [Ne, ← String.utf8ByteSize_eq_zero_iff] at hfirst
        omega
      rw [hne, String.intercalate_append_of_ne_nil (by simp) (by simp), String.intercalate_singleton]
      rfl

section

variable {existingBatchId : Option String} {opening : String} {maxEvents maxBytes : Nat}

/-- The loop of `make_batch`, when these rows have been chosen: the rows that it ends with are the
    longest prefix of those before and of those that may still be chosen. -/
theorem isLongest_fill {before : List BufferedRow}
    (hbefore : Within maxEvents maxBytes (encodedBody opening) before)
    (hids : ((before ++ rows).map (·.eventId)).Nodup)
    (hfirst : before = [] → 0 < maxEvents → ∀ row, (eligible existingBatchId rows).head? = some row →
      (encodedBody opening [row]).utf8ByteSize ≤ maxBytes) :
    ∃ chosen, fill existingBatchId (opening.utf8ByteSize + closing.utf8ByteSize) maxEvents maxBytes
        rows (assembled before) = .ok (assembled chosen) ∧
      IsLongest (Within maxEvents maxBytes (encodedBody opening))
        (before ++ eligible existingBatchId rows) chosen := by
  have hclosed := (grows_encodedBody opening).closed maxEvents maxBytes
  induction rows generalizing before with
  | nil =>
    exact ⟨before, rfl, isLongest_append hclosed hbefore nofun⟩
  | cons row rows ih =>
    have hids' : ((before ++ rows).map (·.eventId)).Nodup :=
      hids.sublist (((sublist_cons_self row rows).append_left before).map _)
    rw [fill]
    by_cases hbatch : row.batchId = existingBatchId
    · have heligible : eligible existingBatchId (row :: rows) =
          row :: eligible existingBatchId rows :=
        filter_cons_of_pos (decide_eq_true hbatch)
      have hnew : row.eventId ∉ (assembled before).seen := by
        rw [mem_seen_assembled]
        intro hmem
        rw [map_append, nodup_append] at hids
        exact hids.2.2 _ hmem _ mem_cons_self rfl
      rw [if_neg (not_not.2 hbatch), rows_assembled, heligible, candidateSize_assembled]
      by_cases hfull : maxEvents ≤ before.length
      · -- nothing more is chosen, by this loop or by any prefix
        obtain ⟨chosen, hfill, hlongest⟩ := ih hbefore hids' fun hnil hpos => by
          rw [hnil] at hfull
          exact absurd hfull (Nat.not_le.2 hpos)
        have hstuck (after : List BufferedRow) : IsLongest
            (Within maxEvents maxBytes (encodedBody opening)) (before ++ after) before :=
          isLongest_append hclosed hbefore fun a rest _ h => by
            have := h.events
            rw [length_append, length_singleton] at this
            omega
        rw [if_pos (.inl hfull), hfill, hlongest.unique (hstuck _)]
        exact ⟨before, rfl, hstuck _⟩
      · rw [if_neg (not_or.2 ⟨hfull, hnew⟩)]
        by_cases hsize : maxBytes < (encodedBody opening (before ++ [row])).utf8ByteSize
        · rw [if_pos hsize]
          cases before with
          | nil =>
            have hfits := hfirst rfl (Nat.pos_of_ne_zero fun h => hfull (h ▸ Nat.zero_le _)) row
              (by rw [heligible, head?_cons])
            exact absurd hfits (Nat.not_le.2 hsize)
          | cons b before =>
            rw [isEmpty_cons, if_neg Bool.false_ne_true]
            refine ⟨b :: before, rfl, isLongest_append hclosed hbefore fun a rest h hp => ?_⟩
            cases h
            exact Nat.not_le.2 hsize hp.bytes
        · rw [if_neg hsize, ← assembled_append_singleton]
          have hadded : Within maxEvents maxBytes (encodedBody opening) (before ++ [row]) :=
            ⟨by rw [length_append, length_singleton]; omega, Nat.not_lt.1 hsize⟩
          obtain ⟨chosen, hfill, hlongest⟩ := ih hadded
            (by rwa [append_assoc, singleton_append])
            (fun h => absurd h (append_ne_nil_of_right_ne_nil _ (cons_ne_nil _ _)))
          rw [append_assoc, singleton_append] at hlongest
          exact ⟨chosen, hfill, hlongest⟩
    · have heligible : eligible existingBatchId (row :: rows) = eligible existingBatchId rows :=
        filter_cons_of_neg (by rwa [decide_eq_true_eq])
      rw [if_pos hbatch, heligible]
      rw [heligible] at hfirst
      exact ih hbefore hids' hfirst

end

variable {agentId generated sentAt text : String} {first : BufferedRow}
  {jsonEscape : String → String} {maxBytes maxEvents : Nat} {rest : List BufferedRow} {batch : Batch}

theorem makeBatch_cons
    (htext : opening jsonEscape agentId (first.batchId.getD generated) sentAt = text) :
    makeBatch jsonEscape agentId sentAt generated maxEvents maxBytes (first :: rest) =
      (fill first.batchId (text.utf8ByteSize + closing.utf8ByteSize) maxEvents maxBytes
        (first :: rest) (assembled [])).map fun chosen =>
          some ⟨first.batchId.getD generated,
            if chosen.rows.isEmpty then "" else text ++ chosen.events ++ closing, chosen.rows⟩ := by
  subst htext
  simp only [makeBatch, show (⟨[], "", []⟩ : Chosen) = assembled [] from rfl]
  split <;> rename_i h <;> rw [h] <;> rfl

theorem exists_assembled_of_fill {existingBatchId : Option String} {envelope : Nat}
    {before : List BufferedRow} {chosen : Chosen}
    (h : fill existingBatchId envelope maxEvents maxBytes rows (assembled before) = .ok chosen) :
    ∃ rows', chosen = assembled rows' := by
  induction rows generalizing before with
  | nil =>
    cases h
    exact ⟨before, rfl⟩
  | cons row rows ih =>
    rw [fill] at h
    split_ifs at h with hbatch hskip hsize hfirst
    · exact ih h
    · exact ih h
    · cases h
      exact ⟨before, rfl⟩
    · rw [← assembled_append_singleton] at h
      exact ih h

theorem body_of_makeBatch
    (h : makeBatch jsonEscape agentId sentAt generated maxEvents maxBytes rows = .ok (some batch))
    (hrows : batch.rows ≠ []) :
    batch.body = encodedBody (opening jsonEscape agentId batch.batchId sentAt) batch.rows := by
  cases rows with
  | nil => cases h
  | cons first rest =>
    rw [makeBatch_cons rfl] at h
    rcases hfill : fill _ _ _ _ _ _ with e | chosen <;> rw [hfill] at h <;> cases h
    obtain ⟨rows, rfl⟩ := exists_assembled_of_fill hfill
    refine (if_neg (by simpa using hrows)).trans ?_
    rw [rows_assembled, encodedBody]

theorem fits_of_makeBatch
    (htext : opening jsonEscape agentId (first.batchId.getD generated) sentAt = text)
    (h : makeBatch jsonEscape agentId sentAt generated maxEvents maxBytes (first :: rest) =
      .ok (some batch)) (hpos : 0 < maxEvents) :
    (encodedBody text [first]).utf8ByteSize ≤ maxBytes := by
  by_contra hsize
  have hfull : ¬(maxEvents ≤ (assembled []).rows.length ∨ first.eventId ∈ (assembled []).seen) :=
    fun h => h.elim (Nat.not_le.2 hpos) not_mem_nil
  rw [makeBatch_cons htext, fill, if_neg (not_not.2 rfl), if_neg hfull, candidateSize_assembled,
    nil_append, if_pos (Nat.not_le.1 hsize)] at h
  cases h

theorem isLongest_makeBatch
    (htext : opening jsonEscape agentId (first.batchId.getD generated) sentAt = text)
    (hids : ((first :: rest).map (·.eventId)).Nodup)
    (hfits : (encodedBody text [first]).utf8ByteSize ≤ maxBytes) :
    ChoosesLongest maxEvents maxBytes (encodedBody text) first.batchId (first :: rest)
      (makeBatch jsonEscape agentId sentAt generated maxEvents maxBytes (first :: rest)) := by
  have hnone : Within maxEvents maxBytes (encodedBody text) [] :=
    ⟨Nat.zero_le _, (grows_encodedBody _ _ _ <| nil_prefix).trans hfits⟩
  have hfirst (_ : ([] : List BufferedRow) = []) (_ : 0 < maxEvents) (row : BufferedRow)
      (hrow : (eligible first.batchId (first :: rest)).head? = some row) :
      (encodedBody text [row]).utf8ByteSize ≤ maxBytes := by
    rw [eligible_cons_self, head?_cons] at hrow
    cases hrow
    exact hfits
  obtain ⟨chosen, hfill, hlongest⟩ := isLongest_fill hnone hids hfirst
  rw [makeBatch_cons htext, hfill]
  exact ⟨_, rfl, (rows_assembled chosen).symm ▸ hlongest⟩

end Windows

namespace MacOS

theorem keepNew_eq_self {seen : List String} {rows : List BufferedRow}
    (hids : (rows.map (·.eventId)).Nodup) (hseen : ∀ row ∈ rows, row.eventId ∉ seen) :
    keepNew seen rows = rows := by
  induction rows generalizing seen with
  | nil => rfl
  | cons row rows ih =>
    rw [map_cons, nodup_cons] at hids
    rw [keepNew, if_neg (hseen row mem_cons_self), ih hids.2]
    intro row' hrow' hmem
    rcases mem_cons.1 hmem with heq | hmem
    · exact hids.1 (heq ▸ mem_map_of_mem hrow')
    · exact hseen row' (mem_cons_of_mem row hrow') hmem

/-- The bisection finds the greatest number that fits. Below the interval everything fits, and above
    it nothing. -/
theorem bisect_spec {fits : Nat → Bool} (hmono : ∀ m n, m ≤ n → fits n = true → fits m = true)
    (turns lowerBound upperBound bestCount : Nat) (hturns : upperBound < turns + lowerBound)
    (hbest : fits bestCount = true) (hlower : lowerBound = bestCount + 1)
    (hupper : bestCount ≤ upperBound) {count : Nat} (hcount : upperBound ≤ count)
    (habove : ∀ n, upperBound < n → n ≤ count → fits n = false) :
    fits (bisect fits turns lowerBound upperBound bestCount) = true ∧
      ∀ n ≤ count, fits n = true → n ≤ bisect fits turns lowerBound upperBound bestCount := by
  induction turns generalizing lowerBound upperBound bestCount with
  | zero =>
    refine ⟨hbest, fun n hn hfits => ?_⟩
    by_contra hlt
    have := habove n (by rw [bisect] at hlt; omega) hn
    rw [hfits] at this
    cases this
  | succ turns ih =>
    simp only [bisect]
    split_ifs with hle hfits
    · exact ih _ _ _ (by omega) hfits rfl (by omega) hcount habove
    · refine ih _ _ _ (by omega) hbest hlower (by omega) (by omega) fun n hn hcount => ?_
      by_contra hn'
      exact hfits (hmono _ n (by omega) (Bool.eq_true_of_not_eq_false hn'))
    · refine ⟨hbest, fun n hn hfits => ?_⟩
      by_contra hlt
      have := habove n (by omega) hn
      rw [hfits] at this
      cases this

/-- The body of `select` with these rows. -/
def encodedBody (encode : TelemetryBatch → String) (agentId sentAt batchId : String)
    (rows : List BufferedRow) : String :=
  encode ⟨batchId, agentId, sentAt, rows.map (·.event)⟩

/-- The body is the texts of its events, between an opening and a closing that are always the same. -/
def Joins (body : List BufferedRow → String) (opening closing : String)
    (encodeEvent : Event → String) : Prop :=
  ∀ rows, body rows = opening ++ joined (fun row => encodeEvent row.event) rows ++ closing

/-- So is the body of every batch. -/
def JoinsEvents (encode : TelemetryBatch → String) : Prop :=
  ∃ encodeEvent : Event → String, ∀ batchId agentId sentAt, ∃ opening closing, ∀ events,
    encode ⟨batchId, agentId, sentAt, events⟩ =
      opening ++ ",".intercalate (events.map encodeEvent) ++ closing

theorem grows_of_joins {body : List BufferedRow → String} {opening closing : String}
    {encodeEvent : Event → String} (h : Joins body opening closing encodeEvent) : Grows body := by
  rintro rows rows' ⟨added, rfl⟩
  rw [h rows', h (rows' ++ added)]
  simp only [String.utf8ByteSize_append, utf8ByteSize_joined, map_append, sum_append,
    length_append]
  omega

theorem JoinsEvents.grows {encode : TelemetryBatch → String} (h : JoinsEvents encode)
    (agentId sentAt batchId : String) : Grows (encodedBody encode agentId sentAt batchId) := by
  obtain ⟨encodeEvent, hencode⟩ := h
  obtain ⟨opening, closing, hjoins⟩ := hencode batchId agentId sentAt
  refine grows_of_joins (fun rows => ?_ : Joins _ opening closing encodeEvent)
  rw [encodedBody, hjoins, map_map]
  rfl

section

variable {encode : TelemetryBatch → String} {agentId sentAt generated : String}
  {maxEvents maxBodyBytes : Nat} {first : BufferedRow} {rest : List BufferedRow}
  {body : List BufferedRow → String}

theorem candidates_eq (hids : ((first :: rest).map (·.eventId)).Nodup) :
    keepNew [] (((first :: rest).filter fun row => decide (row.batchId = first.batchId)).take
      maxEvents) = (eligible first.batchId (first :: rest)).take maxEvents := by
  refine keepNew_eq_self (hids.sublist (.map _ ?_)) fun _ _ => not_mem_nil
  exact (take_sublist _ _).trans filter_sublist

/-- The test of the bisection: the body of the first candidates is not too long. -/
def fitsFirst (body : List BufferedRow → String) (maxBodyBytes : Nat) (candidates : List BufferedRow)
    (count : Nat) : Bool :=
  decide ((body (candidates.take count)).utf8ByteSize ≤ maxBodyBytes)

theorem isLongest_bisect (hgrows : Grows body)
    {rows candidates : List BufferedRow} (hcandidates : rows.take maxEvents = candidates)
    (hne : candidates ≠ []) (hfits : fitsFirst body maxBodyBytes candidates 1 = true) :
    IsLongest (Within maxEvents maxBodyBytes body) rows
      (candidates.take (bisect (fitsFirst body maxBodyBytes candidates) candidates.length 2
        candidates.length 1)) := by
  have hmono (m n : Nat) (hmn : m ≤ n) (h : fitsFirst body maxBodyBytes candidates n = true) :
      fitsFirst body maxBodyBytes candidates m = true :=
    decide_eq_true ((hgrows _ _ (take_prefix_take_left hmn)).trans (of_decide_eq_true h))
  obtain ⟨hbest, hlast⟩ := bisect_spec hmono candidates.length 2 candidates.length 1 (by omega) hfits
    rfl (length_pos_iff.2 hne) (Nat.le_refl _) (fun n hlt hle => absurd hle (Nat.not_le.2 hlt))
  generalize bisect (fitsFirst body maxBodyBytes candidates) candidates.length 2 candidates.length 1
    = best at *
  have hcut (n : Nat) : candidates.take n = rows.take (min n maxEvents) := by
    rw [← hcandidates, take_take]
  rw [hcut]
  refine isLongest_take ⟨?_, hcut best ▸ of_decide_eq_true hbest⟩ fun m hm h => ?_
  · exact (length_take_le _ _).trans (min_le_right _ _)
  -- a longer prefix that is within the limits is one of the candidates' own
  have hle : m ≤ maxEvents := by
    have := h.events
    rwa [length_take, Nat.min_eq_left hm] at this
  have hm' : m ≤ candidates.length := by
    rw [← hcandidates, length_take]
    exact le_min hle hm
  have hfit : fitsFirst body maxBodyBytes candidates m = true := by
    rw [fitsFirst, hcut, Nat.min_eq_left hle]
    exact decide_eq_true h.bytes
  exact le_min (hlast m hm' hfit) hle

variable (hbody : encodedBody encode agentId sentAt (first.batchId.getD generated) = body)
  (hids : ((first :: rest).map (·.eventId)).Nodup)

include hbody hids

theorem fits_of_select {batch : Batch}
    (h : select encode agentId sentAt generated maxEvents maxBodyBytes (first :: rest) =
      .ok (some batch)) (hpos : 0 < maxEvents) : (body [first]).utf8ByteSize ≤ maxBodyBytes := by
  subst hbody
  obtain ⟨n, rfl⟩ : ∃ n, maxEvents = n + 1 := Nat.exists_eq_succ_of_ne_zero hpos.ne'
  simp only [select, candidates_eq hids, eligible_cons_self, take_succ_cons] at h
  split_ifs at h with hempty hfits
  · cases hempty
  · exact of_decide_eq_true hfits

theorem isLongest_select (hgrows : Grows body)
    (hfits : (body [first]).utf8ByteSize ≤ maxBodyBytes) :
    ChoosesLongest maxEvents maxBodyBytes body first.batchId (first :: rest)
      (select encode agentId sentAt generated maxEvents maxBodyBytes (first :: rest)) := by
  subst hbody
  cases maxEvents with
  | zero =>
    refine ⟨⟨first.batchId.getD generated, "", []⟩, rfl, nil_prefix, ⟨Nat.le_refl _, ?_⟩, ?_⟩
    · exact (hgrows _ _ nil_prefix).trans hfits
    · intro l' _ hl'
      rw [eq_nil_of_length_eq_zero (Nat.le_zero.1 hl'.events)]
  | succ maxEvents =>
    have hcandidates : (eligible first.batchId (first :: rest)).take (maxEvents + 1) =
        first :: (eligible first.batchId rest).take maxEvents := by
      rw [eligible_cons_self, take_succ_cons]
    have hone : fitsFirst (encodedBody encode agentId sentAt (first.batchId.getD generated))
        maxBodyBytes (first :: (eligible first.batchId rest).take maxEvents) 1 = true :=
      decide_eq_true hfits
    simp only [select, candidates_eq hids, hcandidates, isEmpty_cons, Bool.false_eq_true, if_false]
    exact ⟨_, if_pos hone, isLongest_bisect hgrows hcandidates (cons_ne_nil _ _) hone⟩

end

end MacOS

/-! ## Both agents -/

theorem ChoosesLongest.rows_eq {maxEvents maxBytes : Nat} {body body' : List BufferedRow → String}
    {batchId : Option String} {rows : List BufferedRow}
    {result result' : Except BufferError (Option Batch)}
    (h : ChoosesLongest maxEvents maxBytes body batchId rows result)
    (h' : ChoosesLongest maxEvents maxBytes body' batchId rows result')
    (hsize : ∀ p, p <+: eligible batchId rows → (body p).utf8ByteSize = (body' p).utf8ByteSize) :
    ∃ batch batch', result = .ok (some batch) ∧ result' = .ok (some batch') ∧
      batch.rows = batch'.rows := by
  obtain ⟨batch, hresult, hlongest⟩ := h
  obtain ⟨batch', hresult', hlongest'⟩ := h'
  refine ⟨batch, batch', hresult, hresult', hlongest.unique (hlongest'.congr fun p hp => ?_)⟩
  constructor
  · exact fun hw => ⟨hw.events, (hsize p hp).le.trans hw.bytes⟩
  · exact fun hw => ⟨hw.events, (hsize p hp).ge.trans hw.bytes⟩

/-- Whatever batches the rows have, each agent chooses the longest prefix of those of the first row's
    batch, when the first row fits. They choose the same rows when both join the events by commas and
    these and the envelopes have the same sizes. -/
theorem makeBatch_select_longest {first : BufferedRow} {rest : List BufferedRow}
    (hids : ((first :: rest).map (·.eventId)).Nodup) (maxEvents maxBytes : Nat)
    (jsonEscape : String → String) (agentId sentAt generated : String)
    (encode : MacOS.TelemetryBatch → String) (agentId' sentAt' generated' opening' closing' : String)
    (encodeEvent : Event → String) :
    let opening := Windows.opening jsonEscape agentId (first.batchId.getD generated) sentAt
    let body := Windows.encodedBody opening
    let body' := MacOS.encodedBody encode agentId' sentAt' (first.batchId.getD generated')
    let result := Windows.makeBatch jsonEscape agentId sentAt generated maxEvents maxBytes
      (first :: rest)
    let result' := MacOS.select encode agentId' sentAt' generated' maxEvents maxBytes (first :: rest)
    MacOS.Joins body' opening' closing' encodeEvent →
    ((body [first]).utf8ByteSize ≤ maxBytes →
      ChoosesLongest maxEvents maxBytes body first.batchId (first :: rest) result) ∧
    ((body' [first]).utf8ByteSize ≤ maxBytes →
      ChoosesLongest maxEvents maxBytes body' first.batchId (first :: rest) result') ∧
    ((body [first]).utf8ByteSize ≤ maxBytes → (body' [first]).utf8ByteSize ≤ maxBytes →
      (∀ p, p <+: eligible first.batchId (first :: rest) →
        body p = opening ++ joined (·.event.json) p ++ Windows.closing) →
      (∀ row ∈ first :: rest,
        row.event.json.utf8ByteSize = (encodeEvent row.event).utf8ByteSize) →
      opening.utf8ByteSize + Windows.closing.utf8ByteSize =
        opening'.utf8ByteSize + closing'.utf8ByteSize →
      ∃ batch batch', result = .ok (some batch) ∧ result' = .ok (some batch') ∧
        batch.rows = batch'.rows) := by
  intro opening body body' result result' hjoins
  have hwindows (hfits : (body [first]).utf8ByteSize ≤ maxBytes) :
      ChoosesLongest maxEvents maxBytes body first.batchId (first :: rest) result :=
    Windows.isLongest_makeBatch rfl hids hfits
  have hmacOS (hfits : (body' [first]).utf8ByteSize ≤ maxBytes) :
      ChoosesLongest maxEvents maxBytes body' first.batchId (first :: rest) result' :=
    MacOS.isLongest_select rfl hids (MacOS.grows_of_joins hjoins) hfits
  refine ⟨hwindows, hmacOS, fun hfits hfits' hcommas hevents henvelopes => ?_⟩
  refine (hwindows hfits).rows_eq (hmacOS hfits') fun p hp => ?_
  have hsizes : p.map (fun row => row.event.json.utf8ByteSize) =
      p.map fun row => (encodeEvent row.event).utf8ByteSize :=
    map_congr_left fun row hrow => hevents row (mem_of_mem_filter (hp.subset hrow))
  rw [hcommas p hp, hjoins p]
  simp only [String.utf8ByteSize_append, utf8ByteSize_joined, hsizes]
  omega

def sampleRow (rowId : Nat) (digit : String) (batchId : Option String) : BufferedRow :=
  let event := sampleEvent (sampleUuid digit)
  ⟨rowId, none, event.eventId, batchId, event, 0⟩

def otherRows : List BufferedRow :=
  [sampleRow 2 "2" (some (sampleUuid "b")), sampleRow 3 "3" none]

def MacOS.opening (agentId batchId : String) : String :=
  "\x7b\"agentId\":\"" ++ agentId ++ "\",\"batchId\":\"" ++ batchId ++ "\",\"events\":["

def MacOS.closing (sentAt : String) : String :=
  "],\"schemaVersion\":1,\"sentAt\":\"" ++ sentAt ++ "\"\x7d"

/-- `contractEncoder`, which sorts the keys, for events that it has written before. -/
def sampleEncode (batch : MacOS.TelemetryBatch) : String :=
  MacOS.opening batch.agentId batch.batchId ++ ",".intercalate (batch.events.map (·.json)) ++
    MacOS.closing batch.sentAt

theorem makeBatch_select_longest_mixed :
    ∃ batch batch',
      Windows.makeBatch id "agent-1" sampleTime (sampleUuid "a") 2 1000
        (sampleRow 1 "1" none :: otherRows) = .ok (some batch) ∧
      MacOS.select sampleEncode "agent-1" sampleTime (sampleUuid "a") 2 1000
        (sampleRow 1 "1" none :: otherRows) = .ok (some batch') ∧
      batch.rows = batch'.rows := by
  have hids : ((sampleRow 1 "1" none :: otherRows).map (·.eventId)).Nodup := by decide
  have hjoins : MacOS.Joins (MacOS.encodedBody sampleEncode "agent-1" sampleTime (sampleUuid "a"))
      (MacOS.opening "agent-1" (sampleUuid "a")) (MacOS.closing sampleTime) (·.json) := by
    intro rows
    rw [MacOS.encodedBody, sampleEncode, joined, map_map]
    rfl
  have hjson : ∀ row ∈ eligible none (sampleRow 1 "1" none :: otherRows), row.event.json ≠ "" := by
    decide
  refine (makeBatch_select_longest hids 2 1000 id "agent-1" sampleTime (sampleUuid "a") sampleEncode
    "agent-1" sampleTime (sampleUuid "a") _ _ _ hjoins).2.2 (by decide +kernel) (by decide +kernel)
    (fun p hp => ?_) (fun _ _ => rfl) (by decide +kernel)
  exact Windows.encodedBody_eq_joined fun row hrow => hjson row (hp.subset hrow)

end Edr.Agent
