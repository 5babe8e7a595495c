import Edr.Failure
import Edr.Lib.Json.Accepted
import Edr.Lib.Json.Bytes

/-!
# The payload of a failure

The message goes into the envelope as the value of its bytes, or wrapped if they have none, and the
envelope into an object as compressed canonical JSON.
-/

namespace Edr.FailureSink

open Interpreter Text

variable {F : Type} {py : Interpreter F} {m : ConsumedMessage Bytes}
  {failure failure' : FailureRecord} {v : Json F} {payload payload' : Bytes}

/-- Partitions and offsets are 32 and 64 bit integers of Kafka. -/
structure InRange (m : ConsumedMessage Bytes) : Prop where
  partition_lt : m.source.partition < 2 ^ 31
  offset_lt : m.offset < 2 ^ 63

/-- The message of an envelope stands for the bytes: their value, with the keys in order, or a wrapper
    of them. -/
def Carries (py : Interpreter F) (value : Bytes) (message : Json F) : Prop :=
  match py.loads value with
  | .ok v => v.Reordered message
  | .error _ => ∃ raw, message = .object [(ofString "encoding", .ofString "base64"),
      (ofString "raw", .string raw)] ∧ Base64.decode raw = some value

/-- The endpoint id of a value is a number for its column, or none. -/
def EndpointFits (py : Interpreter F) (v : Json F) : Prop :=
  (∀ negative, endpointValue py v ≠ .float (.infinity negative)) ∧
    ∀ n, py.int (endpointValue py v) = .ok n → 0 ≤ n ∧ n < 2 ^ 64

/-- The sink can handle the bytes: they have no value, or one that can be written again and whose
    endpoint id has a place. -/
def Recordable (py : Interpreter F) (value : Bytes) : Prop :=
  match py.loads value with
  | .ok v => v.depth < py.limits.depth ∧ v.encodable ∧ EndpointFits py v
  | .error .unicodeDecode => True
  | .error .jsonDecode => True
  | .error .intTooLong => False
  | .error .recursion => False

/-! ## The envelope -/

theorem depth_envelope : (envelope m failure v).depth = v.depth + 1 := by
  rcases hcode : failure.failureCode with _ | code <;>
    simp [envelope, hcode, failureCodeJson, Json.ofString, Json.depth, Json.depthMembers]

theorem length_digitsOf_le (py : Interpreter F) {n : Nat} (hn : n < 2 ^ 63) :
    (digitsOf n).length ≤ py.limits.digits :=
  (Json.length_digitsAux Nat.le.refl (hn.trans (by decide : 2 ^ 63 < 10 ^ (18 + 1)))).trans
    py.nineteen_le_digits

theorem fits_envelope (hm : InRange m) (hv : v.fits py.limits) :
    (envelope m failure v).fits py.limits := by
  have hoffset := length_digitsOf_le py hm.offset_lt
  have hpartition := length_digitsOf_le py (hm.partition_lt.trans (by decide))
  rw [Json.fits] at hv ⊢
  rcases hcode : failure.failureCode with _ | code <;>
    simp [envelope, hcode, failureCodeJson, Json.ofString, Json.all, Json.allMembers, hv, hoffset,
      hpartition]

theorem encodable_envelope : (envelope m failure v).encodable = v.encodable := by
  rcases hcode : failure.failureCode with _ | code <;>
    simp [envelope, hcode, failureCodeJson, Json.ofString, Json.encodable, Json.all,
      Json.allMembers, any_isSurrogate_ofString]

def envelopeKeys : List Text :=
  ["consumerName", "failureCode", "failureStage", "message", "sourceOffset", "sourcePartition",
    "sourceTopic"].map ofString

theorem distinct_envelope (hv : v.distinct) : (envelope m failure v).distinct := by
  have hkeys : envelopeKeys.Nodup := by decide
  have hcode : (failureCodeJson failure.failureCode : Json F).distinct := by
    rcases failure.failureCode with _ | code <;> rfl
  refine Json.distinct_object.2 ⟨hkeys, ?_⟩
  simp only [List.forall_mem_cons]
  exact ⟨rfl, hcode, rfl, hv, rfl, rfl, rfl, fun _ h => absurd h List.not_mem_nil⟩

theorem canon_envelope : (envelope m failure v).canon = envelope m failure v.canon := by
  have hkeys : envelopeKeys.Pairwise (· ≤ ·) := by decide
  have hcode : (failureCodeJson failure.failureCode : Json F).canon =
      failureCodeJson failure.failureCode := by
    rcases failure.failureCode with _ | code <;> rfl
  rw [envelope, Json.canon_object]
  simp only [List.map_cons, List.map_nil, hcode]
  rw [Json.sortMembers_of_sorted]
  · rfl
  · exact hkeys

theorem envelope_message :
    (envelope m failure v).get? (ofString "message") = some v := rfl

theorem failureCodeJson_injective {code code' : Option String}
    (h : (failureCodeJson code : Json F) = failureCodeJson code') : code = code' := by
  rcases code with _ | code <;> rcases code' with _ | code' <;>
    simp only [failureCodeJson, Json.ofString, reduceCtorEq, Json.string.injEq] at h ⊢
  rw [ofString_injective h]

/-! ## The payload -/

theorem canonicalJson_eq_ok {bytes : Bytes} :
    py.canonicalJson v = .ok bytes ↔ v.canonicalJson py.floats py.limits = some bytes := by
  rw [canonicalJson]
  rcases v.canonicalJson py.floats py.limits with _ | bytes' <;> simp

theorem payload_eq_ok :
    deterministicFailurePayload py v = .ok payload ↔
      ∃ bytes, v.canonicalJson py.floats py.limits = some bytes ∧ py.gzip bytes = payload := by
  rw [deterministicFailurePayload]
  simp only [← canonicalJson_eq_ok]
  rcases py.canonicalJson v with e | bytes <;> simp [Except.map]

theorem exists_payload_iff (hm : InRange m) (hv : v.fits py.limits) :
    (∃ payload, deterministicFailurePayload py (envelope m failure v) = .ok payload) ↔
      v.depth < py.limits.depth ∧ v.encodable := by
  simp only [payload_eq_ok, Json.canonicalJson_eq_some, depth_envelope, fits_envelope hm hv,
    encodable_envelope, true_and, Nat.add_one_le_iff]
  constructor
  · rintro ⟨_, _, ⟨h, -⟩, -⟩
    exact h
  · exact fun h => ⟨_, _, ⟨h, rfl⟩, rfl⟩

/-- The payload is read back as the envelope, with the keys of the message in order. -/
theorem decodePayload_payload (hm : InRange m) (hv : v.fits py.limits) (hdistinct : v.distinct)
    (h : deterministicFailurePayload py (envelope m failure v) = .ok payload) :
    decodePayload py payload = .ok (envelope m failure v.canon) := by
  obtain ⟨bytes, hbytes, rfl⟩ := payload_eq_ok.1 h
  have hdepth := (Json.canonicalJson_eq_some.1 hbytes).1.1
  have hloads : py.loads bytes = .ok (envelope m failure v.canon) := by
    rw [loads, ← canon_envelope]
    exact Json.loads_canonicalJson hbytes hdepth (fits_envelope hm hv) (distinct_envelope hdistinct)
  simp only [decodePayload, py.gunzip_gzip, hloads]

/-- Equal payloads have equal failure codes. -/
theorem failureCode_eq_of_payload_eq (hm : InRange m) (hv : v.fits py.limits)
    (hdistinct : v.distinct)
    (h : deterministicFailurePayload py (envelope m failure v) = .ok payload)
    (h' : deterministicFailurePayload py (envelope m failure' v) = .ok payload) :
    failure.failureCode = failure'.failureCode := by
  have heq := (decodePayload_payload hm hv hdistinct h).symm.trans
    (decodePayload_payload hm hv hdistinct h')
  have hcode : some (failureCodeJson failure.failureCode) = some (failureCodeJson _) :=
    congrArg (fun e => e.get? (ofString "failureCode")) (Except.ok.inj heq)
  exact failureCodeJson_injective (Option.some.inj hcode)

/-! ## The message -/

theorem fits_base64Wrapper (value : Bytes) :
    (base64Wrapper value : Json F).fits py.limits := by
  simp [base64Wrapper, Json.fits, Json.ofString, Json.all, Json.allMembers]

theorem distinct_base64Wrapper (value : Bytes) : (base64Wrapper value : Json F).distinct := by
  have hkeys : (["encoding", "raw"].map ofString).Nodup := by decide
  refine Json.distinct_object.2 ⟨hkeys, ?_⟩
  simp only [List.forall_mem_cons]
  exact ⟨rfl, rfl, fun _ h => absurd h List.not_mem_nil⟩

theorem canon_base64Wrapper (value : Bytes) :
    (base64Wrapper value : Json F).canon = base64Wrapper value := by
  have hkeys : (["encoding", "raw"].map ofString).Pairwise (· ≤ ·) := by decide
  rw [base64Wrapper, Json.canon_object]
  rw [Json.sortMembers_of_sorted]
  · rfl
  · exact hkeys

theorem encodable_base64Wrapper (value : Bytes) : (base64Wrapper value : Json F).encodable := by
  simp [base64Wrapper, Json.encodable, Json.ofString, Json.all, Json.allMembers,
    any_isSurrogate_ofString, Base64.any_isSurrogate_encode]

theorem failureMessage_spec {value : Bytes} (h : failureMessage py value = .ok v) :
    v.fits py.limits ∧ v.distinct ∧ Carries py value v.canon := by
  rw [failureMessage] at h
  rw [Carries]
  have hraw : ∃ raw, (base64Wrapper value : Json F).canon = .object [(ofString "encoding",
      .ofString "base64"), (ofString "raw", .string raw)] ∧ Base64.decode raw = some value :=
    ⟨_, canon_base64Wrapper value, Base64.decode_encode value⟩
  rcases hloads : py.loads value with (_ | _ | _ | _) | w <;> rw [hloads] at h <;> cases h
  · exact ⟨fits_base64Wrapper value, distinct_base64Wrapper value, hraw⟩
  · exact ⟨fits_base64Wrapper value, distinct_base64Wrapper value, hraw⟩
  · have hok := Json.ok_of_loads hloads
    exact ⟨hok.fits, hok.distinct, Json.reordered_canon v⟩

theorem optionalInt_cases (py : Interpreter F) (v : Json F) :
    (∃ negative, v = .float (.infinity negative)) ∧ optionalInt py v = .error .overflowError ∨
    (∀ negative, v ≠ .float (.infinity negative)) ∧ ∃ n, optionalInt py v = .ok n ∧
      ∀ i, n = some i ↔ py.int v = .ok i := by
  rcases v with _ | _ | _ | (_ | _ | _) | text | _ | _
  all_goals simp [optionalInt, int]
  rcases py.parseInt text <;> simp

theorem exists_endpointColumn_iff :
    (∃ n, endpointColumn py v = .ok n) ↔ EndpointFits py v := by
  rw [endpointColumn, EndpointFits]
  rcases optionalInt_cases py (endpointValue py v) with
    ⟨⟨negative, hinfinite⟩, herror⟩ | ⟨hfinite, n, hok, hint⟩
  · rw [herror]
    exact iff_of_false (fun ⟨_, h⟩ => by cases h) fun h => h.1 negative hinfinite
  · rw [hok, and_iff_right hfinite]
    simp only [← hint]
    rcases n with _ | n
    · exact iff_of_true ⟨none, rfl⟩ (fun _ h => by cases h)
    · by_cases hn : 0 ≤ n ∧ n < 2 ^ 64
      · refine iff_of_true ⟨some (.ofNat n.toNat), if_pos hn⟩ fun i hi => ?_
        cases hi
        exact hn
      · refine iff_of_false (fun ⟨_, h⟩ => ?_) fun h => hn (h n rfl)
        cases (if_neg hn).symm.trans h

/-- Bytes are recordable if and only if none of the three steps before the row raises. -/
theorem recordable_iff (failure : FailureRecord) (hm : InRange m) :
    Recordable py m.value ↔ ∃ v payload n, failureMessage py m.value = .ok v ∧
      deterministicFailurePayload py (envelope m failure v) = .ok payload ∧
      endpointColumn py v = .ok n := by
  have hsplit : (∃ v payload n, failureMessage py m.value = .ok v ∧
      deterministicFailurePayload py (envelope m failure v) = .ok payload ∧
      endpointColumn py v = .ok n) ↔ ∃ v, failureMessage py m.value = .ok v ∧
        (v.depth < py.limits.depth ∧ v.encodable) ∧ EndpointFits py v := by
    simp only [← exists_endpointColumn_iff]
    constructor
    · rintro ⟨v, payload, n, hv, hpayload, hn⟩
      exact ⟨v, hv, (exists_payload_iff hm (failureMessage_spec hv).1).1 ⟨payload, hpayload⟩, n, hn⟩
    · rintro ⟨v, hv, hlimits, n, hn⟩
      obtain ⟨payload, hpayload⟩ := (exists_payload_iff hm (failureMessage_spec hv).1).2 hlimits
      exact ⟨v, payload, n, hv, hpayload, hn⟩
  have hwrapper : ((base64Wrapper m.value : Json F).depth < py.limits.depth ∧
      (base64Wrapper m.value : Json F).encodable) ∧ EndpointFits py (base64Wrapper m.value) :=
    ⟨⟨py.two_le_depth, encodable_base64Wrapper m.value⟩, exists_endpointColumn_iff.1 ⟨none, rfl⟩⟩
  rw [hsplit, Recordable, failureMessage]
  rcases py.loads m.value with (_ | _ | _ | _) | w
  · exact ⟨fun _ => ⟨_, rfl, hwrapper⟩, fun _ => trivial⟩
  · exact ⟨fun _ => ⟨_, rfl, hwrapper⟩, fun _ => trivial⟩
  · exact ⟨False.elim, fun ⟨_, h, _⟩ => by cases h⟩
  · exact ⟨False.elim, fun ⟨_, h, _⟩ => by cases h⟩
  · constructor
    · rintro ⟨hdepth, hencodable, hendpoint⟩
      exact ⟨w, rfl, ⟨hdepth, hencodable⟩, hendpoint⟩
    · rintro ⟨_, hw, ⟨hdepth, hencodable⟩, hendpoint⟩
      cases hw
      exact ⟨hdepth, hencodable, hendpoint⟩

end Edr.FailureSink
