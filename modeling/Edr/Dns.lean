import Edr.Lib.Prefixes

/-!
# Names and addresses

The values of DNS are compared in a canonical form. `_canonical` finds it for whatever was observed,
and `_classify_target` for what a user asks for, which it rejects if it is neither an address nor a
name. A value is stripped first, and its trailing dots are removed then: what is left may have outer
white space again, or be an address.
-/

namespace Edr.Dns

open List Prefixes

/-! ## The code -/

/-- The white space of `str.strip`. -/
def isSpace (c : Char) : Bool :=
  decide (9 ≤ c.val ∧ c.val ≤ 13) || decide (28 ≤ c.val ∧ c.val ≤ 32) ||
    decide (0x2000 ≤ c.val ∧ c.val ≤ 0x200A) ||
    decide (c.val ∈ [0x85, 0xA0, 0x1680, 0x2028, 0x2029, 0x202F, 0x205F, 0x3000])

def strip (s : List Char) : List Char := (s.dropWhile isSpace).rdropWhile isSpace

/-- `rstrip(".")`. -/
def rstripDots (s : List Char) : List Char := s.rdropWhile (· = '.')

def looksLikeIpAttempt (isDigit : Char → Bool) (s : List Char) : Bool :=
  decide (':' ∈ s) || decide ('.' ∈ s) &&
    (s.splitOn '.').all fun part => decide (part ≠ []) && part.all isDigit

/-- The functions of Python that are used: `str.lower`, `str.isdigit` of a character, whether a text
    can be encoded as IDNA, and `ip_address(..).compressed`, if it does not raise. -/
structure PyText where
  lower : List Char → List Char
  isDigit : Char → Bool
  idna : List Char → Bool
  compressed : List Char → Option (List Char)
  lower_lower : ∀ s, lower (lower s) = lower s
  lower_infix : ∀ s t, lower s = s → t <:+: s → lower t = t
  lower_dots : ∀ s, rstripDots s = s → rstripDots (lower s) = lower s
  compressed_compressed : ∀ s c, compressed s = some c → compressed c = some c
  strip_compressed : ∀ s c, strip s = s → compressed s = some c → strip c = c
  looksLike : ∀ s c, compressed s = some c → looksLikeIpAttempt isDigit s = true

inductive ValueType
  | ip
  | domain
  deriving DecidableEq

/-- `DnsLookupError`. -/
structure DnsLookupError where
  code : String
  message : String
  deriving DecidableEq

section

variable (py : PyText)

/-- `_canonical`. -/
def canonical (value : List Char) : List Char × ValueType :=
  match py.compressed (strip value) with
  | some compressed => (compressed, .ip)
  | none => (py.lower (rstripDots (strip value)), .domain)

def invalidDomain (message : String) : DnsLookupError := ⟨"INVALID_DOMAIN", message⟩

/-- `normalize_domain`. -/
def normalizeDomain (domain : List Char) : Except DnsLookupError (List Char) :=
  let candidate := py.lower (rstripDots (strip domain))
  if candidate = [] then .error (invalidDomain "Domain must not be empty")
  else if candidate.length > 253 then
    .error (invalidDomain ("Domain exceeds 253 characters: " ++ String.ofList domain))
  else
    let bad := (candidate.splitOn '.').findSome? fun label =>
      if label = [] then some ("Domain has an empty label: " ++ String.ofList domain)
      else if label.length > 63 then
        some ("Domain label exceeds 63 characters: " ++ String.ofList domain)
      else none
    match bad with
    | some message => .error (invalidDomain message)
    | none =>
      if py.idna candidate then .ok candidate
      else .error (invalidDomain ("Domain is not a valid name: " ++ String.ofList domain))

/-- `_classify_target`: the canonical value, and whether it is an address. -/
def classifyTarget (value : List Char) : Except DnsLookupError (List Char × Bool) :=
  let stripped := strip value
  if stripped = [] then .error ⟨"INVALID_DOMAIN", "Value must not be empty"⟩
  else if looksLikeIpAttempt py.isDigit stripped then
    match py.compressed stripped with
    | some compressed => .ok (compressed, true)
    | none => .error ⟨"INVALID_IP", "Not a valid IP address: " ++ String.ofList value⟩
  else (normalizeDomain py stripped).map (·, false)

end

/-! ## Stability -/

section

variable (py : PyText) {value s t c : List Char}

theorem strip_strip (s : List Char) : strip (strip s) = strip s := by
  have hend : strip s <+: s.dropWhile isSpace := rdropWhile_prefix _ _
  rw [strip, dropWhile_of_start hend, strip, rdropWhile_idempotent]

theorem isInfix_strip (s : List Char) : strip s <:+: s := by
  have hend : strip s <+: s.dropWhile isSpace := rdropWhile_prefix _ _
  exact hend.isInfix.trans (dropWhile_suffix _).isInfix

def Settled (value : List Char) : Prop :=
  let name := py.lower (rstripDots (strip value))
  strip name = name ∧ py.compressed name = none

theorem canonical_of_compressed (h : py.compressed (strip value) = some c) :
    canonical py value = (c, .ip) ∧ canonical py c = (c, .ip) := by
  have hstrip := py.strip_compressed _ c (strip_strip value) h
  simp only [canonical, h, hstrip, py.compressed_compressed _ c h, and_self]

theorem rstripDots_lower (s : List Char) :
    rstripDots (py.lower (rstripDots s)) = py.lower (rstripDots s) :=
  py.lower_dots _ (rdropWhile_idempotent _ _)

/-- A name that is canonical stays as it is iff it is settled. -/
theorem canonical_eq_self_iff :
    canonical py (py.lower (rstripDots (strip value))) =
      (py.lower (rstripDots (strip value)), .domain) ↔ Settled py value := by
  have hdots := rstripDots_lower py (strip value)
  have hlower := py.lower_lower (rstripDots (strip value))
  unfold Settled
  generalize py.lower (rstripDots (strip value)) = name at *
  constructor
  · intro h
    cases hip : py.compressed (strip name) with
    | some c => simp [canonical, hip] at h
    | none =>
      simp only [canonical, hip, Prod.mk.injEq, and_true] at h
      -- the name is its own part without the white space and the dots
      have hdotless : rstripDots (strip name) <+: strip name := rdropWhile_prefix _ _
      rw [py.lower_infix name _ hlower (hdotless.isInfix.trans (isInfix_strip name))] at h
      have hlength := hdotless.length_le
      rw [h] at hlength
      have hstrip := (isInfix_strip name).eq_of_length_le hlength
      exact ⟨hstrip, hstrip ▸ hip⟩
  · rintro ⟨hstrip, hip⟩
    simp [canonical, hstrip, hip, hdots, hlower]

theorem normalizeDomain_eq_ok (h : normalizeDomain py value = .ok c) :
    c = py.lower (rstripDots (strip value)) := by
  unfold normalizeDomain at h
  dsimp only at h
  split_ifs at h
  all_goals
    split at h
    · cases h
    · simp_all

/-- What is accepted is an address, or a name that is no address. -/
theorem classifyTarget_cases {isIp : Bool} (h : classifyTarget py value = .ok (c, isIp)) :
    py.compressed (strip value) = some c ∧ isIp = true ∨
    py.compressed (strip value) = none ∧ c = py.lower (rstripDots (strip value)) ∧ isIp = false := by
  unfold classifyTarget at h
  dsimp only at h
  split_ifs at h with _ hlooks
  · split at h
    · next hip =>
      cases h
      exact .inl ⟨hip, rfl⟩
    · cases h
  · cases hdomain : normalizeDomain py (strip value) with
    | error e => simp [hdomain, Except.map] at h
    | ok d =>
      rw [hdomain] at h
      cases h
      refine .inr ⟨?_, by rw [normalizeDomain_eq_ok py hdomain, strip_strip], rfl⟩
      cases hip : py.compressed (strip value) with
      | none => rfl
      | some c => exact absurd (py.looksLike _ c hip) hlooks

/-- Canonical values are stable iff the value is an address or its name is settled. -/
theorem canonical_stable_iff (value : List Char) :
    (canonical py (canonical py value).1 = canonical py value ∧
      ∀ c isIp, classifyTarget py value = .ok (c, isIp) →
        canonical py c = (c, if isIp then .ip else .domain)) ↔
      (py.compressed (strip value)).isSome ∨ Settled py value := by
  cases hip : py.compressed (strip value) with
  | some c =>
    obtain ⟨hvalue, hc⟩ := canonical_of_compressed py hip
    refine iff_of_true ⟨by rw [hvalue, hc], fun c' isIp h => ?_⟩ (.inl rfl)
    rcases classifyTarget_cases py h with ⟨hip', rfl⟩ | ⟨hip', -⟩
    · exact (canonical_of_compressed py hip').2
    · cases hip.symm.trans hip'
  | none =>
    have hvalue : canonical py value = (py.lower (rstripDots (strip value)), .domain) := by
      simp [canonical, hip]
    rw [hvalue, canonical_eq_self_iff]
    refine ⟨fun h => .inr h.1, fun h => ?_⟩
    have hsettled : Settled py value := by simpa using h
    refine ⟨hsettled, fun c isIp h => ?_⟩
    rcases classifyTarget_cases py h with ⟨hip', -⟩ | ⟨-, rfl, rfl⟩
    · cases hip.symm.trans hip'
    · exact (canonical_eq_self_iff py).2 hsettled

def oneAddress (address : List Char) (hstrip : strip address = address)
    (hlooks : looksLikeIpAttempt Char.isDigit address = true) : PyText where
  lower := id
  isDigit := Char.isDigit
  idna := fun _ => true
  compressed s := if s = address then some s else none
  lower_lower _ := rfl
  lower_infix _ _ _ _ := rfl
  lower_dots _ h := h
  compressed_compressed := by grind
  strip_compressed := by grind
  looksLike := by grind

/-- Without its dot, the name is an address. -/
theorem canonical_dotted :
    let address := "1.1.1.1".toList
    let py := oneAddress address (by decide +kernel) (by decide +kernel)
    canonical py (address ++ ['.']) = (address, .domain) ∧ canonical py address = (address, .ip) ∧
      classifyTarget py (address ++ ['.']) = .ok (address, false) := by
  decide +kernel

end

end Edr.Dns
