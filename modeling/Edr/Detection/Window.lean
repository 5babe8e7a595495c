import Edr.Detection.Run

/-!
# The windows of incidents

The matches of an endpoint and a correlation key are gathered into windows of a fixed length, counted
from the epoch. `_window` cuts the time of an event down to a whole second with `int`, which rounds
towards zero: a time before 1970 that is not a whole second becomes the second after it. Where that
second begins a window, the event gets the window after its own.
-/

namespace Edr.Detection

variable {t t' : Time} {windowSeconds : Nat}

theorem window_fst (hw : 0 < windowSeconds) : (window t windowSeconds).1 =
    (interval t windowSeconds + if CutUp t windowSeconds then 1 else 0) *
      (windowSeconds * 1000) := by
  show t.tdiv 1000 / windowSeconds * windowSeconds * 1000 = _
  rw [tdiv_ediv_eq hw, mul_assoc]

theorem window_snd (t : Time) (windowSeconds : Nat) :
    (window t windowSeconds).2 = (window t windowSeconds).1 + windowSeconds * 1000 := rfl

theorem mem_window_iff (hw : 0 < windowSeconds) :
    (window t windowSeconds).1 ≤ t ∧ t < (window t windowSeconds).2 ↔ ¬CutUp t windowSeconds := by
  have hlength : (0 : Int) < windowSeconds * 1000 := by
    have : (0 : Int) < windowSeconds := by exact_mod_cast hw
    omega
  rw [window_snd, window_fst hw, ← Int.ediv_eq_iff_of_pos hlength]
  change interval t windowSeconds = _ ↔ _
  split_ifs with hcut <;> simp [hcut]

theorem window_fst_eq_iff (hw : 0 < windowSeconds) (h : ¬CutUp t windowSeconds)
    (h' : ¬CutUp t' windowSeconds) :
    (window t windowSeconds).1 = (window t' windowSeconds).1 ↔
      interval t windowSeconds = interval t' windowSeconds := by
  have hlength : (windowSeconds : Int) * 1000 ≠ 0 := by
    have : (0 : Int) < windowSeconds := by exact_mod_cast hw
    omega
  rw [window_fst hw, window_fst hw, if_neg h, if_neg h', add_zero, add_zero]
  exact ⟨Int.eq_of_mul_eq_mul_right hlength, fun heq => by rw [heq]⟩

/-! ## The windows of matches -/

section

variable {ops : RuleOps} {files : List RuleV1} {rules : List LoadedRule}
  {m m' : ValidatedMessage} {detectedAt detectedAt' : Time} {xs xs' : List DetectionMatch}
  {x x' : DetectionMatch} {c c' : IncidentCorrelation}

theorem Accepted.windowSeconds_eq (h : Accepted rules) {item item' : LoadedRule} (hi : item ∈ rules)
    (hi' : item' ∈ rules) (he : item.rule.enabled = true) (he' : item'.rule.enabled = true)
    (hinc : item.rule.incident.enabled = true) (hinc' : item'.rule.incident.enabled = true)
    {key : String} (hkey : item.rule.incident.correlationKey = some key)
    (hkey' : item'.rule.incident.correlationKey = some key) {n n' : Nat}
    (hn : item.rule.incident.windowSeconds = some n)
    (hn' : item'.rule.incident.windowSeconds = some n') : n = n' := by
  obtain ⟨windows, hw⟩ := h.windows
  exact Option.some.inj ((hw item hi key n he hinc hkey hn).symm.trans
    (hw item' hi' key n' he' hinc' hkey' hn'))

def Holds (c : IncidentCorrelation) (t : Time) (windowSeconds : Nat) : Prop :=
  c.windowEndAt = c.windowStartAt + windowSeconds * 1000 ∧ c.windowStartAt ≤ t ∧ t < c.windowEndAt

theorem exists_rule (hm : evaluate ops rules m detectedAt = .ok xs) (hx : x ∈ xs)
    (hc : x.incident = some c) :
    ∃ loaded ∈ rules, ∃ n, 0 < n ∧ loaded.rule.enabled = true ∧
      loaded.rule.incident.enabled = true ∧
      loaded.rule.incident.correlationKey = some c.correlationKey ∧
      loaded.rule.incident.windowSeconds = some n ∧
      c.windowStartAt = (window m.event.occurredAt n).1 ∧
      c.windowEndAt = (window m.event.occurredAt n).2 := by
  obtain ⟨loaded, hloaded, hfires, hmatch⟩ := (evaluate_eq_ok hm).1 x hx
  have hcorrelation := hmatch.incident.symm.trans hc
  obtain ⟨n, henabled, hkey, hseconds, -⟩ := correlation_eq_some hcorrelation
  have hpos := loaded.rule.incident.one_le_windowSeconds n hseconds
  rw [correlation, hkey, hseconds] at hcorrelation
  have hc := Option.some.inj hcorrelation
  exact ⟨loaded, hloaded, n, hpos, hfires.1, henabled, hkey, hseconds,
    (congrArg IncidentCorrelation.windowStartAt hc).symm,
    (congrArg IncidentCorrelation.windowEndAt hc).symm⟩

/-- **The windows of two matches.** For every rule set that is accepted, and for two matches of one
    correlation key, be they of one endpoint or not: each has a window of the length that the rules
    of the key say, with the time of its event in it, and the two windows start at one time iff the
    events lie in one interval from the epoch, if and only if neither event is cut up to the next
    window. -/
theorem evaluate_windows_iff (hrules : loadDirectory ops files = .ok rules)
    (hm : evaluate ops rules m detectedAt = .ok xs) (hx : x ∈ xs) (hc : x.incident = some c)
    (hm' : evaluate ops rules m' detectedAt' = .ok xs') (hx' : x' ∈ xs')
    (hc' : x'.incident = some c') (hkey : c.correlationKey = c'.correlationKey) :
    ∃ n, (∃ loaded ∈ rules, loaded.rule.incident.correlationKey = some c.correlationKey ∧
        loaded.rule.incident.windowSeconds = some n) ∧
      ((Holds c m.event.occurredAt n ∧ Holds c' m'.event.occurredAt n ∧
          (c.windowStartAt = c'.windowStartAt ↔
            interval m.event.occurredAt n = interval m'.event.occurredAt n)) ↔
        ¬CutUp m.event.occurredAt n ∧ ¬CutUp m'.event.occurredAt n) := by
  obtain ⟨loaded, hl, n, hn, he, hinc, hk, hs, hstart, hend⟩ := exists_rule hm hx hc
  obtain ⟨loaded', hl', n', -, he', hinc', hk', hs', hstart', hend'⟩ := exists_rule hm' hx' hc'
  rw [← hkey] at hk'
  obtain rfl := (loadDirectory_eq_ok hrules).windowSeconds_eq hl hl' he he' hinc hinc' hk hk' hs hs'
  refine ⟨n, ⟨loaded, hl, hk, hs⟩, ?_⟩
  have hholds : Holds c m.event.occurredAt n ↔ ¬CutUp m.event.occurredAt n := by
    rw [Holds, hstart, hend, ← mem_window_iff hn]
    exact and_iff_right (window_snd _ _)
  have hholds' : Holds c' m'.event.occurredAt n ↔ ¬CutUp m'.event.occurredAt n := by
    rw [Holds, hstart', hend', ← mem_window_iff hn]
    exact and_iff_right (window_snd _ _)
  rw [hholds, hholds', hstart, hstart']
  constructor
  · rintro ⟨h, h', -⟩
    exact ⟨h, h'⟩
  · rintro ⟨h, h'⟩
    exact ⟨h, h', window_fst_eq_iff hn h h'⟩

def sampleCorrelation (t : Time) : IncidentCorrelation :=
  ⟨7, "powershell-chain", (window t 60).1, (window t 60).2⟩

/-- Two events of the first minute of 1970. -/
theorem evaluate_windows_iff_firstMinute :
    Holds (sampleCorrelation 1500) 1500 60 ∧ Holds (sampleCorrelation 59999) 59999 60 ∧
      (sampleCorrelation 1500).windowStartAt = (sampleCorrelation 59999).windowStartAt := by
  obtain ⟨x, hx, hc⟩ : ∃ x, evaluate sampleOps sampleRules ⟨sampleEvent 1 1500, none⟩ 0 = .ok [x] ∧
      x.incident = some (sampleCorrelation 1500) := ⟨_, rfl, rfl⟩
  obtain ⟨x', hx', hc'⟩ : ∃ x, evaluate sampleOps sampleRules ⟨sampleEvent 2 59999, none⟩ 0 =
      .ok [x] ∧ x.incident = some (sampleCorrelation 59999) := ⟨_, rfl, rfl⟩
  obtain ⟨n, ⟨loaded, hloaded, -, hn⟩, h⟩ := evaluate_windows_iff loadDirectory_sampleRules hx
    List.mem_cons_self hc hx' List.mem_cons_self hc' rfl
  rw [List.mem_singleton.1 hloaded] at hn
  cases hn
  obtain ⟨h₁, h₂, hiff⟩ := h.2 ⟨by decide, by decide⟩
  exact ⟨h₁, h₂, hiff.2 (by decide)⟩

/-- The last half second of 1969 gets the first window of 1970, and shares it with an event of another
    interval. -/
theorem window_before_epoch :
    loadDirectory sampleOps [powershellRule] = .ok sampleRules ∧
      (∃ x, evaluate sampleOps sampleRules ⟨sampleEvent 1 (-500), none⟩ 0 = .ok [x] ∧
        x.incident = some (sampleCorrelation (-500))) ∧
      (sampleCorrelation (-500)).windowStartAt = 0 ∧ ¬Holds (sampleCorrelation (-500)) (-500) 60 ∧
      (∃ x, evaluate sampleOps sampleRules ⟨sampleEvent 2 500, none⟩ 0 = .ok [x] ∧
        x.incident = some (sampleCorrelation 500)) ∧
      (sampleCorrelation (-500)).windowStartAt = (sampleCorrelation 500).windowStartAt ∧
      interval (-500) 60 ≠ interval 500 60 :=
  ⟨rfl, ⟨_, rfl, rfl⟩, by decide, fun h => absurd h.2.1 (by decide), ⟨_, rfl, rfl⟩, by decide,
    by decide⟩

end

end Edr.Detection
