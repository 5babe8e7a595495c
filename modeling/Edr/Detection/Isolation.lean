import Edr.Detection.Run

/-!
# One rule and the others

`evaluate` goes through the enabled rules in one loop, and an exception of one of them takes the
alerts of all of them with it. Three things raise one although `load_directory` accepts the rule: an
operator that needs an order, when Python has none between the column and the value of the condition,
a value that has no text, such as an integer with too many digits, where one is needed, and a window
that `datetime` cannot hold. The schema says nothing about the type of a value, and gives no greatest
length of a window.
-/

namespace Edr.Detection

open List Option

variable {ops : RuleOps} {m : ValidatedMessage} {event : DetectionEvent} {loaded : LoadedRule}
  {rules : List LoadedRule}

/-- `evaluate` returns the matches that it returns for each enabled rule alone, one after the
    other. -/
def Isolated (ops : RuleOps) (m : ValidatedMessage) (detectedAt : Time) (rules : List LoadedRule) :
    Prop :=
  ∃ results : LoadedRule → List DetectionMatch,
    (∀ loaded ∈ rules, loaded.rule.enabled = true →
      evaluate ops [loaded] m detectedAt = .ok (results loaded)) ∧
    evaluate ops rules m detectedAt = .ok ((rules.filter (·.rule.enabled)).flatMap results)

/-- The values have what the operator needs of them: an order, or texts. -/
def Comparable (ops : RuleOps) (actual : Value) (operator : Operator) (expected : Value) : Prop :=
  match operator with
  | .eq | .neq | .in_ => True
  | .contains | .regex => actual.isNone = false →
    (∃ s, ops.str expected = .ok s) ∧ ∃ s, ops.str actual = .ok s
  | .cidrContains => ops.str actual ≠ .error .recursionError ∧
    ∀ address, ops.str actual = .ok address → ops.isAddress address = true →
      ops.str expected ≠ .error .recursionError
  | .gt | .gte | .lt | .lte => actual.isNone = false → ∃ order, actual.order expected = .ok order

/-- The conditions up to the first one that does not hold have what they need. -/
def ComparableAll (ops : RuleOps) (event : DetectionEvent) : List RuleCondition → Prop
  | [] => True
  | c :: conditions => Comparable ops (event.get c.field) c.operator c.value ∧
    (matchesOperator ops (event.get c.field) c.operator c.value = .ok true →
      ComparableAll ops event conditions)

/-- The window of an incident, if there is one, is between the times that `datetime` has. -/
def InRange (event : DetectionEvent) (incident : RuleIncident) : Prop :=
  ∀ seconds ∈ incident.windowSeconds, datetimeMin ≤ (window event.occurredAt seconds).1 ∧
    (window event.occurredAt seconds).2 ≤ datetimeMax

/-- The rule does not make the loop raise. -/
structure Harmless (ops : RuleOps) (event : DetectionEvent) (rule : RuleV1) : Prop where
  comparable : event.eventType = rule.eventType.value → ComparableAll ops event rule.conditions
  window : ruleMatches ops event rule = .ok true → InRange event rule.incident

/-! ## One rule -/

theorem compares_ok_iff {actual expected : Value} {p : Ordering → Bool} :
    (∃ b, compares actual expected p = .ok b) ↔
      (actual.isNone = false → ∃ order, actual.order expected = .ok order) := by
  rw [compares]
  cases actual.isNone with
  | true => simp
  | false => cases actual.order expected <;> simp

theorem comparesTexts_ok_iff {actual expected : Value} {p : String → String → Bool} :
    (∃ b, comparesTexts ops actual expected p = .ok b) ↔
      (actual.isNone = false → (∃ s, ops.str expected = .ok s) ∧ ∃ s, ops.str actual = .ok s) := by
  rw [comparesTexts, textOf, textOf]
  cases actual.isNone with
  | true => simp [pure, Except.pure]
  | false =>
    rcases ops.str expected with e | s <;> rcases ops.str actual with e' | s' <;>
      simp [Except.mapError, bind, Except.bind, pure, Except.pure]

theorem cidrContains_ok_iff {actual expected : Value} :
    (∃ b, cidrContains ops actual expected = .ok b) ↔
      Comparable ops actual .cidrContains expected := by
  rw [cidrContains, Comparable]
  rcases ops.str actual with (_ | _) | address
  · simp
  · simp
  · cases haddress : ops.isAddress address with
    | false => simp [haddress]
    | true => rcases ops.str expected with (_ | _) | network <;> simp [haddress]

theorem matchesOperator_ok_iff (ops : RuleOps) {actual expected : Value} {operator : Operator} :
    (∃ b, matchesOperator ops actual operator expected = .ok b) ↔
      Comparable ops actual operator expected := by
  cases operator with
  | gt | gte | lt | lte => exact compares_ok_iff
  | contains | regex => exact comparesTexts_ok_iff
  | cidrContains => exact cidrContains_ok_iff
  | in_ => cases expected <;> exact ⟨fun _ => trivial, fun _ => ⟨_, rfl⟩⟩
  | eq | neq => exact ⟨fun _ => trivial, fun _ => ⟨_, rfl⟩⟩

theorem matchesAll_ok_iff {conditions : List RuleCondition} :
    (∃ b, matchesAll ops event conditions = .ok b) ↔ ComparableAll ops event conditions := by
  induction conditions with
  | nil => exact ⟨fun _ => trivial, fun _ => ⟨true, rfl⟩⟩
  | cons c conditions ih =>
    rw [ComparableAll, ← matchesOperator_ok_iff ops, ← ih, matchesAll]
    rcases matchesOperator ops (event.get c.field) c.operator c.value with e | _ | _
    · exact ⟨fun ⟨_, h⟩ => (nomatch h), fun ⟨⟨_, h⟩, _⟩ => (nomatch h)⟩
    · exact ⟨fun _ => ⟨⟨false, rfl⟩, nofun⟩, fun _ => ⟨false, rfl⟩⟩
    · exact ⟨fun h => ⟨⟨true, rfl⟩, fun _ => h⟩, fun h => h.2 rfl⟩

theorem ruleMatches_ok_iff {rule : RuleV1} :
    (∃ b, ruleMatches ops event rule = .ok b) ↔
      (event.eventType = rule.eventType.value → ComparableAll ops event rule.conditions) := by
  rw [ruleMatches]
  split_ifs with htype
  · exact ⟨fun _ h => absurd h htype, fun _ => ⟨false, rfl⟩⟩
  · exact matchesAll_ok_iff.trans ⟨fun h _ => h, fun h => h (not_not.1 htype)⟩

theorem correlate_ok_iff {incident : RuleIncident} :
    (∃ c, correlate event incident = .ok c) ↔ InRange event incident := by
  rw [correlate, InRange]
  cases he : incident.enabled with
  | false =>
    rw [(incident.of_disabled he).2]
    exact ⟨fun _ _ h => (by cases h), fun _ => ⟨none, rfl⟩⟩
  | true =>
    obtain ⟨⟨key, hkey, -⟩, seconds, hseconds⟩ := incident.of_enabled he
    simp only [mem_def.1 hkey, hseconds, Bool.not_true, Bool.false_eq_true, if_false,
      mem_some_iff, forall_eq']
    split_ifs with hrange
    · exact ⟨fun _ => hrange, fun _ => ⟨_, rfl⟩⟩
    · refine ⟨fun h => ?_, fun h => absurd h hrange⟩
      obtain ⟨_, h⟩ := h
      cases h

def Named (loaded : LoadedRule) : Prop :=
  ∃ mitre tacticName techniqueName, loaded.rule.mitre = some mitre ∧
    loaded.tacticName = some tacticName ∧ loaded.techniqueName = some techniqueName

theorem named_of_loadFile {rule : RuleV1} (h : loadFile ops rule = .ok loaded)
    (he : loaded.rule.enabled = true) : Named loaded := by
  simp only [loadFile] at h
  split_ifs at h with hregex hdisabled hfields
  · cases h
    rw [he] at hdisabled
    cases hdisabled
  · split at h
    · cases h
    · rename_i mitre hmitre
      split at h
      · cases h
      · cases h
        exact ⟨mitre, _, _, hmitre, rfl, rfl⟩

theorem named_of_loadDirectory {files : List RuleV1} (h : loadDirectory ops files = .ok rules)
    (hl : loaded ∈ rules) (he : loaded.rule.enabled = true) : Named loaded := by
  obtain ⟨items, hfiles, h⟩ := bind_eq_ok.1 h
  split_ifs at h
  obtain ⟨windows, -, h⟩ := bind_eq_ok.1 h
  cases h
  obtain ⟨rule, -, hrule⟩ := mem_of_mapM hfiles loaded hl
  exact named_of_loadFile hrule he

theorem evaluateRule_ok_iff (detectedAt : Time) (hnamed : Named loaded) :
    (∃ x, evaluateRule ops m detectedAt loaded = .ok x) ↔ Harmless ops m.event loaded.rule := by
  obtain ⟨mitre, tacticName, techniqueName, hmitre, htactic, htechnique⟩ := hnamed
  have hharmless : Harmless ops m.event loaded.rule ↔
      (∃ b, ruleMatches ops m.event loaded.rule = .ok b) ∧
        (ruleMatches ops m.event loaded.rule = .ok true →
          ∃ c, correlate m.event loaded.rule.incident = .ok c) := by
    rw [ruleMatches_ok_iff, correlate_ok_iff]
    exact ⟨fun h => ⟨h.comparable, h.window⟩, fun h => ⟨h.1, h.2⟩⟩
  rw [hharmless, evaluateRule]
  rcases ruleMatches ops m.event loaded.rule with e | _ | _
  · exact ⟨fun ⟨_, h⟩ => (nomatch h), fun ⟨⟨_, h⟩, _⟩ => (nomatch h)⟩
  · exact ⟨fun _ => ⟨⟨_, rfl⟩, nofun⟩, fun _ => ⟨none, rfl⟩⟩
  · simp only [hmitre, htactic, htechnique]
    rcases correlate m.event loaded.rule.incident with e | c
    · exact ⟨fun ⟨_, h⟩ => (nomatch h), fun ⟨_, h⟩ => (h trivial).elim nofun⟩
    · exact ⟨fun _ => ⟨⟨_, rfl⟩, fun _ => ⟨_, rfl⟩⟩, fun _ => ⟨_, rfl⟩⟩

/-! ## All the rules -/

theorem ok_of_evaluateRules {detectedAt : Time} {xs : List DetectionMatch}
    (h : evaluateRules ops m detectedAt rules = .ok xs) :
    ∀ loaded ∈ rules, ∃ x, evaluateRule ops m detectedAt loaded = .ok x := by
  induction rules generalizing xs with
  | nil => exact fun _ hl => absurd hl not_mem_nil
  | cons loaded rules ih =>
    obtain ⟨x, hx, h⟩ := bind_eq_ok.1 h
    obtain ⟨ys, hys, -⟩ := bind_eq_ok.1 h
    exact forall_mem_cons.2 ⟨⟨x, hx⟩, ih hys⟩

theorem evaluateRules_of_ok {detectedAt : Time} {result : LoadedRule → Option DetectionMatch}
    (h : ∀ loaded ∈ rules, evaluateRule ops m detectedAt loaded = .ok (result loaded)) :
    evaluateRules ops m detectedAt rules = .ok (rules.flatMap fun l => (result l).toList) := by
  induction rules with
  | nil => rfl
  | cons loaded rules ih =>
    obtain ⟨hloaded, hrules⟩ := forall_mem_cons.1 h
    rw [evaluateRules, hloaded, ih hrules]
    rfl

/-- Of the rules that `load_directory` accepts, none stops another if and only if no enabled one makes
    a comparison that Python does not have, or has a window that `datetime` does not have. -/
theorem isolated_iff {files : List RuleV1} (hload : loadDirectory ops files = .ok rules)
    (m : ValidatedMessage) (detectedAt : Time) :
    Isolated ops m detectedAt rules ↔
      ∀ loaded ∈ rules, loaded.rule.enabled = true → Harmless ops m.event loaded.rule := by
  have hok (loaded : LoadedRule) (h : loaded ∈ rules ∧ loaded.rule.enabled = true) :
      (∃ x, evaluateRule ops m detectedAt loaded = .ok x) ↔ Harmless ops m.event loaded.rule :=
    evaluateRule_ok_iff detectedAt (named_of_loadDirectory hload h.1 h.2)
  constructor
  · rintro ⟨results, -, hall⟩ loaded hl he
    exact (hok loaded ⟨hl, he⟩).1 (ok_of_evaluateRules hall loaded (mem_filter.2 ⟨hl, he⟩))
  · intro hharmless
    choose! result hresult using fun loaded h => (hok loaded h).2 (hharmless loaded h.1 h.2)
    refine ⟨fun loaded => (result loaded).toList, fun loaded hl he => ?_, ?_⟩
    · have hfilter : [loaded].filter (·.rule.enabled) = [loaded] := filter_cons_of_pos he
      rw [evaluate, hfilter, evaluateRules, hresult loaded ⟨hl, he⟩]
      exact congrArg _ (append_nil _)
    · exact evaluateRules_of_ok fun loaded hl => hresult loaded (mem_filter.1 hl)

/-- A rule about the names of processes, with no incident. -/
def nameRule (ruleCode : String) (operator : Operator) (value : Value) : RuleV1 :=
  { powershellRule with
    ruleCode
    conditions := [nameCondition operator value]
    conditions_ne := by simp
    incident := ⟨false, none, none, by simp, by simp, by simp⟩ }

/-- Three rules as they are loaded: two give an alert, and the last one does not. -/
def threeRules : List LoadedRule :=
  [powershellRule, nameRule "PROC_SHELL" .contains (.str "shell"),
    nameRule "PROC_LATE" .gt (.str "z")].map (⟨·, some "Execution", some "PowerShell"⟩)

theorem isolated_threeRules :
    loadDirectory sampleOps (threeRules.map (·.rule)) = .ok threeRules ∧
      (∃ x y, evaluate sampleOps threeRules ⟨sampleEvent 1 0, none⟩ 0 = .ok [x, y] ∧
        x.alert.ruleCode = "PROC_POWERSHELL" ∧ y.alert.ruleCode = "PROC_SHELL") ∧
      Isolated sampleOps ⟨sampleEvent 1 0, none⟩ 0 threeRules := by
  have hload : loadDirectory sampleOps (threeRules.map (·.rule)) = .ok threeRules := rfl
  refine ⟨hload, ⟨_, _, rfl, rfl, rfl⟩, (isolated_iff hload _ _).2 fun loaded hl _ => ?_⟩
  simp only [threeRules, map_cons, map_nil, mem_cons, not_mem_nil, or_false] at hl
  rcases hl with rfl | rfl | rfl
  · refine ⟨fun _ => ⟨trivial, fun _ => trivial⟩, fun _ seconds h => ?_⟩
    cases h
    decide
  · exact ⟨fun _ => ⟨fun _ => ⟨⟨_, rfl⟩, _, rfl⟩, fun _ => trivial⟩, fun _ _ h => by cases h⟩
  · exact ⟨fun _ => ⟨fun _ => ⟨_, rfl⟩, fun _ => trivial⟩, fun _ _ h => by cases h⟩

/-- Alone, the first rule gives an alert. With the other one, there is none. -/
theorem orderingRule_stops :
    ∃ rules, loadDirectory sampleOps [powershellRule,
        nameRule "PROC_ORDER" .gt (.int 5)] = .ok rules ∧
      evaluate sampleOps rules ⟨sampleEvent 1 0, none⟩ 0 = .error .typeError ∧
      (∃ x, evaluate sampleOps (rules.take 1) ⟨sampleEvent 1 0, none⟩ 0 = .ok [x]) ∧
      ¬Isolated sampleOps ⟨sampleEvent 1 0, none⟩ 0 rules := by
  refine ⟨_, rfl, rfl, ⟨_, rfl⟩, ?_⟩
  rintro ⟨results, -, h⟩
  cases h

end Edr.Detection
