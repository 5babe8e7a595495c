import Edr.Query

/-!
# Rules and their evaluation

A detection rule is a YAML file. `RuleLoader.load_file` accepts it, with the names of its MITRE codes,
and `RuleLoader.load_directory` accepts the rules of a directory together. `DetectionEngine.evaluate`
compares an event with the enabled rules, and returns an alert for each rule that matches, with the
incident that the alert belongs to, if the rule has one.
-/

namespace Edr.Detection

open List

/-! ## Python values -/

/-- A `float`. -/
inductive PyFloat
  | finite (q : Rat)
  | infinity
  | negInfinity
  | nan

def PyFloat.order : PyFloat → PyFloat → Option Ordering
  | nan, _ | _, nan => none
  | finite p, finite q => some (if p < q then .lt else if p = q then .eq else .gt)
  | infinity, infinity | negInfinity, negInfinity => some .eq
  | negInfinity, _ | _, infinity => some .lt
  | infinity, _ | _, negInfinity => some .gt

/-- What `yaml.safe_load` makes of the value of a condition, and `json.loads` of a column. -/
inductive Value
  | none
  | bool (b : Bool)
  | int (n : Int)
  | float (x : PyFloat)
  | str (s : String)
  | bytes (b : List UInt8)
  | date (day : Int)
  /-- A `datetime`, as a wall clock in microseconds with its offset from UTC, if it is aware. -/
  | datetime (wall : Int) (utcOffset : Option Int)
  | list (items : List Value)
  | tuple (items : List Value)
  | set (items : List Value)
  | dict (fields : List (Value × Value))

namespace Value

/-- The number that is compared: a boolean is one. -/
def number : Value → Option PyFloat
  | bool b => some (.finite (if b then 1 else 0))
  | int n => some (.finite n)
  | float x => some x
  | _ => .none

mutual

/-- `a == b`. -/
def eq : Value → Value → Bool
  | none, none => true
  | str s, str s' => decide (s = s')
  | bytes b, bytes b' => decide (b = b')
  | date day, date day' => decide (day = day')
  | datetime wall .none, datetime wall' .none => decide (wall = wall')
  | datetime wall (some offset), datetime wall' (some offset') =>
    decide (wall - offset = wall' - offset')
  | list items, list items' => eqList items items'
  | tuple items, tuple items' => eqList items items'
  | set items, set items' => decide (items.length = items'.length) && subset items items'
  | dict fields, dict fields' =>
    decide (fields.length = fields'.length) && eqFields fields fields'
  | a, b =>
    match a.number, b.number with
    | some x, some y => decide (x.order y = some .eq)
    | _, _ => false
termination_by structural a => a

/-- `==` on lists. -/
def eqList : List Value → List Value → Bool
  | [], [] => true
  | a :: items, b :: items' => eq a b && eqList items items'
  | _, _ => false
termination_by structural a => a

/-- `<=` on sets. -/
def subset : List Value → List Value → Bool
  | [], _ => true
  | a :: items, items' => (items'.any fun b => eq a b) && subset items items'
termination_by structural a => a

/-- Every key is one of the others, with the same value. -/
def eqFields : List (Value × Value) → List (Value × Value) → Bool
  | [], _ => true
  | (key, a) :: fields, fields' =>
    (fields'.any fun e => eq key e.1 && eq a e.2) && eqFields fields fields'
termination_by structural a => a

end

inductive TypeError
  | notSupported
  deriving DecidableEq

/-- The order of two sets, of which none may be a part of the other. -/
def orderSets (items items' : List Value) : Option Ordering :=
  if subset items items' then some (if subset items' items then .eq else .lt)
  else if subset items' items then some .gt
  else .none

mutual

/-- The order of two values: a `TypeError` if Python has none, and no order where it is not a
    number that is compared, or where of two sets none is a part of the other. -/
def order : Value → Value → Except TypeError (Option Ordering)
  | str s, str s' => .ok (some (if s < s' then .lt else if s = s' then .eq else .gt))
  | bytes b, bytes b' => .ok (some (if b < b' then .lt else if b = b' then .eq else .gt))
  | date day, date day' => .ok (some (compare day day'))
  | datetime wall .none, datetime wall' .none => .ok (some (compare wall wall'))
  | datetime wall (some offset), datetime wall' (some offset') =>
    .ok (some (compare (wall - offset) (wall' - offset')))
  | list items, list items' => orderList items items'
  | tuple items, tuple items' => orderList items items'
  | set items, set items' => .ok (orderSets items items')
  | a, b =>
    match a.number, b.number with
    | some x, some y => .ok (x.order y)
    | _, _ => .error .notSupported

/-- The order of two lists: that of the first items that are not equal. -/
def orderList : List Value → List Value → Except TypeError (Option Ordering)
  | [], [] => .ok (some .eq)
  | [], _ :: _ => .ok (some .lt)
  | _ :: _, [] => .ok (some .gt)
  | a :: items, b :: items' => if eq a b then orderList items items' else order a b

end

/-- `value is None`. -/
def isNone : Value → Bool
  | none => true
  | _ => false

end Value

/-! ## Rules -/

inductive Severity
  | low
  | medium
  | high
  | critical
  deriving DecidableEq

inductive Operator
  | eq
  | neq
  | contains
  | regex
  | in_
  | cidrContains
  | gt
  | gte
  | lt
  | lte
  deriving DecidableEq

structure RuleCondition where
  field : String
  operator : Operator
  value : Value
  field_ne : field ≠ ""

structure RuleMitre where
  tacticCode : String
  techniqueCode : String

/-- `RuleIncident`: an incident has a key and a window iff it is enabled. -/
structure RuleIncident where
  enabled : Bool
  correlationKey : Option String
  windowSeconds : Option Nat
  one_le_windowSeconds : ∀ n ∈ windowSeconds, 1 ≤ n
  of_enabled : enabled = true → (∃ key ∈ correlationKey, key ≠ "") ∧ ∃ n, windowSeconds = some n
  of_disabled : enabled = false → correlationKey = none ∧ windowSeconds = none

structure RuleV1 where
  ruleCode : String
  ruleName : String
  alertTitle : String
  alertSummary : String
  version : Nat
  enabled : Bool
  eventType : EventType
  conditions : List RuleCondition
  severity : Severity
  riskScore : Rat
  mitre : Option RuleMitre
  incident : RuleIncident
  one_le_version : 1 ≤ version
  conditions_ne : conditions ≠ []
  riskScore_mem : 0 ≤ riskScore ∧ riskScore ≤ 100
  mitre_isSome : mitre.isSome = enabled

structure LoadedRule where
  rule : RuleV1
  tacticName : Option String
  techniqueName : Option String

/-- What `str` raises: an integer may have too many digits, and a value too many levels. -/
inductive StrError
  | valueError
  | recursionError
  deriving DecidableEq

/-- What the loader and the engine call. -/
structure RuleOps where
  str : Value → Except StrError String
  repr : String → String
  /-- Does `re.compile` accept the pattern? -/
  compiles : String → Bool
  /-- `re.search(pattern, text) is not None`. -/
  search : String → String → Bool
  /-- Does `ip_address` accept the text? -/
  isAddress : String → Bool
  /-- `ip_address(address) in ip_network(network, strict=False)`, which may raise `ValueError`. -/
  inNetwork : String → String → Option Bool
  resolve : String → String → Except String (String × String)

/-! ## The loader -/

/-- `CONDITION_FIELDS_BY_EVENT_TYPE`. -/
def conditionFields : EventType → List String
  | .processExecution =>
    ["process_name", "process_path", "pid", "ppid", "command_line", "user_name"]
  | .networkConnection =>
    ["protocol", "remote_ip", "remote_port", "remote_domain", "process_name", "pid"]
  | .fileEvent => ["file_path", "file_action", "file_hash_sha256", "process_name", "pid"]
  | .dnsQuery =>
    ["dns_query", "dns_record_type", "dns_response_code", "dns_answers_json", "process_name", "pid"]
  | .l7Event =>
    ["l7_protocol", "http_method", "http_host", "url", "http_status_code", "http_user_agent",
      "tls_sni", "tls_version", "tls_certificate_subject", "tls_certificate_issuer",
      "tls_certificate_sha256"]

inductive LoadError
  /-- What `str` or `re.compile` raises for a pattern. -/
  | patternError
  | valueError (message : String)
  | runtimeError (message : String)

variable (ops : RuleOps)

def invalidFields (rule : RuleV1) : List String :=
  ((rule.conditions.map (·.field)).dedup.filter fun field =>
    !(conditionFields rule.eventType).contains field).insertionSort (· ≤ ·)

/-- `load_file`, of a file that the schema and the model accept. -/
def loadFile (rule : RuleV1) : Except LoadError LoadedRule :=
  let code := rule.ruleCode
  let version := rule.version
  let type := rule.eventType.value
  let fields := ", ".intercalate (invalidFields rule)
  if rule.conditions.any fun c =>
      decide (c.operator = .regex) && !(ops.str c.value).toOption.any ops.compiles then
    .error .patternError
  else if !rule.enabled then .ok ⟨rule, none, none⟩
  else if !(invalidFields rule).isEmpty then
    .error (.valueError
      s!"enabled rule {code} v{version} has condition fields unavailable for {type}: {fields}")
  else
    match rule.mitre with
    | none => .error (.valueError s!"enabled rule {code} has no MITRE mapping")
    | some mitre =>
      match ops.resolve mitre.tacticCode mitre.techniqueCode with
      | .error error =>
        .error (.valueError s!"invalid MITRE mapping for {code} v{version}: {error}")
      | .ok (tacticName, techniqueName) => .ok ⟨rule, some tacticName, some techniqueName⟩

/-- One iteration of the last loop of `load_directory`, on the windows of the keys so far. -/
def checkWindow (windows : List (String × Nat)) (item : LoadedRule) :
    Except LoadError (List (String × Nat)) :=
  if !item.rule.enabled || !item.rule.incident.enabled then .ok windows
  else
    match item.rule.incident.correlationKey, item.rule.incident.windowSeconds with
    | some key, some seconds =>
      let text := ops.repr key
      match windows.lookup key with
      | none => .ok ((key, seconds) :: windows)
      | some existing =>
        if existing ≠ seconds then
          .error (.valueError
            s!"correlation_key {text} has inconsistent window_seconds: {existing} and {seconds}")
        else .ok windows
    | _, _ => .error (.runtimeError "enabled incident was not model-validated")

def loadDirectory (files : List RuleV1) : Except LoadError (List LoadedRule) := do
  let loaded ← files.mapM (loadFile ops)
  if ¬(loaded.map fun item => (item.rule.ruleCode, item.rule.version)).Nodup then
    throw (.valueError "duplicate rule_code/version")
  else if ¬((loaded.filter (·.rule.enabled)).map (·.rule.ruleCode)).Nodup then
    throw (.valueError "multiple enabled versions for rule_code")
  else
    let _ ← loaded.foldlM (checkWindow ops) []
    return loaded

/-! ## The engine -/

/-- The event of a message of `telemetry.validated`. The columns that conditions may name are kept
    as a list. -/
structure DetectionEvent where
  eventId : UUID
  endpointId : Nat
  agentId : String
  eventType : String
  occurredAt : Time
  columns : List (String × Value)

/-- What `_process` reads from a message: the event, and the batch that it came in. -/
structure ValidatedMessage where
  event : DetectionEvent
  batchId : Option UUID

/-- `event.get(field)`. -/
def DetectionEvent.get (event : DetectionEvent) (field : String) : Value :=
  (event.columns.lookup field).getD .none

/-- The exceptions of `evaluate`. That of a time that `datetime` does not have is `outOfRange`. -/
inductive EvaluateError
  | typeError
  | str (error : StrError)
  | outOfRange
  | runtimeError (message : String)

/-- The operators that need an order. -/
def compares (actual expected : Value) (p : Ordering → Bool) : Except EvaluateError Bool :=
  if actual.isNone then .ok false
  else
    match actual.order expected with
    | .ok order => .ok (order.any p)
    | .error _ => .error .typeError

/-- `str(value)`. -/
def textOf (value : Value) : Except EvaluateError String := (ops.str value).mapError .str

/-- The operators that compare texts. -/
def comparesTexts (actual expected : Value) (p : String → String → Bool) :
    Except EvaluateError Bool := do
  if actual.isNone then return false
  else
    let expected ← textOf ops expected
    let actual ← textOf ops actual
    return p expected actual

/-- `cidr_contains`: each `ValueError` is caught. -/
def cidrContains (actual expected : Value) : Except EvaluateError Bool :=
  match ops.str actual with
  | .error .valueError => .ok false
  | .error .recursionError => .error (.str .recursionError)
  | .ok address =>
    if !ops.isAddress address then .ok false
    else
      match ops.str expected with
      | .error .valueError => .ok false
      | .error .recursionError => .error (.str .recursionError)
      | .ok network => .ok ((ops.inNetwork address network).getD false)

def matchesOperator (actual : Value) (operator : Operator) (expected : Value) :
    Except EvaluateError Bool :=
  match operator with
  | .eq => .ok (actual.eq expected)
  | .neq => .ok !actual.eq expected
  | .contains => comparesTexts ops actual expected isIn
  | .regex => comparesTexts ops actual expected ops.search
  | .in_ =>
    match expected with
    | .list items => .ok (items.any actual.eq)
    | _ => .ok false
  | .cidrContains => cidrContains ops actual expected
  | .gt => compares actual expected (· == .gt)
  | .gte => compares actual expected (· != .lt)
  | .lt => compares actual expected (· == .lt)
  | .lte => compares actual expected (· != .gt)

/-- `all(..)` over the conditions of a rule, which stops at the first one that does not hold. -/
def matchesAll (event : DetectionEvent) : List RuleCondition → Except EvaluateError Bool
  | [] => .ok true
  | c :: conditions => do
    if ← matchesOperator ops (event.get c.field) c.operator c.value then
      matchesAll event conditions
    else return false

def ruleMatches (event : DetectionEvent) (rule : RuleV1) : Except EvaluateError Bool :=
  if event.eventType ≠ rule.eventType.value then .ok false
  else matchesAll ops event rule.conditions

structure AlertInsert where
  endpointId : Nat
  eventId : UUID
  eventOccurredAt : Time
  batchId : Option UUID
  agentId : String
  ruleCode : String
  ruleName : String
  ruleVersion : Nat
  mitreTacticCode : String
  mitreTacticName : String
  mitreTechniqueCode : String
  mitreTechniqueName : String
  title : String
  summary : String
  severity : Severity
  riskScore : Rat
  detectedAt : Time

structure IncidentCorrelation where
  endpointId : Nat
  correlationKey : String
  windowStartAt : Time
  windowEndAt : Time

structure DetectionMatch where
  alert : AlertInsert
  incident : Option IncidentCorrelation

/-- `_window`. The whole seconds of a time are cut off towards the epoch. -/
def window (occurredAt : Time) (windowSeconds : Nat) : Time × Time :=
  let startEpoch := occurredAt.tdiv 1000 / windowSeconds * windowSeconds
  (startEpoch * 1000, startEpoch * 1000 + windowSeconds * 1000)

def correlate (event : DetectionEvent) (incident : RuleIncident) :
    Except EvaluateError (Option IncidentCorrelation) :=
  if !incident.enabled then .ok none
  else
    match incident.correlationKey, incident.windowSeconds with
    | some key, some seconds =>
      let (start, end_) := window event.occurredAt seconds
      if datetimeMin ≤ start ∧ end_ ≤ datetimeMax then
        .ok (some ⟨event.endpointId, key, start, end_⟩)
      else .error .outOfRange
    | _, _ => .error (.runtimeError "enabled incident was not readiness-validated")

/-- One iteration of the loop of `evaluate`. -/
def evaluateRule (m : ValidatedMessage) (detectedAt : Time) (loaded : LoadedRule) :
    Except EvaluateError (Option DetectionMatch) := do
  let rule := loaded.rule
  if ← ruleMatches ops m.event rule then
    match rule.mitre, loaded.tacticName, loaded.techniqueName with
    | some mitre, some tacticName, some techniqueName =>
      let incident ← correlate m.event rule.incident
      return some {
        alert := {
          endpointId := m.event.endpointId
          eventId := m.event.eventId
          eventOccurredAt := m.event.occurredAt
          batchId := m.batchId
          agentId := m.event.agentId
          ruleCode := rule.ruleCode
          ruleName := rule.ruleName
          ruleVersion := rule.version
          mitreTacticCode := mitre.tacticCode
          mitreTacticName := tacticName
          mitreTechniqueCode := mitre.techniqueCode
          mitreTechniqueName := techniqueName
          title := rule.alertTitle
          summary := rule.alertSummary
          severity := rule.severity
          riskScore := rule.riskScore
          detectedAt }
        incident }
    | _, _, _ => throw (.runtimeError "enabled rule was not readiness-validated")
  else return none

/-- The loop of `evaluate`. -/
def evaluateRules (m : ValidatedMessage) (detectedAt : Time) :
    List LoadedRule → Except EvaluateError (List DetectionMatch)
  | [] => .ok []
  | loaded :: rules => do
    let x ← evaluateRule ops m detectedAt loaded
    let xs ← evaluateRules m detectedAt rules
    return x.toList ++ xs

/-- `evaluate`, of an engine that was made for these rules. -/
def evaluate (rules : List LoadedRule) (m : ValidatedMessage) (detectedAt : Time) :
    Except EvaluateError (List DetectionMatch) :=
  evaluateRules ops m detectedAt (rules.filter (·.rule.enabled))

/-! ## What is known of accepted rules -/

section

variable {ops}

def Recorded (windows : List (String × Nat)) (item : LoadedRule) : Prop :=
  ∀ key seconds, item.rule.enabled = true → item.rule.incident.enabled = true →
    item.rule.incident.correlationKey = some key → item.rule.incident.windowSeconds = some seconds →
    windows.lookup key = some seconds

theorem checkWindow_eq_ok {windows windows' : List (String × Nat)} {item : LoadedRule}
    (h : checkWindow ops windows item = .ok windows') :
    Recorded windows' item ∧
      ∀ key seconds, windows.lookup key = some seconds → windows'.lookup key = some seconds := by
  simp only [checkWindow] at h
  split_ifs at h with hskip
  · cases h
    refine ⟨fun key seconds he hi _ _ => ?_, fun _ _ h => h⟩
    rw [he, hi] at hskip
    cases hskip
  · split at h
    · rename_i key seconds hkey hseconds
      have hrecorded (w : List (String × Nat)) (hw : w.lookup key = some seconds) :
          Recorded w item := by
        intro key' seconds' _ _ hkey' hseconds'
        cases hkey.symm.trans hkey'
        cases hseconds.symm.trans hseconds'
        exact hw
      split at h
      · rename_i hnone
        cases h
        refine ⟨hrecorded _ (by rw [lookup_cons, BEq.rfl]), fun key' seconds' h => ?_⟩
        have hne : (key' == key) = false := by
          rw [beq_eq_false_iff_ne]
          rintro rfl
          rw [hnone] at h
          cases h
        rw [lookup_cons, hne]
        exact h
      · rename_i existing hexisting
        split_ifs at h with hne
        cases h
        exact ⟨hrecorded _ (Classical.not_not.1 hne ▸ hexisting), fun _ _ h => h⟩
    · cases h

/-- The rules of a directory that `load_directory` accepts. -/
structure Accepted (rules : List LoadedRule) : Prop where
  identities : (rules.map fun item => (item.rule.ruleCode, item.rule.version)).Nodup
  enabledCodes : ((rules.filter (·.rule.enabled)).map (·.rule.ruleCode)).Nodup
  windows : ∃ windows, ∀ item ∈ rules, Recorded windows item

theorem loadDirectory_eq_ok {files : List RuleV1} {rules : List LoadedRule}
    (h : loadDirectory ops files = .ok rules) : Accepted rules := by
  obtain ⟨loaded, -, h⟩ := bind_eq_ok.1 h
  split_ifs at h with hid hcodes
  obtain ⟨windows, hwindows, h⟩ := bind_eq_ok.1 h
  cases h
  refine ⟨hid, hcodes, windows, foldlM_forall (fun _ _ _ h => ?_) (fun w a w' x h hx => ?_) hwindows⟩
  · exact (checkWindow_eq_ok h).1
  · exact fun key seconds he hi hk hs =>
      (checkWindow_eq_ok h).2 key seconds (hx key seconds he hi hk hs)

theorem Accepted.eq_of_identity {rules : List LoadedRule} (h : Accepted rules)
    {item item' : LoadedRule} (hi : item ∈ rules) (hi' : item' ∈ rules)
    (hcode : item.rule.ruleCode = item'.rule.ruleCode)
    (hversion : item.rule.version = item'.rule.version) : item = item' :=
  inj_on_of_nodup_map h.identities hi hi' (Prod.ext hcode hversion)

end

/-! ## What the engine returns -/

/-- An alert is known by its event and by the code and the version of its rule. -/
structure AlertKey where
  eventId : UUID
  ruleCode : String
  ruleVersion : Nat
  deriving DecidableEq

/-- An incident is known by its endpoint, its correlation key and the start of its window. -/
structure IncidentKey where
  endpointId : Nat
  correlationKey : String
  windowStartAt : Time
  deriving DecidableEq

def AlertInsert.key (alert : AlertInsert) : AlertKey :=
  ⟨alert.eventId, alert.ruleCode, alert.ruleVersion⟩

def IncidentCorrelation.key (c : IncidentCorrelation) : IncidentKey :=
  ⟨c.endpointId, c.correlationKey, c.windowStartAt⟩

def alertKey (event : DetectionEvent) (loaded : LoadedRule) : AlertKey :=
  ⟨event.eventId, loaded.rule.ruleCode, loaded.rule.version⟩

def correlation (event : DetectionEvent) (loaded : LoadedRule) : Option IncidentCorrelation :=
  match loaded.rule.incident.correlationKey, loaded.rule.incident.windowSeconds with
  | some key, some seconds =>
    let (start, end_) := window event.occurredAt seconds
    some ⟨event.endpointId, key, start, end_⟩
  | _, _ => none

def Fires (event : DetectionEvent) (loaded : LoadedRule) : Prop :=
  loaded.rule.enabled = true ∧ ruleMatches ops event loaded.rule = .ok true

structure IsMatch (m : ValidatedMessage) (detectedAt : Time) (loaded : LoadedRule)
    (x : DetectionMatch) : Prop where
  key : x.alert.key = alertKey m.event loaded
  severity : x.alert.severity = loaded.rule.severity
  detectedAt : x.alert.detectedAt = detectedAt
  incident : x.incident = correlation m.event loaded

section

variable {ops} {m : ValidatedMessage} {detectedAt : Time} {loaded : LoadedRule}
  {rules : List LoadedRule} {x : DetectionMatch} {xs : List DetectionMatch}

theorem correlate_eq_ok {c : Option IncidentCorrelation}
    (h : correlate m.event loaded.rule.incident = .ok c) : c = correlation m.event loaded := by
  rw [correlate] at h
  rw [correlation]
  cases he : loaded.rule.incident.enabled with
  | false =>
    obtain ⟨hkey, -⟩ := loaded.rule.incident.of_disabled he
    rw [he] at h
    cases h
    rw [hkey]
  | true =>
    rw [he] at h
    simp only [Bool.not_true, Bool.false_eq_true, if_false] at h
    split at h
    · split_ifs at h
      cases h
      rfl
    · cases h

theorem correlation_eq_some {event : DetectionEvent} {c : IncidentCorrelation}
    (h : correlation event loaded = some c) :
    ∃ seconds, loaded.rule.incident.enabled = true ∧
      loaded.rule.incident.correlationKey = some c.correlationKey ∧
      loaded.rule.incident.windowSeconds = some seconds ∧
      c.windowEndAt = c.windowStartAt + seconds * 1000 := by
  rw [correlation] at h
  split at h
  · rename_i key seconds hkey hseconds
    cases h
    refine ⟨seconds, ?_, hkey, hseconds, rfl⟩
    by_contra hdisabled
    obtain ⟨hnone, -⟩ := loaded.rule.incident.of_disabled (Bool.eq_false_iff.2 hdisabled)
    cases hkey.symm.trans hnone
  · cases h

theorem evaluateRule_eq_some (h : evaluateRule ops m detectedAt loaded = .ok (some x)) :
    ruleMatches ops m.event loaded.rule = .ok true ∧ IsMatch m detectedAt loaded x := by
  obtain ⟨b, hb, h⟩ := bind_eq_ok.1 h
  cases b with
  | false => cases h
  | true =>
    refine ⟨hb, ?_⟩
    simp only [if_true] at h
    split at h
    · obtain ⟨c, hc, h⟩ := bind_eq_ok.1 h
      cases h
      exact ⟨rfl, rfl, rfl, correlate_eq_ok hc⟩
    · cases h

theorem evaluateRule_eq_none (h : evaluateRule ops m detectedAt loaded = .ok none) :
    ruleMatches ops m.event loaded.rule = .ok false := by
  obtain ⟨b, hb, h⟩ := bind_eq_ok.1 h
  cases b with
  | false => exact hb
  | true =>
    simp only [if_true] at h
    split at h
    · obtain ⟨c, -, h⟩ := bind_eq_ok.1 h
      cases h
    · cases h

theorem evaluateRules_eq_ok (h : evaluateRules ops m detectedAt rules = .ok xs) :
    (∀ x ∈ xs, ∃ loaded ∈ rules, ruleMatches ops m.event loaded.rule = .ok true ∧
      IsMatch m detectedAt loaded x) ∧
    ∀ loaded ∈ rules, ruleMatches ops m.event loaded.rule = .ok true →
      ∃ x ∈ xs, IsMatch m detectedAt loaded x := by
  induction rules generalizing xs with
  | nil =>
    cases h
    exact ⟨fun _ hx => absurd hx not_mem_nil, fun _ hl => absurd hl not_mem_nil⟩
  | cons loaded rules ih =>
    obtain ⟨o, ho, h⟩ := bind_eq_ok.1 h
    obtain ⟨ys, hys, h⟩ := bind_eq_ok.1 h
    cases h
    obtain ⟨hfrom, hall⟩ := ih hys
    cases o with
    | none =>
      have hfalse := evaluateRule_eq_none ho
      refine ⟨fun x hx => ?_, fun l hl hfires => ?_⟩
      · obtain ⟨l, hl, hx⟩ := hfrom x hx
        exact ⟨l, mem_cons_of_mem _ hl, hx⟩
      · rcases mem_cons.1 hl with rfl | hl
        · cases hfires.symm.trans hfalse
        · exact hall l hl hfires
    | some y =>
      obtain ⟨hfires, hy⟩ := evaluateRule_eq_some ho
      refine ⟨fun x hx => ?_, fun l hl hfires => ?_⟩
      · rcases mem_cons.1 hx with rfl | hx
        · exact ⟨loaded, mem_cons_self, hfires, hy⟩
        · obtain ⟨l, hl, hx⟩ := hfrom x hx
          exact ⟨l, mem_cons_of_mem _ hl, hx⟩
      · rcases mem_cons.1 hl with rfl | hl
        · exact ⟨y, mem_cons_self, hy⟩
        · obtain ⟨x, hx, hm⟩ := hall l hl hfires
          exact ⟨x, mem_cons_of_mem _ hx, hm⟩

/-- The matches that `evaluate` returns are those of the rules that fire. -/
theorem evaluate_eq_ok (h : evaluate ops rules m detectedAt = .ok xs) :
    (∀ x ∈ xs, ∃ loaded ∈ rules, Fires ops m.event loaded ∧ IsMatch m detectedAt loaded x) ∧
    ∀ loaded ∈ rules, Fires ops m.event loaded → ∃ x ∈ xs, IsMatch m detectedAt loaded x := by
  obtain ⟨hfrom, hall⟩ := evaluateRules_eq_ok h
  refine ⟨fun x hx => ?_, fun loaded hl hfires => ?_⟩
  · obtain ⟨loaded, hl, hfires, hm⟩ := hfrom x hx
    obtain ⟨hl, he⟩ := mem_filter.1 hl
    exact ⟨loaded, hl, ⟨he, hfires⟩, hm⟩
  · exact hall loaded (mem_filter.2 ⟨hl, hfires.1⟩) hfires.2

end

end Edr.Detection
