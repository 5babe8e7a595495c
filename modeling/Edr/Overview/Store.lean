import Edr.Lib.Prefixes
import Edr.Overview

/-!
# The dashboards of a user

`readOverviewLayoutState` makes dashboards of whatever is in the storage of the browser: texts are
trimmed and cut, numbers are clamped, and widgets are moved to a free place of the grid, or left out
where there is none.
-/

namespace Edr.Overview

open List Int Prefixes

/-! ## The code -/

/-- A string: its code units. -/
abbrev JsString := List UInt16

/-- What `JSON.parse` returns. A number that is too great is infinite. -/
inductive JsValue
  | null
  | bool (b : Bool)
  | number (q : Option Rat)
  | string (s : JsString)
  | array (values : List JsValue)
  | object (fields : List (String × JsValue))

/-- The property of a value, if it is an object that has it. -/
def JsValue.get (key : String) : JsValue → Option JsValue
  | .object fields => fields.lookup key
  | _ => none

/-- The code units of a text without surrogates. -/
def units (text : String) : JsString := text.toList.map fun c => c.val.toUInt16

/-- `OverviewWidgetType`. -/
inductive OverviewWidgetType
  | edrState
  | kpiAlerts
  | kpiCriticalAlerts
  | kpiHighRiskEndpoints
  | kpiOpenIncidents
  | detectionActivity
  | alertSeverity
  | highestRiskEndpoints
  | incidentQueue
  deriving DecidableEq

def OverviewWidgetType.text : OverviewWidgetType → String
  | .edrState => "edr-state"
  | .kpiAlerts => "kpi-alerts"
  | .kpiCriticalAlerts => "kpi-critical-alerts"
  | .kpiHighRiskEndpoints => "kpi-high-risk-endpoints"
  | .kpiOpenIncidents => "kpi-open-incidents"
  | .detectionActivity => "detection-activity"
  | .alertSeverity => "alert-severity"
  | .highestRiskEndpoints => "highest-risk-endpoints"
  | .incidentQueue => "incident-queue"

/-- `OVERVIEW_WIDGET_TYPES`. -/
def overviewWidgetTypes : List OverviewWidgetType :=
  [.edrState, .kpiAlerts, .kpiCriticalAlerts, .kpiHighRiskEndpoints, .kpiOpenIncidents,
    .detectionActivity, .alertSeverity, .highestRiskEndpoints, .incidentQueue]

/-- `isOverviewWidgetType`, with the type. -/
def overviewWidgetType? : Option JsValue → Option OverviewWidgetType
  | some (.string s) => overviewWidgetTypes.find? fun type => decide (units type.text = s)
  | _ => none

/-- `OverviewWidgetDefinition`. -/
structure OverviewWidgetDefinition where
  defaultW : Int
  defaultH : Int
  minW : Int
  minH : Int
  maxW : Int
  maxH : Int

/-- `widgetDefinition`. -/
def widgetDefinition : OverviewWidgetType → OverviewWidgetDefinition
  | .edrState => ⟨12, 4, 12, 4, 12, 8⟩
  | .kpiAlerts | .kpiCriticalAlerts | .kpiHighRiskEndpoints | .kpiOpenIncidents => ⟨3, 2, 3, 2, 6, 5⟩
  | .detectionActivity => ⟨8, 10, 6, 10, 12, 12⟩
  | .alertSeverity => ⟨4, 7, 4, 7, 8, 12⟩
  | .highestRiskEndpoints | .incidentQueue => ⟨6, 7, 6, 7, 12, 12⟩

/-- `CustomDashboardWidget`. -/
structure CustomDashboardWidget where
  uid : JsString
  type : OverviewWidgetType
  x : Int
  y : Int
  w : Int
  h : Int
  deriving DecidableEq

def CustomDashboardWidget.region (widget : CustomDashboardWidget) : Region :=
  ⟨widget.x, widget.y, widget.w, widget.h⟩

/-- `CustomOverviewDashboard`. -/
structure CustomOverviewDashboard where
  id : JsString
  name : JsString
  widgets : List CustomDashboardWidget
  createdAt : JsString
  updatedAt : JsString
  deriving DecidableEq

/-- The white space of `trim`. -/
def isSpace (c : UInt16) : Bool :=
  c ∈ [9, 10, 11, 12, 13, 32, 160, 0x1680, 0x2028, 0x2029, 0x202F, 0x205F, 0x3000, 0xFEFF] ||
    decide (0x2000 ≤ c) && decide (c ≤ 0x200A)

def trim (s : JsString) : JsString := (s.dropWhile isSpace).rdropWhile isSpace

/-- `normalizeText`. -/
def normalizeText (value : Option JsValue) (maxLength : Nat) : Option JsString :=
  match value with
  | some (.string s) => if (trim s).take maxLength = [] then none else some ((trim s).take maxLength)
  | _ => none

/-- `clampInteger`. -/
def clampInteger (value : Option JsValue) (lo hi fallback : Int) : Int :=
  match value with
  | some (.number (some q)) => min (max ⌊q + 1 / 2⌋ lo) hi
  | _ => fallback

/-- `Date`: the times that there are, and their texts. -/
structure DateApi where
  maxTime : Nat
  parse : JsString → Option Int
  toISOString : Int → JsString
  le_maxTime : ∀ s t, parse s = some t → t.natAbs ≤ maxTime
  parse_toISOString : ∀ t, t.natAbs ≤ maxTime → parse (toISOString t) = some t

/-- `normalizeDate`, or the text of the fallback. -/
def normalizeDate (date : DateApi) (value : Option JsValue) : JsString :=
  match value with
  | some (.string s) => date.toISOString ((date.parse s).getD 0)
  | _ => date.toISOString 0

/-- `normalizeWidget`. -/
def normalizeWidget (value : JsValue) (widgetIds : List JsString) :
    Option CustomDashboardWidget := do
  let type ← overviewWidgetType? (value.get "type")
  let uid ← normalizeText (value.get "uid") 160
  if uid ∈ widgetIds then none
  else
    let definition := widgetDefinition type
    let w := clampInteger (value.get "w") definition.minW (min definition.maxW overviewGridColumns)
      definition.defaultW
    let h := clampInteger (value.get "h") definition.minH definition.maxH definition.defaultH
    return {
      uid
      type
      x := clampInteger (value.get "x") 0 (overviewGridColumns - w) 0
      y := clampInteger (value.get "y") 0 (overviewGridMaxRows - h) 0
      w
      h }

/-- The widgets that are placed, and what the loop over the candidates remembers of them. -/
structure Placed where
  widgetIds : List JsString := []
  widgetTypes : List OverviewWidgetType := []
  widgets : List CustomDashboardWidget := []
  occupancy : Nat → Bool := createOverviewGridOccupancy []

/-- The widget of a candidate, unless it is left out before a place is looked for. -/
def Placed.candidate (s : Placed) (candidate : JsValue) : Option CustomDashboardWidget :=
  if (overviewWidgetType? (candidate.get "type")).any fun type => decide (type ∈ s.widgetTypes) then
    none
  else normalizeWidget candidate s.widgetIds

/-- The widget is placed where it was moved to. -/
def Placed.place (s : Placed) (widget : CustomDashboardWidget) (position : Nat × Nat) : Placed :=
  let placedWidget := { widget with x := position.1, y := position.2 }
  { s with
    widgets := s.widgets ++ [placedWidget]
    widgetTypes := placedWidget.type :: s.widgetTypes
    occupancy := occupyOverviewGridRegion s.occupancy placedWidget.region }

/-- The place that is found for a widget. -/
def Placed.find (s : Placed) (widget : CustomDashboardWidget) : Option (Nat × Nat) :=
  findAvailableOverviewWidgetPosition widget.region (s.widgets.map (·.region)) s.occupancy

/-- The body of the loop over the candidates, with `unplaceableSizes`. -/
def normalizeCandidate (s : Placed × List (Int × Int)) (candidate : JsValue) :
    Placed × List (Int × Int) :=
  match s.1.candidate candidate with
  | none => s
  | some widget =>
    let placed := { s.1 with widgetIds := widget.uid :: s.1.widgetIds }
    if (widget.w, widget.h) ∈ s.2 then (placed, s.2)
    else match placed.find widget with
      | none => (placed, (widget.w, widget.h) :: s.2)
      | some position => (placed.place widget position, s.2)

/-- The body of the loop where a place is looked for in every case. -/
def searchCandidate (s : Placed) (candidate : JsValue) : Placed :=
  match s.candidate candidate with
  | none => s
  | some widget =>
    let placed := { s with widgetIds := widget.uid :: s.widgetIds }
    (placed.find widget).elim placed (placed.place widget)

/-- `normalizeDashboard`, with the loop over the candidates. -/
def normalizeDashboard (loop : List JsValue → List CustomDashboardWidget) (date : DateApi)
    (value : JsValue) (dashboardIds : List JsString) : Option CustomOverviewDashboard := do
  let id ← normalizeText (value.get "id") 120
  let name ← normalizeText (value.get "name") 80
  if id ∈ dashboardIds then none
  else match value.get "widgets" with
    | some (.array candidates) =>
      if loop candidates = [] then none
      else return ⟨id, name, loop candidates, normalizeDate date (value.get "createdAt"),
        normalizeDate date (value.get "updatedAt")⟩
    | _ => none

/-- The loop as it is. -/
def normalizeCandidates (candidates : List JsValue) : List CustomDashboardWidget :=
  (candidates.foldl normalizeCandidate ({}, [])).1.widgets

/-- The loop where a place is looked for in every case. -/
def searchCandidates (candidates : List JsValue) : List CustomDashboardWidget :=
  (candidates.foldl searchCandidate {}).widgets

/-- The loop over the dashboards. -/
def normalizeDashboards (loop : List JsValue → List CustomDashboardWidget) (date : DateApi)
    (candidates : List JsValue) : List CustomOverviewDashboard :=
  candidates.foldl (fun dashboards candidate =>
    dashboards ++ (normalizeDashboard loop date candidate (dashboards.map (·.id))).toList) []

/-- `normalizeOverviewDashboardStore`. -/
def normalizeOverviewDashboardStore (loop : List JsValue → List CustomDashboardWidget)
    (date : DateApi) (value : JsValue) : List CustomOverviewDashboard :=
  match value.get "version", value.get "dashboards" with
  | some (.number (some q)), some (.array candidates) =>
    if q = 1 then normalizeDashboards loop date candidates else []
  | _, _ => []

/-- `StoredOverviewLayoutState`. -/
structure StoredOverviewLayoutState where
  dashboards : List CustomOverviewDashboard
  activeDashboardId : JsString
  deriving DecidableEq

/-- The active dashboard: the stored id, if it is one of the ids. -/
def activeDashboardId (dashboards : List CustomOverviewDashboard) (storedActive : Option JsString) :
    JsString :=
  (storedActive.filter fun id => id ≠ [] ∧ id ∈ dashboards.map (·.id)).getD (units "default")

/-- `readOverviewLayoutState`, of what `JSON.parse` makes of the stored text, if it does, and of the
    id that is stored. -/
def readOverviewLayoutState (date : DateApi) (stored : Option JsValue)
    (storedActive : Option JsString) : StoredOverviewLayoutState :=
  let dashboards := stored.elim [] (normalizeOverviewDashboardStore normalizeCandidates date)
  ⟨dashboards, activeDashboardId dashboards storedActive⟩

def CustomDashboardWidget.toJs (widget : CustomDashboardWidget) : JsValue :=
  .object [("uid", .string widget.uid), ("type", .string (units widget.type.text)),
    ("x", .number (some widget.x)), ("y", .number (some widget.y)),
    ("w", .number (some widget.w)), ("h", .number (some widget.h))]

def CustomOverviewDashboard.toJs (dashboard : CustomOverviewDashboard) : JsValue :=
  .object [("id", .string dashboard.id), ("name", .string dashboard.name),
    ("widgets", .array (dashboard.widgets.map (·.toJs))),
    ("createdAt", .string dashboard.createdAt), ("updatedAt", .string dashboard.updatedAt)]

/-- `writeOverviewLayoutState`: the store and the id. -/
def writeOverviewLayoutState (state : StoredOverviewLayoutState) : JsValue × JsString :=
  (.object [("version", .number (some 1)), ("dashboards", .array (state.dashboards.map (·.toJs)))],
    state.activeDashboardId)

/-- The state is written and read again. -/
def reread (date : DateApi) (state : StoredOverviewLayoutState) : StoredOverviewLayoutState :=
  let (stored, active) := writeOverviewLayoutState state
  readOverviewLayoutState date (some stored) (some active)

/-! ## The loop over the candidates -/

section

variable {P : JsString → Prop} {s : Placed} {widget : CustomDashboardWidget} {candidate : JsValue}
  {widgets : List CustomDashboardWidget} {unplaceable : List (Int × Int)}

/-- A widget as its definition and the grid demand. -/
structure InBounds (widget : CustomDashboardWidget) : Prop where
  width : (widgetDefinition widget.type).minW ≤ widget.w ∧
    widget.w ≤ (widgetDefinition widget.type).maxW
  height : (widgetDefinition widget.type).minH ≤ widget.h ∧
    widget.h ≤ (widgetDefinition widget.type).maxH
  columns : 0 ≤ widget.x ∧ widget.x + widget.w ≤ overviewGridColumns
  rows : 0 ≤ widget.y ∧ widget.y + widget.h ≤ overviewGridMaxRows

/-- Widgets that may be together, with ids that satisfy `P`. -/
@[mk_iff]
structure Arranged (P : JsString → Prop) (widgets : List CustomDashboardWidget) : Prop where
  uids : (widgets.map (·.uid)).Nodup
  types : (widgets.map (·.type)).Nodup
  texts : ∀ widget ∈ widgets, P widget.uid
  bounds : ∀ widget ∈ widgets, InBounds widget
  apart : widgets.Pairwise fun a b => overviewWidgetsOverlap b.region a.region = false

theorem definition_bounds (type : OverviewWidgetType) : let d := widgetDefinition type
    0 < d.minW ∧ d.minW ≤ d.defaultW ∧ d.defaultW ≤ d.maxW ∧ d.maxW ≤ overviewGridColumns ∧
    0 < d.minH ∧ d.minH ≤ d.defaultH ∧ d.defaultH ≤ d.maxH ∧ d.maxH ≤ overviewGridMaxRows := by
  cases type <;> decide

theorem clampInteger_mem (value : Option JsValue) {lo hi fallback : Int}
    (hfallback : lo ≤ fallback ∧ fallback ≤ hi) :
    lo ≤ clampInteger value lo hi fallback ∧ clampInteger value lo hi fallback ≤ hi := by
  unfold clampInteger
  split
  · omega
  · exact hfallback

theorem normalizeWidget_spec {widgetIds : List JsString}
    (h : normalizeWidget candidate widgetIds = some widget) :
    overviewWidgetType? (candidate.get "type") = some widget.type ∧
      normalizeText (candidate.get "uid") 160 = some widget.uid ∧ widget.uid ∉ widgetIds ∧
      InBounds widget := by
  obtain ⟨type, htype, h⟩ := Option.bind_eq_some_iff.1 h
  obtain ⟨uid, huid, h⟩ := Option.bind_eq_some_iff.1 h
  split_ifs at h with hmem
  obtain ⟨hminW, hW, hW', hmaxW, hminH, hH, hH', hmaxH⟩ := definition_bounds type
  have hw := clampInteger_mem (candidate.get "w") ⟨hW, hW'⟩
  have hh := clampInteger_mem (candidate.get "h") ⟨hH, hH'⟩
  simp only [min_eq_left hmaxW] at h
  generalize clampInteger (candidate.get "w") _ _ _ = w at *
  generalize clampInteger (candidate.get "h") _ _ _ = h' at *
  have hx : 0 ≤ clampInteger (candidate.get "x") 0 (overviewGridColumns - w) 0 ∧ _ :=
    clampInteger_mem _ (by omega)
  have hy : 0 ≤ clampInteger (candidate.get "y") 0 (overviewGridMaxRows - h') 0 ∧ _ :=
    clampInteger_mem _ (by omega)
  cases h
  exact ⟨htype, huid, hmem, hw, hh, by dsimp only; omega, by dsimp only; omega⟩

theorem candidate_spec (h : s.candidate candidate = some widget) :
    widget.type ∉ s.widgetTypes ∧ normalizeText (candidate.get "uid") 160 = some widget.uid ∧
      widget.uid ∉ s.widgetIds ∧ InBounds widget := by
  rw [Placed.candidate] at h
  split_ifs at h with htypes
  obtain ⟨htype, hwidget⟩ := normalizeWidget_spec h
  exact ⟨by simpa [htype] using htypes, hwidget⟩

theorem InBounds.pos (h : InBounds widget) : 0 < widget.region.w ∧ 0 < widget.region.h := by
  have hdefinition := definition_bounds widget.type
  have hw := h.width
  have hh := h.height
  dsimp only [CustomDashboardWidget.region]
  omega

theorem InBounds.admissible (h : InBounds widget) : widget.region.Admissible := by
  obtain ⟨hminW, -, -, hmaxW, hminH, -, -, hmaxH⟩ := definition_bounds widget.type
  obtain ⟨hw, hh, -, -⟩ := h
  dsimp only [Region.Admissible, CustomDashboardWidget.region]
  omega

theorem Arranged.pos (h : Arranged P widgets) : ∀ o ∈ widgets.map (·.region), 0 < o.w ∧ 0 < o.h := by
  intro o ho
  obtain ⟨widget, hwidget, rfl⟩ := mem_map.1 ho
  exact (h.bounds widget hwidget).pos

theorem arranged_concat : Arranged P (widgets ++ [widget]) ↔ Arranged P widgets ∧
    widget.uid ∉ widgets.map (·.uid) ∧ widget.type ∉ widgets.map (·.type) ∧ P widget.uid ∧
      InBounds widget ∧ ∀ o ∈ widgets, overviewWidgetsOverlap widget.region o.region = false := by
  simp only [arranged_iff, map_append, map_cons, map_nil, nodup_append, pairwise_append,
    forall_mem_append, nodup_singleton, pairwise_singleton, mem_singleton]
  grind

/-- What the loop keeps. -/
structure Inv (P : JsString → Prop) (s : Placed) : Prop where
  occupancy : s.occupancy = createOverviewGridOccupancy (s.widgets.map (·.region))
  types : s.widgets.map (·.type) ⊆ s.widgetTypes
  uids : s.widgets.map (·.uid) ⊆ s.widgetIds
  arranged : Arranged P s.widgets

theorem Inv.empty : Inv P {} :=
  ⟨rfl, nil_subset _, nil_subset _, by simp [arranged_iff]⟩

theorem Inv.find_eq (hs : Inv P s) :
    s.find widget = findAvailableOverviewWidgetPosition widget.region (s.widgets.map (·.region)) := by
  rw [Placed.find, hs.occupancy]

theorem Inv.place (hs : Inv P s) (hwidget : InBounds widget) (hP : P widget.uid)
    (htype : widget.type ∉ s.widgetTypes) (huid : widget.uid ∉ s.widgets.map (·.uid))
    (hmem : widget.uid ∈ s.widgetIds) {p : Nat × Nat}
    (hfree : Free widget.region (s.widgets.map (·.region)) p) : Inv P (s.place widget p) := by
  obtain ⟨hcolumns, hrows, hapart⟩ := hfree
  simp only [CustomDashboardWidget.region] at hcolumns hrows
  refine ⟨?_, ?_, ?_, arranged_concat.2 ⟨hs.arranged, huid, fun h => htype (hs.types h), hP, ?_, ?_⟩⟩
  · simp [Placed.place, hs.occupancy, occupancy_concat]
  · simpa [Placed.place] using subset_cons_of_subset _ hs.types
  · simpa [Placed.place, hmem] using hs.uids
  · exact ⟨hwidget.width, hwidget.height, by dsimp only; omega, by dsimp only; omega⟩
  · intro o ho
    simpa [CustomDashboardWidget.region] using hapart o.region (mem_map_of_mem ho)

/-- What the body of the loop does. -/
theorem searchCandidate_cases (s : Placed) (candidate : JsValue) :
    s.candidate candidate = none ∧ searchCandidate s candidate = s ∨
    ∃ widget, s.candidate candidate = some widget ∧
      let placed := { s with widgetIds := widget.uid :: s.widgetIds }
      (placed.find widget = none ∧ searchCandidate s candidate = placed ∨
        ∃ p, placed.find widget = some p ∧ searchCandidate s candidate = placed.place widget p) := by
  unfold searchCandidate
  cases hcandidate : s.candidate candidate with
  | none => exact .inl ⟨rfl, rfl⟩
  | some widget =>
    refine .inr ⟨widget, rfl, ?_⟩
    dsimp only
    cases hfind : Placed.find _ widget with
    | none => exact .inl ⟨rfl, rfl⟩
    | some p => exact .inr ⟨p, rfl, rfl⟩

theorem Inv.search (hs : Inv P s)
    (hP : ∀ uid, normalizeText (candidate.get "uid") 160 = some uid → P uid) :
    Inv P (searchCandidate s candidate) := by
  obtain ⟨-, heq⟩ | ⟨widget, hcandidate, hcases⟩ := searchCandidate_cases s candidate
  · rwa [heq]
  · obtain ⟨htype, huid, hmem, hwidget⟩ := candidate_spec hcandidate
    have hplaced : Inv P { s with widgetIds := widget.uid :: s.widgetIds } :=
      { hs with uids := subset_cons_of_subset _ hs.uids }
    obtain ⟨-, heq⟩ | ⟨p, hfind, heq⟩ := hcases
    · rwa [heq]
    · rw [heq]
      rw [hplaced.find_eq] at hfind
      exact hplaced.place hwidget (hP _ huid) htype (fun h => hmem (hs.uids h)) mem_cons_self
        (nearest_of_find hs.arranged.pos hfind).1

/-- The sizes for which there is no place. -/
def Unplaceable (widgets : List CustomDashboardWidget) (size : Int × Int) : Prop :=
  ∀ p, ¬Free ⟨0, 0, size.1, size.2⟩ (widgets.map (·.region)) p

theorem Inv.find_eq_none_iff (hs : Inv P s) (hwidget : InBounds widget) :
    s.find widget = none ↔ Unplaceable s.widgets (widget.w, widget.h) := by
  rw [hs.find_eq, Overview.find_eq_none_iff hs.arranged.pos, not_and, not_exists]
  constructor
  · intro hnone p hfree
    exact hnone hwidget.admissible p ⟨hfree.columns, hfree.rows, hfree.apart⟩
  · rintro hfull - p hfree
    exact hfull p ⟨hfree.columns, hfree.rows, hfree.apart⟩

theorem Unplaceable.search {size : Int × Int} (h : Unplaceable s.widgets size) :
    Unplaceable (searchCandidate s candidate).widgets size := by
  have hsubset : s.widgets ⊆ (searchCandidate s candidate).widgets := by
    obtain ⟨-, heq⟩ | ⟨widget, -, ⟨-, heq⟩ | ⟨p, -, heq⟩⟩ := searchCandidate_cases s candidate
    all_goals rw [heq]
    · exact .refl _
    · exact .refl _
    · exact subset_append_left _ _
  intro p hfree
  exact h p ⟨hfree.columns, hfree.rows, fun o ho => hfree.apart o (map_subset _ hsubset ho)⟩

/-- A size that is remembered stays one for which there is no place. -/
theorem normalizeCandidate_eq (candidate : JsValue) (hs : Inv P s)
    (hu : ∀ size ∈ unplaceable, Unplaceable s.widgets size) :
    ∃ unplaceable',
      normalizeCandidate (s, unplaceable) candidate = (searchCandidate s candidate, unplaceable') ∧
      ∀ size ∈ unplaceable', Unplaceable (searchCandidate s candidate).widgets size := by
  have hkeep : ∀ size ∈ unplaceable, Unplaceable (searchCandidate s candidate).widgets size :=
    fun size hsize => (hu size hsize).search
  unfold normalizeCandidate
  obtain ⟨hcandidate, heq⟩ | ⟨widget, hcandidate, hcases⟩ := searchCandidate_cases s candidate
  · rw [hcandidate]
    exact ⟨unplaceable, by rw [heq], hkeep⟩
  · have hfull := Inv.find_eq_none_iff (s := { s with widgetIds := widget.uid :: s.widgetIds })
      { hs with uids := subset_cons_of_subset _ hs.uids } (candidate_spec hcandidate).2.2.2
    rw [hcandidate]
    dsimp only
    obtain ⟨hfind, heq⟩ | ⟨p, hfind, heq⟩ := hcases
    · rw [hfind, ← heq]
      split_ifs with hmem
      · exact ⟨_, rfl, hkeep⟩
      · exact ⟨_, rfl, forall_mem_cons.2 ⟨.search (s := s) (hfull.1 hfind), hkeep⟩⟩
    · have hmem : (widget.w, widget.h) ∉ unplaceable := by
        intro hmem
        simp [hfull.2 (hu _ hmem)] at hfind
      rw [if_neg hmem, hfind]
      exact ⟨_, by rw [heq], hkeep⟩

variable {candidates : List JsValue}

theorem inv_search
    (hP : ∀ candidate ∈ candidates, ∀ uid,
      normalizeText (candidate.get "uid") 160 = some uid → P uid) :
    Inv P (candidates.foldl searchCandidate {}) :=
  foldlRecOn candidates searchCandidate Inv.empty fun _ hs _ hmem => hs.search (hP _ hmem)

/-- The sizes that are remembered save searches only. -/
theorem normalizeCandidates_eq : normalizeCandidates = searchCandidates := by
  have hrun (candidates : List JsValue) : ∀ s unplaceable, Inv (fun _ => True) s →
      (∀ size ∈ unplaceable, Unplaceable s.widgets size) →
      (candidates.foldl normalizeCandidate (s, unplaceable)).1 =
        candidates.foldl searchCandidate s := by
    induction candidates with
    | nil => exact fun _ _ _ _ => rfl
    | cons candidate candidates ih =>
      intro s unplaceable hs hu
      obtain ⟨unplaceable', heq, hu'⟩ := normalizeCandidate_eq candidate hs hu
      rw [foldl_cons, foldl_cons, heq]
      exact ih _ _ (hs.search fun _ _ => trivial) hu'
  funext candidates
  rw [normalizeCandidates, hrun candidates {} [] Inv.empty (by simp), searchCandidates]

end

/-! ## Texts -/

section

variable {s t : JsString} {n : Nat} {value : Option JsValue}

/-- A text that was trimmed and cut. -/
structure Text (maxLength : Nat) (s : JsString) : Prop where
  ne_nil : s ≠ []
  length_le : s.length ≤ maxLength
  start : s.dropWhile isSpace = s

/-- The text does not end with white space. -/
def Clean (s : JsString) : Prop := s.rdropWhile isSpace = s

theorem normalizeText_text (h : normalizeText value n = some t) : Text n t := by
  unfold normalizeText at h
  split at h
  · next s =>
    split_ifs at h with hnil
    cases h
    have htake : (trim s).take n <+: trim s := take_prefix _ _
    have htrim : trim s <+: s.dropWhile isSpace := rdropWhile_prefix _ _
    exact ⟨hnil, length_take_le _ _, dropWhile_of_start (htake.trans htrim)⟩
  · cases h

/-- A text that is not too long is not cut. -/
theorem normalizeText_clean (hs : s.length ≤ n) (h : normalizeText (some (.string s)) n = some t) :
    Clean t := by
  have hlength : (trim s).length ≤ n :=
    have htrim : trim s <+: s.dropWhile isSpace := rdropWhile_prefix _ _
    (htrim.length_le.trans (dropWhile_suffix _).length_le).trans hs
  simp only [normalizeText, take_of_length_le hlength] at h
  split_ifs at h
  cases h
  exact rdropWhile_idempotent _ _

theorem normalizeText_self (hs : Text n s) (hclean : Clean s) :
    normalizeText (some (.string s)) n = some s := by
  have htrim : (trim s).take n = s := by
    rw [trim, hs.start, hclean, take_of_length_le hs.length_le]
  rw [normalizeText, htrim, if_neg hs.ne_nil]

theorem normalizeDate_idempotent (date : DateApi) :
    normalizeDate date (some (.string (normalizeDate date value))) = normalizeDate date value := by
  have hread {t : Int} (ht : t.natAbs ≤ date.maxTime) :
      normalizeDate date (some (.string (date.toISOString t))) = date.toISOString t := by
    simp [normalizeDate, date.parse_toISOString t ht]
  rw [normalizeDate.eq_def date value]
  split
  · cases hparse : date.parse _ with
    | none => exact hread (Nat.zero_le _)
    | some t => exact hread (date.le_maxTime _ t hparse)
  · exact hread (Nat.zero_le _)

end

/-! ## The dashboards -/

section

variable {date : DateApi} {value : JsValue} {dashboard : CustomOverviewDashboard}
  {dashboards : List CustomOverviewDashboard} {dashboardIds : List JsString}
  {widget : CustomDashboardWidget} {widgets : List CustomDashboardWidget}

/-- A dashboard that is read. -/
structure WellFormed (date : DateApi) (dashboard : CustomOverviewDashboard) : Prop where
  id : Text 120 dashboard.id
  name : Text 80 dashboard.name
  widgets : dashboard.widgets ≠ []
  arranged : Arranged (Text 160) dashboard.widgets
  createdAt : normalizeDate date (some (.string dashboard.createdAt)) = dashboard.createdAt
  updatedAt : normalizeDate date (some (.string dashboard.updatedAt)) = dashboard.updatedAt

theorem normalizeDashboard_eq_some
    (h : normalizeDashboard searchCandidates date value dashboardIds = some dashboard) :
    normalizeText (value.get "id") 120 = some dashboard.id ∧
      normalizeText (value.get "name") 80 = some dashboard.name ∧ dashboard.id ∉ dashboardIds ∧
      (∃ candidates, value.get "widgets" = some (.array candidates) ∧
        dashboard.widgets = searchCandidates candidates ∧ dashboard.widgets ≠ []) ∧
      dashboard.createdAt = normalizeDate date (value.get "createdAt") ∧
      dashboard.updatedAt = normalizeDate date (value.get "updatedAt") := by
  obtain ⟨id, hid, h⟩ := Option.bind_eq_some_iff.1 h
  obtain ⟨name, hname, h⟩ := Option.bind_eq_some_iff.1 h
  split_ifs at h with hmem
  split at h
  · next candidates hwidgets =>
    split_ifs at h with hnil
    cases h
    exact ⟨hid, hname, hmem, ⟨candidates, hwidgets, rfl, hnil⟩, rfl, rfl⟩
  · cases h

theorem normalizeDashboard_spec
    (h : normalizeDashboard searchCandidates date value dashboardIds = some dashboard) :
    WellFormed date dashboard ∧ dashboard.id ∉ dashboardIds := by
  obtain ⟨hid, hname, hmem, ⟨candidates, -, hwidgets, hnil⟩, hcreated, hupdated⟩ :=
    normalizeDashboard_eq_some h
  refine ⟨⟨normalizeText_text hid, normalizeText_text hname, hnil, ?_, ?_, ?_⟩, hmem⟩
  · rw [hwidgets]
    exact (inv_search fun _ _ _ => normalizeText_text).arranged
  · rw [hcreated, normalizeDate_idempotent]
  · rw [hupdated, normalizeDate_idempotent]

/-- Dashboards that have distinct ids and satisfy `Q`. -/
def Stored (Q : CustomOverviewDashboard → Prop) (dashboards : List CustomOverviewDashboard) : Prop :=
  (dashboards.map (·.id)).Nodup ∧ ∀ dashboard ∈ dashboards, Q dashboard

theorem normalizeDashboards_stored {Q : CustomOverviewDashboard → Prop} {candidates : List JsValue}
    (hQ : ∀ candidate ∈ candidates, ∀ dashboardIds dashboard,
      normalizeDashboard searchCandidates date candidate dashboardIds = some dashboard →
        Q dashboard) :
    Stored Q (normalizeDashboards searchCandidates date candidates) := by
  refine foldlRecOn candidates _ ⟨nodup_nil, by simp⟩
    fun ds hds candidate hmem => ?_
  cases hd : normalizeDashboard searchCandidates date candidate (ds.map (·.id)) with
  | none => simpa using hds
  | some d =>
    have hid := hds.1.concat (normalizeDashboard_spec hd).2
    rw [Option.toList_some, Stored, map_append, forall_mem_append]
    exact ⟨by simpa using hid, hds.2, by simpa using hQ candidate hmem _ d hd⟩

theorem normalizeStore_wellFormed :
    Stored (WellFormed date) (normalizeOverviewDashboardStore searchCandidates date value) := by
  have hnil : Stored (WellFormed date) [] := ⟨nodup_nil, by simp⟩
  unfold normalizeOverviewDashboardStore
  split
  · split_ifs
    · exact normalizeDashboards_stored fun _ _ _ _ h => (normalizeDashboard_spec h).1
    · exact hnil
  · exact hnil

/-- What is read is well formed, and the sizes that are remembered do not change it. -/
theorem normalized_spec (date : DateApi) (value : JsValue) :
    Stored (WellFormed date) (normalizeOverviewDashboardStore normalizeCandidates date value) ∧
      normalizeOverviewDashboardStore normalizeCandidates date value =
        normalizeOverviewDashboardStore searchCandidates date value := by
  rw [normalizeCandidates_eq]
  exact ⟨normalizeStore_wellFormed, rfl⟩

/-! ## Reading again -/

/-- The texts of a dashboard that were cut. -/
def CustomOverviewDashboard.texts (dashboard : CustomOverviewDashboard) : List JsString :=
  dashboard.id :: dashboard.name :: dashboard.widgets.map (·.uid)

theorem clampInteger_self {n lo hi fallback : Int} (hlo : lo ≤ n) (hhi : n ≤ hi) :
    clampInteger (some (.number (some n))) lo hi fallback = n := by
  have hround : ⌊(n : Rat) + 1 / 2⌋ = n := by
    rw [floor_intCast_add]
    norm_num
  rw [clampInteger, hround, max_eq_left hlo, min_eq_left hhi]

theorem overviewWidgetType?_text (type : OverviewWidgetType) :
    overviewWidgetType? (some (.string (units type.text))) = some type := by
  cases type <;> decide +kernel

theorem normalizeWidget_toJs {widgetIds : List JsString} (hbounds : InBounds widget)
    (htext : Text 160 widget.uid) (hclean : Clean widget.uid) (huid : widget.uid ∉ widgetIds) :
    normalizeWidget widget.toJs widgetIds = some widget := by
  have hmaxW : min (widgetDefinition widget.type).maxW overviewGridColumns = _ :=
    min_eq_left (definition_bounds widget.type).2.2.2.1
  obtain ⟨⟨hminW, hmaxW'⟩, ⟨hminH, hmaxH⟩, ⟨hx, hcolumns⟩, ⟨hy, hrows⟩⟩ := hbounds
  simp [normalizeWidget, JsValue.get, CustomDashboardWidget.toJs, lookup, overviewWidgetType?_text,
    normalizeText_self htext hclean, huid, hmaxW, clampInteger_self hminW hmaxW',
    clampInteger_self hminH hmaxH, clampInteger_self hx (le_sub_right_of_add_le hcolumns),
    clampInteger_self hy (le_sub_right_of_add_le hrows)]

/-- What the loop remembers of the widgets, if all candidates are placed. -/
def placedOf (widgets : List CustomDashboardWidget) : Placed where
  widgetIds := (widgets.map (·.uid)).reverse
  widgetTypes := (widgets.map (·.type)).reverse
  widgets := widgets
  occupancy := createOverviewGridOccupancy (widgets.map (·.region))

/-- A widget that is where it may be stays there. -/
theorem find_own (hpos : ∀ o ∈ widgets.map (·.region), 0 < o.w ∧ 0 < o.h) (hbounds : InBounds widget)
    (hapart : ∀ o ∈ widgets, overviewWidgetsOverlap widget.region o.region = false) :
    findAvailableOverviewWidgetPosition widget.region (widgets.map (·.region)) =
      some (widget.x.toNat, widget.y.toNat) := by
  obtain ⟨x, hx⟩ := eq_ofNat_of_zero_le hbounds.columns.1
  obtain ⟨y, hy⟩ := eq_ofNat_of_zero_le hbounds.rows.1
  have hcolumns : (x : Int) + widget.w ≤ overviewGridColumns := hx ▸ hbounds.columns.2
  have hrows : (y : Int) + widget.h ≤ overviewGridMaxRows := hy ▸ hbounds.rows.2
  have hregion : widget.region = ⟨x, y, widget.w, widget.h⟩ := by
    simp [CustomDashboardWidget.region, hx, hy]
  have hfree : Free widget.region (widgets.map (·.region)) (x, y) := by
    refine ⟨hcolumns, hrows, forall_mem_map.2 fun o ho => ?_⟩
    rw [← hapart o ho, hregion]
  have hrequestedX : widget.region.requestedX = x := by
    rw [hregion, Region.requestedX, max_eq_left (Nat.cast_nonneg _), min_eq_left (by linarith)]
  have hrequestedY : widget.region.requestedY = y := by
    rw [hregion, Region.requestedY, max_eq_left (Nat.cast_nonneg _), min_eq_left (by linarith)]
  rw [hx, hy]
  cases hfind : findAvailableOverviewWidgetPosition widget.region (widgets.map (·.region)) with
  | none => exact absurd ⟨hbounds.admissible, _, hfree⟩ ((find_eq_none_iff hpos).1 hfind)
  | some p =>
    obtain ⟨-, hnearest⟩ := nearest_of_find hpos hfind
    have hnear := hnearest _ hfree
    rw [hrequestedX, hrequestedY] at hnear
    simp only [sub_self, abs_zero, abs_nonpos_iff, sub_eq_zero, Nat.cast_inj] at hnear
    exact congrArg some (Prod.ext (hnear.2 hnear.1.symm) hnear.1)

theorem foldl_toJs (h : Arranged (fun uid => Text 160 uid ∧ Clean uid) widgets) :
    (widgets.map (·.toJs)).foldl searchCandidate {} = placedOf widgets := by
  induction widgets using reverseRecOn with
  | nil => rfl
  | append_singleton widgets widget ih =>
    obtain ⟨harranged, huid, htype, ⟨htext, hclean⟩, hbounds, hapart⟩ := arranged_concat.1 h
    have hcandidate : (placedOf widgets).candidate widget.toJs = some widget := by
      have hknown : overviewWidgetType? (widget.toJs.get "type") = some widget.type :=
        overviewWidgetType?_text widget.type
      rw [Placed.candidate, hknown,
        normalizeWidget_toJs hbounds htext hclean (by simpa [placedOf] using huid)]
      simpa [placedOf] using htype
    have hx := toNat_of_nonneg hbounds.columns.1
    have hy := toNat_of_nonneg hbounds.rows.1
    rw [map_append, foldl_append, ih harranged, map_cons, map_nil, foldl_cons, foldl_nil,
      searchCandidate, hcandidate]
    simp [Placed.find, placedOf, find_own harranged.pos hbounds hapart, Placed.place, hx, hy,
      occupancy_concat]

theorem normalizeDashboard_toJs (h : WellFormed date dashboard)
    (hclean : ∀ s ∈ dashboard.texts, Clean s) (hid : dashboard.id ∉ dashboardIds) :
    normalizeDashboard searchCandidates date dashboard.toJs dashboardIds = some dashboard := by
  have hwidgets : searchCandidates (dashboard.widgets.map (·.toJs)) = dashboard.widgets := by
    have harranged : Arranged (fun uid => Text 160 uid ∧ Clean uid) dashboard.widgets :=
      { h.arranged with
        texts := fun w hw => ⟨h.arranged.texts w hw,
          hclean _ (mem_cons_of_mem _ (mem_cons_of_mem _ (mem_map_of_mem hw)))⟩ }
    rw [searchCandidates, foldl_toJs harranged, placedOf]
  have hids := normalizeText_self h.id (hclean _ mem_cons_self)
  have hname := normalizeText_self h.name (hclean _ (mem_cons_of_mem _ mem_cons_self))
  simp [normalizeDashboard, JsValue.get, CustomOverviewDashboard.toJs, lookup, hids, hname, hid,
    hwidgets, h.widgets, h.createdAt, h.updatedAt]

theorem normalizeDashboards_toJs (h : Stored (WellFormed date) dashboards)
    (hclean : ∀ d ∈ dashboards, ∀ s ∈ d.texts, Clean s) :
    normalizeDashboards searchCandidates date (dashboards.map (·.toJs)) = dashboards := by
  induction dashboards using reverseRecOn with
  | nil => rfl
  | append_singleton dashboards dashboard ih =>
    rw [Stored, map_append, nodup_append, forall_mem_append] at h
    rw [forall_mem_append] at hclean
    have hid : dashboard.id ∉ dashboards.map (·.id) := fun hid => h.1.2.2 _ hid _ mem_cons_self rfl
    have hlast := normalizeDashboard_toJs (h.2.2 dashboard mem_cons_self)
      (hclean.2 dashboard mem_cons_self) hid
    have hbefore := ih ⟨h.1.1, h.2.1⟩ hclean.1
    rw [normalizeDashboards] at hbefore ⊢
    rw [map_append, foldl_append, hbefore, map_cons, map_nil, foldl_cons, foldl_nil, hlast]
    rfl

/-- What is read again was cut before. -/
theorem clean_of_reread (h : ∀ d ∈ dashboards, WellFormed date d) :
    Stored (fun d => ∀ s ∈ d.texts, Clean s)
      (normalizeDashboards searchCandidates date (dashboards.map (·.toJs))) := by
  refine normalizeDashboards_stored fun candidate hcandidate _ d' hd' => ?_
  obtain ⟨d, hd, rfl⟩ := mem_map.1 hcandidate
  obtain ⟨hid, hname, -, ⟨candidates, hcandidates, hwidgets, -⟩, -, -⟩ :=
    normalizeDashboard_eq_some hd'
  cases hcandidates.symm.trans (rfl : _ = some (JsValue.array (d.widgets.map (·.toJs))))
  have hclean : Inv Clean ((d.widgets.map (·.toJs)).foldl searchCandidate {}) := by
    refine inv_search fun candidate hcandidate uid huid => ?_
    obtain ⟨w, hw, rfl⟩ := mem_map.1 hcandidate
    exact normalizeText_clean ((h d hd).arranged.texts w hw).length_le huid
  rw [CustomOverviewDashboard.texts, forall_mem_cons, forall_mem_cons, forall_mem_map, hwidgets]
  exact ⟨normalizeText_clean (h d hd).id.length_le hid,
    normalizeText_clean (h d hd).name.length_le hname, hclean.arranged.texts⟩

theorem activeDashboardId_idempotent (storedActive : Option JsString) :
    activeDashboardId dashboards (some (activeDashboardId dashboards storedActive)) =
      activeDashboardId dashboards storedActive := by
  unfold activeDashboardId
  cases hfilter : storedActive.filter _ with
  | none => cases h : Option.filter _ _ <;> simp_all
  | some id =>
    rw [Option.getD_some, Option.filter_some, if_pos (Option.filter_eq_some_iff.1 hfilter).2]
    rfl

/-- Reading again gives the same state iff no text of it ends with white space. A text that
    was cut may: it is trimmed before. -/
theorem reread_iff (date : DateApi) (stored : Option JsValue) (storedActive : Option JsString) :
    let state := readOverviewLayoutState date stored storedActive
    reread date state = state ↔ ∀ d ∈ state.dashboards, ∀ s ∈ d.texts, Clean s := by
  intro state
  have hstored : Stored (WellFormed date) state.dashboards := by
    cases stored with
    | none => exact ⟨nodup_nil, by simp [state, readOverviewLayoutState]⟩
    | some value =>
      simp only [state, readOverviewLayoutState, normalizeCandidates_eq]
      exact normalizeStore_wellFormed
  have hreread : reread date state =
      let dashboards := normalizeDashboards searchCandidates date (state.dashboards.map (·.toJs))
      ⟨dashboards, activeDashboardId dashboards (some state.activeDashboardId)⟩ := by
    rw [← normalizeCandidates_eq]
    simp [reread, writeOverviewLayoutState, readOverviewLayoutState, normalizeOverviewDashboardStore,
      JsValue.get, lookup]
  constructor
  · intro heq
    rw [← heq, hreread]
    exact (clean_of_reread hstored.2).2
  · intro hclean
    rw [hreread, normalizeDashboards_toJs hstored hclean]
    exact congrArg (StoredOverviewLayoutState.mk _) (activeDashboardId_idempotent _)

/-- The name is cut after the space, and the space is gone when it is read again. -/
theorem reread_cut :
    let date : DateApi := {
      maxTime := 0
      parse := fun _ => some 0
      toISOString := fun _ => units "1970-01-01T00:00:00.000Z"
      le_maxTime := by simp
      parse_toISOString := by simp }
    let name := List.replicate 79 97 ++ [32, 98]
    let dashboard : JsValue := .object [("id", .string (units "d")), ("name", .string name),
      ("widgets", .array
        [.object [("uid", .string (units "u")), ("type", .string (units "edr-state"))]])]
    let stored : JsValue :=
      .object [("version", .number (some 1)), ("dashboards", .array [dashboard])]
    let state := readOverviewLayoutState date (some stored) none
    state.dashboards.map (·.name) = [name.take 80] ∧
      (reread date state).dashboards.map (·.name) = [name.take 79] ∧ reread date state ≠ state := by
  decide +kernel

end

end Edr.Overview
