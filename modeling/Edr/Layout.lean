import Mathlib

/-!
# Dashboard layouts

The layout of a user's overview dashboard: a list of widgets on a grid of twelve columns, as
`DashboardLayoutService` validates, stores and reads it. What is stored is JSON, which is merged with
the registry of the widgets when it is read, so that each widget of the registry has a place; the
visible ones are then packed to the top of the grid.
-/

namespace Edr.Layout

/-- A value that is stored as JSON. The numbers are integers or finite floats. -/
inductive Json
  | null
  | bool (b : Bool)
  | int (n : Int)
  | float (q : Rat)
  | str (s : String)
  | arr (values : List Json)
  | obj (fields : List (String × Json))

/-- `DashboardWidgetSpec`. -/
structure WidgetSpec where
  id : String
  x : Nat
  y : Nat
  w : Nat
  h : Nat
  minW : Nat
  minH : Nat
  maxW : Nat
  maxH : Nat
  hideable : Bool := true

/-- `DashboardWidgetLayoutDto`. -/
structure Widget where
  id : String
  x : Nat
  y : Nat
  w : Nat
  h : Nat
  hidden : Bool

/-- `ApplicationError`, with the fields and the messages of its details. -/
structure ApplicationError where
  statusCode : Nat
  code : String
  message : String
  details : List (String × String) := []

def dashboardKeyOverview : String := "overview"

def dashboardLayoutVersion : Nat := 2

def supportedDashboardLayoutVersions : List Nat := [1, 2]

def desktopColumns : Nat := 12

def maxLayoutRows : Nat := 256

def overviewWidgetSpecsV1 : List WidgetSpec := [
  ⟨"edr-state", 0, 0, 12, 2, 6, 2, 12, 4, true⟩,
  ⟨"kpi-events", 0, 2, 2, 2, 1, 2, 4, 3, true⟩,
  ⟨"kpi-alerts", 2, 2, 2, 2, 1, 2, 4, 3, true⟩,
  ⟨"kpi-open-incidents", 4, 2, 2, 2, 1, 2, 4, 3, true⟩,
  ⟨"kpi-online-endpoints", 6, 2, 2, 2, 1, 2, 4, 3, true⟩,
  ⟨"kpi-event-failures", 8, 2, 2, 2, 1, 2, 4, 3, true⟩,
  ⟨"kpi-storage-buckets", 10, 2, 2, 2, 1, 2, 4, 3, true⟩,
  ⟨"alert-severity", 0, 4, 4, 5, 3, 4, 6, 7, true⟩,
  ⟨"event-volume", 4, 4, 8, 5, 6, 4, 12, 8, true⟩,
  ⟨"alert-volume", 0, 9, 6, 5, 6, 4, 12, 8, true⟩,
  ⟨"incident-activity", 6, 9, 6, 5, 6, 4, 12, 8, true⟩,
  ⟨"endpoint-risk", 0, 14, 4, 5, 3, 4, 6, 8, true⟩,
  ⟨"highest-risk-endpoints", 4, 14, 4, 5, 4, 4, 8, 8, true⟩,
  ⟨"incident-queue", 8, 14, 4, 5, 4, 4, 8, 8, true⟩,
  ⟨"response-guidance", 0, 19, 12, 5, 6, 4, 12, 9, true⟩,
  ⟨"endpoint-operating-systems", 0, 24, 4, 4, 3, 4, 6, 7, true⟩,
  ⟨"sensor-health", 4, 24, 4, 4, 3, 4, 6, 7, true⟩,
  ⟨"top-rules", 8, 24, 4, 4, 3, 4, 6, 7, true⟩,
  ⟨"mitre-distribution", 0, 28, 6, 5, 4, 4, 8, 8, true⟩,
  ⟨"process-network-signals", 6, 28, 6, 5, 4, 4, 8, 8, true⟩,
  ⟨"file-dns-l7-signals", 0, 33, 6, 5, 4, 4, 8, 8, true⟩,
  ⟨"failure-distribution", 6, 33, 6, 5, 4, 4, 8, 8, true⟩,
  ⟨"storage-distribution", 0, 38, 6, 5, 4, 4, 8, 8, true⟩]

def overviewWidgetSpecsV2 : List WidgetSpec := [
  ⟨"edr-state", 0, 0, 12, 2, 6, 2, 12, 4, true⟩,
  ⟨"kpi-alerts", 0, 2, 3, 2, 1, 2, 4, 3, true⟩,
  ⟨"kpi-open-incidents", 3, 2, 3, 2, 1, 2, 4, 3, true⟩,
  ⟨"kpi-high-risk-endpoints", 6, 2, 3, 2, 1, 2, 4, 3, true⟩,
  ⟨"kpi-event-failures", 9, 2, 3, 2, 1, 2, 4, 3, true⟩,
  ⟨"detection-activity", 0, 4, 8, 5, 6, 4, 12, 8, true⟩,
  ⟨"alert-severity", 8, 4, 4, 5, 3, 4, 6, 7, true⟩,
  ⟨"endpoint-risk", 0, 9, 4, 5, 3, 4, 6, 8, true⟩,
  ⟨"highest-risk-endpoints", 4, 9, 8, 5, 4, 4, 8, 8, true⟩,
  ⟨"incident-queue", 0, 14, 12, 5, 6, 4, 12, 8, true⟩]

def invalidLayout (field message : String) : ApplicationError :=
  ⟨400, "INVALID_DASHBOARD_LAYOUT", "The dashboard layout is invalid.", [(field, message)]⟩

/-- The answer to an exception that no handler takes, such as `KeyError`. -/
def internalServerError : ApplicationError := ⟨500, "", "Internal Server Error", []⟩

def overviewWidgetSpecs : Nat → Except ApplicationError (List WidgetSpec)
  | 1 => .ok overviewWidgetSpecsV1
  | 2 => .ok overviewWidgetSpecsV2
  | _ => .error (invalidLayout "layoutVersion" "Unsupported dashboard layout version.")

def WidgetSpec.widget (spec : WidgetSpec) : Widget :=
  ⟨spec.id, spec.x, spec.y, spec.w, spec.h, false⟩

def defaultOverviewWidgets (layoutVersion : Nat) : Except ApplicationError (List Widget) :=
  return (← overviewWidgetSpecs layoutVersion).map (·.widget)

/-! ## Merging -/

/-- `raw.get(key)`. -/
def getField (fields : List (String × Json)) (key : String) : Option Json := fields.lookup key

/-- `_bounded_int`. Python cuts a float off towards 0. -/
def boundedInt (value : Option Json) (default minimum maximum : Nat) : Nat :=
  match value with
  | some (.int n) => (max (minimum : Int) (min n maximum)).toNat
  | some (.float q) => (max (minimum : Int) (min (q.num.tdiv q.den) maximum)).toNat
  | _ => default

def coerceWidget (raw : List (String × Json)) (spec : WidgetSpec) : Widget :=
  let w := boundedInt (getField raw "w") spec.w spec.minW (min spec.maxW desktopColumns)
  let h := boundedInt (getField raw "h") spec.h spec.minH spec.maxH
  { id := spec.id
    x := boundedInt (getField raw "x") spec.x 0 (desktopColumns - w)
    y := boundedInt (getField raw "y") spec.y 0 (maxLayoutRows - h)
    w
    h
    hidden := spec.hideable && match getField raw "hidden" with
      | some (.bool b) => b
      | _ => false }

def collides (first second : Widget) : Bool :=
  !(decide (first.x + first.w ≤ second.x) || decide (second.x + second.w ≤ first.x) ||
    decide (first.y + first.h ≤ second.y) || decide (second.y + second.h ≤ first.y))

/-- The row after the last one of the widgets. -/
def bottom (placed : List Widget) : Nat := (placed.map fun o => o.y + o.h).foldr max 0

/-- The loop that moves a widget down, for `n` rows at most. -/
def moveDown (placed : List Widget) : Nat → Widget → Widget
  | 0, candidate => candidate
  | n + 1, candidate =>
    if placed.any (collides candidate) then moveDown placed n { candidate with y := candidate.y + 1 }
    else candidate

/-- The widget at the first row where it does not collide with those that are placed. -/
def place (placed : List Widget) (widget : Widget) : Widget :=
  moveDown placed (bottom placed) { widget with y := 0 }

section

open List

variable {placed : List Widget} {widget o : Widget}

theorem le_bottom (ho : o ∈ placed) : o.y + o.h ≤ bottom placed := by
  induction placed with
  | nil => cases ho
  | cons p placed ih =>
    rcases mem_cons.1 ho with rfl | ho
    · exact Nat.le_max_left _ _
    · exact (ih ho).trans (Nat.le_max_right _ _)

theorem not_collides_moveDown {n : Nat} (h : bottom placed ≤ widget.y + n) :
    placed.any (collides (moveDown placed n widget)) = false := by
  induction n generalizing widget with
  | zero =>
    refine any_eq_false.2 fun o ho => ?_
    have hle : o.y + o.h ≤ widget.y := (le_bottom ho).trans h
    simp [moveDown, collides, hle]
  | succ n ih =>
    rw [moveDown]
    split_ifs with hcollides
    · exact ih (by rwa [Nat.add_assoc, Nat.add_comm 1])
    · exact eq_false_of_ne_true hcollides

/-- The loop has ended when it is below all the widgets. -/
theorem not_collides_place : placed.any (collides (place placed widget)) = false :=
  not_collides_moveDown (Nat.zero_add _).symm.le

end

/-- `registry_order[widget_id]`, which raises `KeyError` for a widget outside of the registry. -/
def registryOrder (specs : List WidgetSpec) (id : String) : Option Nat :=
  specs.findIdx? fun spec => decide (spec.id = id)

/-- The key by which the visible widgets are sorted. -/
abbrev SortKey := Nat ×ₗ Nat ×ₗ Nat

def sortKey (specs : List WidgetSpec) (widget : Widget) : Option SortKey :=
  (registryOrder specs widget.id).map fun order => toLex (widget.y, toLex (widget.x, order))

/-- `_pack_widgets`. There is no result where it raises `KeyError`. -/
def packWidgets (specs : List WidgetSpec) (widgets : List Widget) : Option (List Widget) := do
  let keyed ← (widgets.filter fun w => !w.hidden).mapM fun w =>
    (sortKey specs w).map fun key => (key, w)
  let visible := (keyed.insertionSort fun a b => a.1 ≤ b.1).map Prod.snd
  let placed := visible.foldl (fun placed w => placed ++ [place placed w]) []
  return widgets.map fun w => (placed.reverse.find? fun p => decide (p.id = w.id)).getD w

/-- One iteration of the loop of `merge_stored_overview_layout`: the ids that were seen, and the
    widgets that were accepted. -/
def mergeRaw (specs : List WidgetSpec) (acc : List String × List Widget) (raw : Json) :
    List String × List Widget :=
  match raw with
  | .obj fields =>
    match getField fields "id" with
    | some (.str widgetId) =>
      if widgetId ∈ acc.1 then acc
      else match specs.find? fun spec => decide (spec.id = widgetId) with
        | some spec => (acc.1 ++ [widgetId], acc.2 ++ [coerceWidget fields spec])
        | none => acc
    | _ => acc
  | _ => acc

def mergeStoredOverviewLayout (value : Json) (layoutVersion : Nat) :
    Except ApplicationError (List Widget × Bool) := do
  let specs ← overviewWidgetSpecs layoutVersion
  match value with
  | .arr raws =>
    let (seen, merged) := raws.foldl (mergeRaw specs) ([], [])
    let missing := (specs.filter fun spec => decide (spec.id ∉ seen)).map (·.widget)
    if merged.isEmpty then return (← defaultOverviewWidgets layoutVersion, false)
    else match packWidgets specs (merged ++ missing) with
      | some widgets => return (widgets, true)
      | none => throw internalServerError
  | _ => return (← defaultOverviewWidgets layoutVersion, false)

def Widget.modelDump (widget : Widget) : Json :=
  .obj [("id", .str widget.id), ("x", .int widget.x), ("y", .int widget.y), ("w", .int widget.w),
    ("h", .int widget.h), ("hidden", .bool widget.hidden)]

/-! ## Validation -/

/-- `DashboardLayoutPutRequest`, without its revision. -/
structure PutBody where
  layoutVersion : Nat
  widgets : List Widget

/-- One iteration of the first loop of `validate_overview_layout`, with the ids that were seen. -/
def validateWidget (specs : List WidgetSpec) (seen : List String) (widget : Widget) :
    Except ApplicationError (List String) :=
  let id := widget.id
  if id ∈ seen then .error (invalidLayout "widgets" s!"Duplicate widget id: {id}.")
  else match specs.find? fun spec => decide (spec.id = id) with
    | none => .error (invalidLayout "widgets" s!"Unknown widget id: {id}.")
    | some spec =>
      if widget.w < spec.minW ∨ widget.w > spec.maxW ∨ widget.h < spec.minH ∨
          widget.h > spec.maxH then
        .error (invalidLayout "widgets" s!"Widget {id} violates its size constraints.")
      else if widget.x + widget.w > desktopColumns then
        .error (invalidLayout "widgets" s!"Widget {id} exceeds the 12-column grid.")
      else if widget.y + widget.h > maxLayoutRows then
        .error (invalidLayout "widgets" s!"Widget {id} exceeds the maximum dashboard rows.")
      else if widget.hidden && !spec.hideable then
        .error (invalidLayout "widgets" s!"Widget {id} cannot be hidden.")
      else .ok (seen ++ [id])

/-- One iteration of the second loop of `validate_overview_layout`, after some visible widgets. -/
def validatePlace (before : List Widget) (widget : Widget) :
    Except ApplicationError (List Widget) :=
  let id := widget.id
  if before.any (collides widget) then
    .error (invalidLayout "widgets" s!"Widget {id} overlaps another widget.")
  else .ok (before ++ [widget])

def validateOverviewLayout (body : PutBody) : Except ApplicationError (List Widget) := do
  if body.layoutVersion ∉ supportedDashboardLayoutVersions then
    throw (invalidLayout "layoutVersion" "Unsupported dashboard layout version.")
  if body.widgets.isEmpty then
    throw (invalidLayout "widgets" "The complete dashboard layout is required.")
  let specs ← overviewWidgetSpecs body.layoutVersion
  let _ ← body.widgets.foldlM (validateWidget specs) []
  let _ ← (body.widgets.filter fun w => !w.hidden).foldlM validatePlace []
  let (widgets, _) ← mergeStoredOverviewLayout (.arr (body.widgets.map (·.modelDump)))
    body.layoutVersion
  return widgets

end Edr.Layout
