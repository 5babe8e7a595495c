import Mathlib

/-!
# The grid of the overview

The widgets of a dashboard that a user has made in the browser lie on a grid of twelve columns. A new
widget is placed as near to where it is wanted as the others allow. What is free is looked up in an
array of the cells of the grid, and not by comparing the widgets with each other.
-/

namespace Edr.Overview

open List Function Nat

/-! ## The code -/

def overviewGridColumns : Nat := 12

def overviewGridMaxRows : Nat := 256

/-- The place and the size of a widget, in whole columns and rows. -/
structure Region where
  x : Int
  y : Int
  w : Int
  h : Int

def overviewWidgetsOverlap (left right : Region) : Bool :=
  decide (left.x < right.x + right.w) && decide (left.x + left.w > right.x) &&
    decide (left.y < right.y + right.h) && decide (left.y + left.h > right.y)

/-- The cells that two nested loops go through. -/
def cells (left top right bottom : Int) : List (Nat × Nat) :=
  (range' top.toNat (bottom - top).toNat).flatMap fun y =>
    (range' left.toNat (right - left).toNat).map fun x => (x, y)

/-- The index of a cell in the array. -/
def cellIndex (cell : Nat × Nat) : Nat := cell.2 * overviewGridColumns + cell.1

/-- The cells of the grid that a widget covers: `floor` and `ceil` leave whole numbers as they are. -/
def Region.cells (widget : Region) : List (Nat × Nat) :=
  Overview.cells (max 0 widget.x) (max 0 widget.y)
    (min overviewGridColumns (widget.x + widget.w)) (min overviewGridMaxRows (widget.y + widget.h))

/-- Marks the cells of a widget, where the array says of an index whether it is set. -/
def occupyOverviewGridRegion (occupancy : Nat → Bool) (widget : Region) : Nat → Bool :=
  widget.cells.foldl (fun occupancy cell => update occupancy (cellIndex cell) true) occupancy

def createOverviewGridOccupancy (widgets : List Region) : Nat → Bool :=
  widgets.foldl occupyOverviewGridRegion fun _ => false

def overviewGridRegionAvailable (occupancy : Nat → Bool) (x y w h : Nat) : Bool :=
  (cells x y (x + w) (y + h)).all fun cell => !occupancy (cellIndex cell)

def Region.requestedX (widget : Region) : Int := min (max widget.x 0) (overviewGridColumns - widget.w)

def Region.requestedY (widget : Region) : Int := min (max widget.y 0) (overviewGridMaxRows - widget.h)

/-- The size is one for which a place is looked for. -/
def Region.Admissible (widget : Region) : Prop :=
  1 ≤ widget.w ∧ 1 ≤ widget.h ∧ widget.w ≤ overviewGridColumns ∧ widget.h ≤ overviewGridMaxRows

instance (widget : Region) : Decidable widget.Admissible := inferInstanceAs (Decidable (_ ∧ _))

/-- The numbers up to `last`, the nearest ones first. -/
def candidates (last : Nat) (requested : Int) : List Nat :=
  (range (last + 1)).insertionSort fun a b => |(a : Int) - requested| ≤ |(b : Int) - requested|

def findAvailableOverviewWidgetPosition (widget : Region) (widgets : List Region)
    (occupancy : Nat → Bool := createOverviewGridOccupancy widgets) : Option (Nat × Nat) :=
  if widget.Admissible then
    let w := widget.w.toNat
    let h := widget.h.toNat
    (candidates (overviewGridMaxRows - h) widget.requestedY).findSome? fun y =>
      (candidates (overviewGridColumns - w) widget.requestedX).findSome? fun x =>
        if overviewGridRegionAvailable occupancy x y w h then some (x, y) else none
  else none

/-! ## The array of the cells -/

section

variable {left top right bottom : Int} {x y w h : Nat} {widget o : Region} {widgets : List Region}
  {occupancy : Nat → Bool} {i : Nat}

theorem mem_cells (hleft : 0 ≤ left) (htop : 0 ≤ top) : (x, y) ∈ cells left top right bottom ↔
    left ≤ x ∧ (x : Int) < right ∧ top ≤ y ∧ (y : Int) < bottom := by
  simp only [cells, mem_flatMap, mem_map, mem_range'_1, Prod.mk.injEq]
  constructor
  · rintro ⟨y', hy, x', hx, rfl, rfl⟩
    omega
  · intro hcell
    exact ⟨y, by omega, x, by omega, rfl, rfl⟩

theorem mem_regionCells : (x, y) ∈ o.cells ↔ x < overviewGridColumns ∧ y < overviewGridMaxRows ∧
    o.x ≤ x ∧ x < o.x + o.w ∧ o.y ≤ y ∧ y < o.y + o.h := by
  rw [Region.cells, mem_cells (le_max_left _ _) (le_max_left _ _)]
  omega

theorem foldl_update {cells : List (Nat × Nat)} :
    cells.foldl (fun occupancy cell => update occupancy (cellIndex cell) true) occupancy i =
      true ↔ occupancy i = true ∨ ∃ cell ∈ cells, cellIndex cell = i := by
  induction cells generalizing occupancy with
  | nil => simp
  | cons cell cells ih =>
    rw [foldl_cons, ih, exists_mem_cons_iff, ← or_assoc, update_apply]
    grind

theorem foldl_occupy : widgets.foldl occupyOverviewGridRegion occupancy i = true ↔
    occupancy i = true ∨ ∃ o ∈ widgets, ∃ cell ∈ o.cells, cellIndex cell = i := by
  induction widgets generalizing occupancy with
  | nil => simp
  | cons o widgets ih =>
    rw [foldl_cons, ih, exists_mem_cons_iff, ← or_assoc, occupyOverviewGridRegion, foldl_update]

theorem occupancy_concat : createOverviewGridOccupancy (widgets ++ [o]) =
    occupyOverviewGridRegion (createOverviewGridOccupancy widgets) o := by
  rw [createOverviewGridOccupancy, foldl_append]
  rfl

theorem cellIndex_inj {cell cell' : Nat × Nat} (h : cell.1 < overviewGridColumns)
    (h' : cell'.1 < overviewGridColumns) (heq : cellIndex cell = cellIndex cell') : cell = cell' := by
  simp only [cellIndex, overviewGridColumns] at *
  ext <;> omega

/-- Two intervals meet if and only if they have a number in common. -/
theorem exists_common {left length : Int} (hw : 0 < w) (hlength : 0 < length) :
    (x : Int) < left + length ∧ left < x + w ↔
      ∃ a, x ≤ a ∧ a < x + w ∧ left ≤ a ∧ (a : Int) < left + length := by
  constructor
  · rintro ⟨hright, hleft⟩
    exact ⟨max x left.toNat, by omega, by omega, by omega, by omega⟩
  · rintro ⟨a, hxa, haw, hleft, hright⟩
    omega

variable (hw : 0 < w) (hh : 0 < h) (hx : x + w ≤ overviewGridColumns)
  (hy : y + h ≤ overviewGridMaxRows)

include hw hh hx hy

theorem overlap_iff (hpos : 0 < o.w ∧ 0 < o.h) : overviewWidgetsOverlap ⟨x, y, w, h⟩ o = true ↔
    ∃ cell ∈ cells x y (x + w) (y + h), cell ∈ o.cells := by
  have hoverlap : overviewWidgetsOverlap ⟨x, y, w, h⟩ o = true ↔
      ((x : Int) < o.x + o.w ∧ o.x < x + w) ∧ (y : Int) < o.y + o.h ∧ o.y < y + h := by
    simp [overviewWidgetsOverlap, and_assoc]
  rw [hoverlap, exists_common hw hpos.1, exists_common hh hpos.2]
  constructor
  · rintro ⟨⟨a, ha⟩, b, hb⟩
    refine ⟨(a, b), (mem_cells (by omega) (by omega)).2 (by omega), mem_regionCells.2 ?_⟩
    exact ⟨by omega, by omega, ha.2.2.1, ha.2.2.2, hb.2.2⟩
  · rintro ⟨⟨a, b⟩, hcell, hregion⟩
    have hcell := (mem_cells (by omega) (by omega)).1 hcell
    obtain ⟨-, -, hxl, hxr, hyl, hyr⟩ := mem_regionCells.1 hregion
    exact ⟨⟨a, by omega, by omega, hxl, hxr⟩, b, by omega, by omega, hyl, hyr⟩

theorem regionAvailable_iff (hpos : ∀ o ∈ widgets, 0 < o.w ∧ 0 < o.h) :
    overviewGridRegionAvailable (createOverviewGridOccupancy widgets) x y w h = true ↔
      ∀ o ∈ widgets, overviewWidgetsOverlap ⟨x, y, w, h⟩ o = false := by
  simp only [overviewGridRegionAvailable, all_eq_true, Bool.not_eq_true', ← Bool.not_eq_true,
    createOverviewGridOccupancy, foldl_occupy, Bool.false_eq_true, false_or]
  constructor
  · intro hfree o ho hoverlap
    obtain ⟨cell, hcell, hregion⟩ := (overlap_iff hw hh hx hy (hpos o ho)).1 hoverlap
    exact hfree cell hcell ⟨o, ho, cell, hregion, rfl⟩
  · rintro hapart cell hcell ⟨o, ho, cell', hcell', heq⟩
    have hregion := (mem_cells (by omega) (by omega)).1 hcell
    cases cellIndex_inj (mem_regionCells.1 hcell').1 (by omega) heq
    exact hapart o ho ((overlap_iff hw hh hx hy (hpos o ho)).2 ⟨_, hcell, hcell'⟩)

end

/-! ## The search -/

section

variable {last : Nat} {requested : Int} {widget : Region} {widgets : List Region}

theorem mem_candidates {a : Nat} : a ∈ candidates last requested ↔ a ≤ last := by
  rw [candidates, (perm_insertionSort _ _).mem_iff, mem_range, Nat.lt_succ_iff]

theorem nearest_of_findSome? {β : Type*} {f : Nat → Option β} {b : β}
    (h : (candidates last requested).findSome? f = some b) :
    ∃ a ≤ last, f a = some b ∧
      ∀ a' ≤ last, f a' ≠ none → |(a : Int) - requested| ≤ |(a' : Int) - requested| := by
  have hsorted := pairwise_insertionSort
    (fun a b : Nat => |(a : Int) - requested| ≤ |(b : Int) - requested|) (range (last + 1))
  obtain ⟨before, a, after, heq, ha, hbefore⟩ := findSome?_eq_some_iff.1 h
  rw [← candidates, heq] at hsorted
  refine ⟨a, mem_candidates.1 (heq ▸ mem_append_right _ mem_cons_self), ha, fun a' ha' hf => ?_⟩
  rcases mem_append.1 (heq ▸ mem_candidates.2 ha') with hmem | hmem
  · exact absurd (hbefore a' hmem) hf
  · rcases mem_cons.1 hmem with rfl | hmem
    · exact le_rfl
    · exact rel_of_pairwise_cons (pairwise_append.1 hsorted).2.1 hmem

theorem Region.Admissible.exists_nat (h : widget.Admissible) : ∃ w h : Nat,
    widget.w = w ∧ widget.h = h ∧ 0 < w ∧ 0 < h ∧ w ≤ overviewGridColumns ∧
      h ≤ overviewGridMaxRows := by
  obtain ⟨hw1, hh1, hwmax, hhmax⟩ := h
  exact ⟨widget.w.toNat, widget.h.toNat, by omega, by omega, by omega, by omega, by omega, by omega⟩

/-- A position in the grid where a widget of the size overlaps no other. -/
structure Free (widget : Region) (widgets : List Region) (p : Nat × Nat) : Prop where
  columns : p.1 + widget.w ≤ overviewGridColumns
  rows : p.2 + widget.h ≤ overviewGridMaxRows
  apart : ∀ o ∈ widgets, overviewWidgetsOverlap ⟨p.1, p.2, widget.w, widget.h⟩ o = false

theorem free_iff {x y w h : Nat} (hw : widget.w = w) (hh : widget.h = h) (hw0 : 0 < w) (hh0 : 0 < h)
    (hwmax : w ≤ overviewGridColumns) (hhmax : h ≤ overviewGridMaxRows)
    (hpos : ∀ o ∈ widgets, 0 < o.w ∧ 0 < o.h) :
    Free widget widgets (x, y) ↔ y ≤ overviewGridMaxRows - h ∧ x ≤ overviewGridColumns - w ∧
      overviewGridRegionAvailable (createOverviewGridOccupancy widgets) x y w h = true := by
  have hcolumns : (x : Int) + w ≤ overviewGridColumns ↔ x ≤ overviewGridColumns - w := by omega
  have hrows : (y : Int) + h ≤ overviewGridMaxRows ↔ y ≤ overviewGridMaxRows - h := by omega
  constructor
  · rintro ⟨hx, hy, hapart⟩
    rw [hw, hcolumns] at hx
    rw [hh, hrows] at hy
    exact ⟨hy, hx, (regionAvailable_iff hw0 hh0 (by omega) (by omega) hpos).2 (hw ▸ hh ▸ hapart)⟩
  · rintro ⟨hy, hx, havailable⟩
    refine ⟨by rwa [hw, hcolumns], by rwa [hh, hrows], ?_⟩
    rw [hw, hh]
    exact (regionAvailable_iff hw0 hh0 (by omega) (by omega) hpos).1 havailable

theorem find_eq_none_iff (hpos : ∀ o ∈ widgets, 0 < o.w ∧ 0 < o.h) :
    findAvailableOverviewWidgetPosition widget widgets = none ↔
      ¬(widget.Admissible ∧ ∃ p, Free widget widgets p) := by
  rw [findAvailableOverviewWidgetPosition]
  split_ifs with hadmissible
  · obtain ⟨w, h, hw, hh, hw0, hh0, hwmax, hhmax⟩ := hadmissible.exists_nat
    simp only [hw, hh, Int.toNat_natCast, findSome?_eq_none_iff, mem_candidates,
      Prod.exists, free_iff hw hh hw0 hh0 hwmax hhmax hpos, hadmissible, true_and]
    grind
  · simp [hadmissible]

/-- The place that is found is the nearest one. -/
theorem nearest_of_find (hpos : ∀ o ∈ widgets, 0 < o.w ∧ 0 < o.h) {p : Nat × Nat}
    (hp : findAvailableOverviewWidgetPosition widget widgets = some p) :
    Free widget widgets p ∧
      ∀ q, Free widget widgets q → |p.2 - widget.requestedY| ≤ |q.2 - widget.requestedY| ∧
        (q.2 = p.2 → |p.1 - widget.requestedX| ≤ |q.1 - widget.requestedX|) := by
  rw [findAvailableOverviewWidgetPosition] at hp
  split_ifs at hp with hadmissible
  obtain ⟨w, h, hw, hh, hw0, hh0, hwmax, hhmax⟩ := hadmissible.exists_nat
  simp only [hw, hh, Int.toNat_natCast] at hp
  obtain ⟨y, hy, hrow, hnearY⟩ := nearest_of_findSome? hp
  obtain ⟨x, hx, hxy, hnearX⟩ := nearest_of_findSome? hrow
  split_ifs at hxy with havailable
  cases hxy
  refine ⟨(free_iff hw hh hw0 hh0 hwmax hhmax hpos).2 ⟨hy, hx, havailable⟩, fun (x', y') hq => ?_⟩
  obtain ⟨hy', hx', hfree⟩ := (free_iff hw hh hw0 hh0 hwmax hhmax hpos).1 hq
  refine ⟨hnearY y' hy' fun hnone => ?_, fun (heq : y' = y) => hnearX x' hx' ?_⟩
  · have := findSome?_eq_none_iff.1 hnone x' (mem_candidates.2 hx')
    simp [hfree] at this
  · rw [if_pos (heq ▸ hfree)]
    exact Option.some_ne_none _

/-- A place is found iff the size is admissible and there is one, and it is the nearest one. -/
theorem findAvailable_spec (widget : Region) (hpos : ∀ o ∈ widgets, 1 ≤ o.w ∧ 1 ≤ o.h) :
    (findAvailableOverviewWidgetPosition widget widgets = none ↔
      ¬(widget.Admissible ∧ ∃ p, Free widget widgets p)) ∧
    ∀ p, findAvailableOverviewWidgetPosition widget widgets = some p → Free widget widgets p ∧
      ∀ q, Free widget widgets q → |p.2 - widget.requestedY| ≤ |q.2 - widget.requestedY| ∧
        (q.2 = p.2 → |p.1 - widget.requestedX| ≤ |q.1 - widget.requestedX|) :=
  ⟨find_eq_none_iff hpos, fun _ => nearest_of_find hpos⟩

theorem findAvailable_besides :
    findAvailableOverviewWidgetPosition ⟨0, 1, 6, 7⟩ [⟨0, 0, 12, 2⟩, ⟨0, 2, 3, 2⟩] = some (3, 2) ∧
      Free ⟨0, 1, 6, 7⟩ [⟨0, 0, 12, 2⟩, ⟨0, 2, 3, 2⟩] (3, 2) := by
  have hfound : findAvailableOverviewWidgetPosition ⟨0, 1, 6, 7⟩ [⟨0, 0, 12, 2⟩, ⟨0, 2, 3, 2⟩] =
      some (3, 2) := by decide +kernel
  exact ⟨hfound, ((findAvailable_spec _ (by decide)).2 _ hfound).1⟩

theorem findAvailable_over_line :
    findAvailableOverviewWidgetPosition ⟨0, 0, 12, 1⟩ [⟨6, 0, 0, 1⟩] = some (0, 0) ∧
      overviewWidgetsOverlap ⟨0, 0, 12, 1⟩ ⟨6, 0, 0, 1⟩ = true := by
  decide +kernel

end

end Edr.Overview
