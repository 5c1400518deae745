import FlowCalibration.Tower.Program
import Mathlib.Algebra.Order.Ring.Nat

/-!
# Accounting for the sweep

The plates of a run carry the steps of the sweep without loss or repetition.  The sites of a plate
are a window of the list of all sites, as wide as a plate, and the windows of all plates, one after
the other, are the whole list.
-/

namespace FlowCalibration

namespace Tower

open Double (number)

/-- The site of a step of the sweep: the cell that has the step's place on its plate.  There is no
site where there is no such cell. -/
def siteAt? (tower : Tower) (layout : Layout) (index : Nat) : Option Site :=
  layout.cells[index % layout.sitesPerPlate]?.map fun cell => ⟨cell, tower.entry index⟩

/-- The sites of the whole sweep in order. -/
def sweepSites (tower : Tower) (layout : Layout) : List (Option Site) :=
  (List.range layout.totalSteps).map (tower.siteAt? layout)

theorem length_sweepSites (tower : Tower) (layout : Layout) :
    (tower.sweepSites layout).length = layout.totalSteps := by
  simp [sweepSites]

/-- A list is its consecutive windows of one width. -/
theorem flatMap_window {α : Type} (values : List α) (width count : Nat) :
    (List.range count).flatMap (fun index => (values.drop (index * width)).take width) =
      values.take (count * width) := by
  induction count with
  | zero => simp
  | succ count induction =>
      rw [List.range_succ, List.flatMap_append, induction, Nat.succ_mul, List.take_add]
      simp

theorem getElem?_sitesOf (tower : Tower) (layout : Layout) (plate place : Nat) :
    (tower.sitesOf layout plate)[place]? =
      if plate * layout.sitesPerPlate + place < layout.totalSteps then
        layout.cells[place]?.map fun cell =>
          ⟨cell, tower.entry (plate * layout.sitesPerPlate + place)⟩
      else none := by
  simp only [sitesOf, List.getElem?_map, List.getElem?_zipIdx, List.getElem?_take, Option.map_map]
  by_cases inside : plate * layout.sitesPerPlate + place < layout.totalSteps
  · rw [if_pos inside, if_pos (by omega)]
    rfl
  · rw [if_neg inside, if_neg (by omega)]
    rfl

/-- The sites of a plate are its window of the sweep. -/
theorem map_some_sitesOf (tower : Tower) (layout : Layout) (plate : Nat) :
    (tower.sitesOf layout plate).map some =
      ((tower.sweepSites layout).drop (plate * layout.sitesPerPlate)).take
        layout.sitesPerPlate := by
  apply List.ext_getElem?
  intro place
  have width : layout.cells.length = layout.sitesPerPlate := rfl
  rw [List.getElem?_map, getElem?_sitesOf, List.getElem?_take, List.getElem?_drop, sweepSites,
    List.getElem?_map]
  by_cases within : place < layout.sitesPerPlate
  · have remainder : (plate * layout.sitesPerPlate + place) % layout.sitesPerPlate = place := by
      rw [Nat.mul_add_mod', Nat.mod_eq_of_lt within]
    by_cases inside : plate * layout.sitesPerPlate + place < layout.totalSteps
    · have cell : layout.cells[place]? = some layout.cells[place] :=
        List.getElem?_eq_getElem (width ▸ within)
      rw [if_pos inside, if_pos within, List.getElem?_range inside, Option.map_some, siteAt?,
        remainder, cell]
      rfl
    · have outside : (List.range layout.totalSteps)[plate * layout.sitesPerPlate + place]? =
          none := by simpa using Nat.le_of_not_lt inside
      rw [if_neg inside, if_pos within, outside]
      rfl
  · have noCell : layout.cells[place]? = none := by
      rw [List.getElem?_eq_none_iff, width]
      exact Nat.le_of_not_lt within
    rw [if_neg within, noCell]
    split <;> rfl

/-- The plates hold the whole sweep. -/
theorem totalSteps_le (layout : Layout) (capacity : 0 < layout.sitesPerPlate) :
    layout.totalSteps ≤ layout.plateCount * layout.sitesPerPlate := by
  have rounded : layout.totalSteps ≤
      (layout.totalSteps + layout.sitesPerPlate - 1) / layout.sitesPerPlate *
        layout.sitesPerPlate := by
    have quotient := Nat.div_add_mod' (layout.totalSteps + layout.sitesPerPlate - 1)
      layout.sitesPerPlate
    have remainder := Nat.mod_lt (layout.totalSteps + layout.sitesPerPlate - 1) capacity
    omega
  exact Nat.le_trans rounded (Nat.mul_le_mul_right _ (Nat.le_max_left _ _))

/-- Only the last plate can have room left. -/
theorem lt_totalSteps {layout : Layout} {plate : Nat} (capacity : 0 < layout.sitesPerPlate)
    (notLast : plate + 1 < layout.plateCount) :
    (plate + 1) * layout.sitesPerPlate < layout.totalSteps := by
  have counted : plate + 1 <
      (layout.totalSteps + layout.sitesPerPlate - 1) / layout.sitesPerPlate := by
    rw [Layout.plateCount] at notLast
    omega
  have reached := (Nat.le_div_iff_mul_le capacity).mp (Nat.succ_le_of_lt counted)
  rw [Nat.succ_mul] at reached
  omega

/-- The sites of all plates, plate after plate, are those of the sweep. -/
theorem flatMap_sitesOf (tower : Tower) (layout : Layout) (capacity : 0 < layout.sitesPerPlate) :
    ((List.range layout.plateCount).flatMap (tower.sitesOf layout)).map some =
      tower.sweepSites layout := by
  rw [List.map_flatMap]
  simp only [map_some_sitesOf]
  rw [flatMap_window]
  apply List.take_of_length_le
  rw [length_sweepSites]
  exact totalSteps_le layout capacity

theorem length_sitesOf (tower : Tower) (layout : Layout) (plate : Nat) :
    (tower.sitesOf layout plate).length =
      min layout.sitesPerPlate (layout.totalSteps - plate * layout.sitesPerPlate) := by
  have lengths := congrArg List.length (tower.map_some_sitesOf layout plate)
  simpa [length_sweepSites] using lengths

/-- Writing the blocks of a plate keeps its sites in order. -/
theorem filterMap_site?_blocksOf (tower : Tower) (first : Bool) (sites : List Site) :
    (tower.blocksOf first sites).filterMap Block.site? = sites := by
  induction sites generalizing first with
  | nil => rfl
  | cons site sites induction =>
      rw [blocksOf]
      split
      · exact congrArg (List.cons site) (induction false)
      · exact congrArg (List.cons site) (induction false)

/-! ## Towers that print alike -/

section

variable {tower other : Tower}

/-- Where a temperature is set depends on the steps of a column only. -/
theorem blocksOf_congr (columns : tower.stepsPerColumn = other.stepsPerColumn) (first : Bool)
    (sites : List Site) : tower.blocksOf first sites = other.blocksOf first sites := by
  induction sites generalizing first with
  | nil => rfl
  | cons site sites induction => rw [blocksOf, blocksOf, induction, columns]

/-- What is printed depends on the layout and on the sites only. -/
theorem plans_congr (columns : tower.stepsPerColumn = other.stepsPerColumn)
    (layout_eq : tower.layout = other.layout) (sites_eq : tower.sitesOf = other.sitesOf) :
    tower.plans = other.plans := by
  have plan_eq : tower.plan = other.plan := by
    funext layout plate
    simp only [plan, sites_eq, blocksOf_congr columns]
  simp only [plans, layout_eq, plan_eq]

end

/-! ## Headings -/

/-- The heading of a site, which tells its flow. -/
def siteHeading (site : Site) : String :=
  ";####### " ++ number site.entry.flow ++ "mm3/s"

/-- Whether a line is the heading of a site. -/
def isSiteHeading (line : String) : Bool :=
  ";####### ".toList.isPrefixOf line.toList && "mm3/s".toList.isSuffixOf line.toList

theorem isSiteHeading_siteHeading (site : Site) : isSiteHeading (siteHeading site) = true := by
  rw [isSiteHeading, siteHeading, String.toList_append, String.toList_append, Bool.and_eq_true,
    List.isPrefixOf_iff_prefix, List.isSuffixOf_iff_suffix]
  exact ⟨(List.prefix_append _ _).trans (List.prefix_append _ _), List.suffix_append _ _⟩

/-- The lines of a site begin with its own heading, behind a blank line, and no other of them is a
heading. -/
theorem siteLines_eq_heading (settings : Settings) (site : Site) :
    ∃ rest, siteLines settings site = "" :: siteHeading site :: rest ∧
      ∀ line ∈ rest, ¬ isSiteHeading line = true := by
  refine ⟨(siteLines settings site).drop 2, rfl, ?_⟩
  simp [siteLines, isSiteHeading]

theorem not_isSiteHeading_heatLines (temperature : Float) :
    ∀ line ∈ heatLines temperature, ¬ isSiteHeading line = true := by
  have ends : ¬ "mm3/s".toList <:+
      ";####### ".toList ++ (number temperature).toList ++ "C".toList := by
    rintro ⟨front, same⟩
    have last := congrArg List.getLast? same
    rw [List.getLast?_append, List.getLast?_append] at last
    exact absurd (Option.some.inj last) (by decide)
  simp only [heatLines, List.forall_mem_cons, isSiteHeading, String.toList_append, Bool.and_eq_true,
    List.isPrefixOf_iff_prefix, List.isSuffixOf_iff_suffix, not_and]
  refine ⟨by simp, fun _ => ends, by simp, by simp, by simp⟩

/-- The headings among the lines of blocks are those of the sites, in order. -/
theorem filter_isSiteHeading_blockLines (settings : Settings) (blocks : List Block) :
    (blocks.flatMap (blockLines settings)).filter isSiteHeading =
      (blocks.filterMap Block.site?).map siteHeading := by
  induction blocks with
  | nil => rfl
  | cons block blocks induction =>
      rw [List.flatMap_cons, List.filter_append, induction]
      cases block with
      | heat temperature =>
          rw [blockLines, List.filter_eq_nil_iff.mpr (not_isSiteHeading_heatLines temperature)]
          rfl
      | site site =>
          obtain ⟨rest, lines_eq, others⟩ := siteLines_eq_heading settings site
          have blank : ¬ isSiteHeading "" = true := by decide
          rw [blockLines, lines_eq, List.filter_cons_of_neg blank,
            List.filter_cons_of_pos (isSiteHeading_siteHeading site),
            List.filter_eq_nil_iff.mpr others]
          rfl

/-! ## Plates -/

/-- The plates of a run are numbered from one, and there is always one. -/
theorem index_plates (tower : Tower) :
    1 ≤ tower.layout.plateCount ∧
      tower.plates.map Plate.index = (List.range tower.layout.plateCount).map (· + 1) := by
  refine ⟨Nat.le_max_right _ _, ?_⟩
  rw [plates, plans, List.map_map]
  split
  next none =>
    have single : tower.layout.plateCount = 1 := by
      simp [Layout.plateCount, none]
    rw [single]
    rfl
  next => simp [Function.comp_def, plate, plan]

theorem steps_plan (tower : Tower) (layout : Layout) (plate : Nat) :
    (tower.plan layout plate).steps = (tower.sitesOf layout plate).length := by
  simp only [PlatePlan.steps, PlatePlan.sites, plan, filterMap_site?_blocksOf]

theorem plate_plan (tower : Tower) (layout : Layout) (plate : Nat) :
    tower.plate (tower.plan layout plate) =
      { index := plate + 1
        steps := (tower.sitesOf layout plate).length
        program := joinLines ((tower.title (plate + 1) layout.plateCount ++
          preparation tower.settings ++
          ((tower.blocksOf true (tower.sitesOf layout plate)).flatMap
            (blockLines tower.settings) ++ footer tower.settings)).map pointed) } := by
  rw [Tower.plate, steps_plan, planLines, plan]

theorem plates_of_capacity (tower : Tower) (capacity : 0 < tower.layout.sitesPerPlate) :
    tower.plates = (List.range tower.layout.plateCount).map fun plate =>
      { index := plate + 1
        steps := (tower.sitesOf tower.layout plate).length
        program := joinLines ((tower.title (plate + 1) tower.layout.plateCount ++
          preparation tower.settings ++
          ((tower.blocksOf true (tower.sitesOf tower.layout plate)).flatMap
            (blockLines tower.settings) ++ footer tower.settings)).map pointed) } := by
  rw [plates, plans, if_neg (Nat.ne_of_gt capacity), List.map_map]
  refine List.map_congr_left fun plate _ => ?_
  rw [Function.comp_apply, plate_plan]

theorem site_of_lt (tower : Tower) {layout : Layout} (capacity : 0 < layout.sitesPerPlate)
    {index : Nat} (inside : index < layout.totalSteps) :
    index / layout.sitesPerPlate < layout.plateCount ∧
      ∃ cell, layout.cells[index % layout.sitesPerPlate]? = some cell ∧
        (tower.sitesOf layout (index / layout.sitesPerPlate))[index % layout.sitesPerPlate]? =
          some ⟨cell, tower.entry index⟩ := by
  have whole : index / layout.sitesPerPlate * layout.sitesPerPlate +
      index % layout.sitesPerPlate = index := Nat.div_add_mod' _ _
  have place : index % layout.sitesPerPlate < layout.cells.length := Nat.mod_lt _ capacity
  refine ⟨?_, layout.cells[index % layout.sitesPerPlate], List.getElem?_eq_getElem place, ?_⟩
  · rw [Nat.div_lt_iff_lt_mul capacity]
    exact Nat.lt_of_lt_of_le inside (totalSteps_le layout capacity)
  · rw [getElem?_sitesOf, whole, if_pos inside, List.getElem?_eq_getElem place]
    rfl

/-- The whole sweep is printed.  The plates are numbered from one.  Where the printer has cells,
every plate is the text of its blocks, and the sites among the blocks are those of the sweep, plate
after plate, each on its cell; every plate but the last is full, and the plates' counts add up to
the sweep.  Where it has none, there is one plate without a site and without an end. -/
theorem plates_account (tower : Tower) :
    1 ≤ tower.layout.plateCount ∧
    tower.plates.map Plate.index = (List.range tower.layout.plateCount).map (· + 1) ∧
    (0 < tower.layout.sitesPerPlate →
      ∃ blocks : Nat → List Block,
        let sites (plate : Nat) : List Site := (blocks plate).filterMap Block.site?
        tower.plates = (List.range tower.layout.plateCount).map (fun plate =>
          { index := plate + 1
            steps := (sites plate).length
            program := joinLines ((tower.title (plate + 1) tower.layout.plateCount ++
              preparation tower.settings ++ ((blocks plate).flatMap (blockLines tower.settings) ++
              footer tower.settings)).map pointed) }) ∧
        ((List.range tower.layout.plateCount).flatMap sites).map some =
          (List.range tower.layout.totalSteps).map (tower.siteAt? tower.layout) ∧
        (∀ index < tower.layout.totalSteps,
          index / tower.layout.sitesPerPlate < tower.layout.plateCount ∧
          ∃ cell, tower.layout.cells[index % tower.layout.sitesPerPlate]? = some cell ∧
            (sites (index / tower.layout.sitesPerPlate))[index % tower.layout.sitesPerPlate]? =
              some ⟨cell, tower.entry index⟩) ∧
        (∀ plate, plate + 1 < tower.layout.plateCount →
          (sites plate).length = tower.layout.sitesPerPlate) ∧
        (tower.plates.map Plate.steps).sum = tower.layout.totalSteps) ∧
    (tower.layout.sitesPerPlate = 0 →
      tower.plates =
        [{ index := 1, steps := 0,
           program := joinLines ((tower.title 1 1 ++ preparation tower.settings ++
            noCellLines).map pointed) }]) := by
  refine ⟨tower.index_plates.1, tower.index_plates.2, fun capacity => ?_, fun none => ?_⟩
  · refine ⟨fun plate => tower.blocksOf true (tower.sitesOf tower.layout plate), ?_⟩
    have plates_eq := tower.plates_of_capacity capacity
    simp only [filterMap_site?_blocksOf]
    refine ⟨plates_eq, tower.flatMap_sitesOf tower.layout capacity,
      fun index inside => tower.site_of_lt capacity inside, fun plate notLast => ?_, ?_⟩
    · have full := lt_totalSteps capacity notLast
      rw [Nat.succ_mul] at full
      rw [length_sitesOf]
      omega
    · have whole := congrArg List.length (tower.flatMap_sitesOf tower.layout capacity)
      rw [List.length_map, length_sweepSites, List.length_flatMap] at whole
      simp only [plates_eq, List.map_map, Function.comp_def]
      exact whole
  · simp only [plates, plans, none, if_true]
    rfl

end Tower

end FlowCalibration
