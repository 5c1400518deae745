import FlowCalibration.Proofs.Tower.Accounting
import FlowCalibration.Proofs.Tower.Statements
import Mathlib.Data.List.Dedup

/-!
# Heating

Every site of a plate is printed at the temperature of its column.  The nozzle is heated directly
before the first site of each column on the plate and nowhere else, so the column for which it was
heated last is that of the site that is printed.  The text of the plate shows the same: the last
line before a site that waits for the nozzle names the temperature of the site's step.
-/

namespace FlowCalibration

namespace Block

/-- The temperature of a block that heats the nozzle. -/
def temperature? : Block → Option Float
  | heat temperature => some temperature
  | site _ => none

end Block

namespace PlatePlan

/-- The blocks of a plate; a plate without cells has none. -/
def blocks (plan : PlatePlan) : List Block :=
  match plan.body with
  | .noCells => []
  | .blocks blocks => blocks

theorem sites_eq (plan : PlatePlan) : plan.sites = plan.blocks.filterMap Block.site? := by
  obtain ⟨index, plateCount, body⟩ := plan
  cases body <;> rfl

end PlatePlan

namespace Tower

open Double (number)

/-- Columns of the sites among some blocks. -/
def columnsOf (blocks : List Block) : List Nat :=
  (blocks.filterMap Block.site?).map fun site => site.entry.column

@[simp]
theorem columnsOf_nil : columnsOf [] = [] := rfl

@[simp]
theorem columnsOf_heat (temperature : Float) (blocks : List Block) :
    columnsOf (.heat temperature :: blocks) = columnsOf blocks := rfl

@[simp]
theorem columnsOf_site (site : Site) (blocks : List Block) :
    columnsOf (.site site :: blocks) = site.entry.column :: columnsOf blocks := rfl

theorem mem_columnsOf {blocks : List Block} {site : Site} (member : .site site ∈ blocks) :
    site.entry.column ∈ columnsOf blocks :=
  List.mem_map_of_mem (List.mem_filterMap.mpr ⟨.site site, member, rfl⟩)

/-- Temperature of a column of the sweep. -/
def columnTemperature (tower : Tower) (column : Nat) : Float :=
  tower.settings.startTemp + Double.ofCount (column - 1) * tower.settings.tempOffset

theorem temperature_entry (tower : Tower) (index : Nat) :
    (tower.entry index).temperature = tower.columnTemperature (tower.entry index).column := rfl

/-! ## Where the nozzle is heated -/

/-- Blocks in which the nozzle is heated for a column directly before its first site and nowhere
else; `nozzle` is the column for which it has been heated before. -/
inductive Heated (tower : Tower) : Option Nat → List Block → Prop
  | nil {nozzle : Option Nat} : Heated tower nozzle []
  | keep {site : Site} {blocks : List Block} :
      Heated tower (some site.entry.column) blocks →
      Heated tower (some site.entry.column) (.site site :: blocks)
  | heat {nozzle : Option Nat} {site : Site} {blocks : List Block} :
      (∀ column ∈ nozzle, column < site.entry.column) →
      Heated tower (some site.entry.column) blocks →
      Heated tower nozzle
        (.heat (tower.columnTemperature site.entry.column) :: .site site :: blocks)

/-- The column changes where a step is the first of its column, and only there. -/
theorem column_succ (tower : Tower) (index : Nat) :
    (tower.entry (index + 1)).column =
      if (index + 1) % tower.stepsPerColumn = 0 then (tower.entry index).column + 1
      else (tower.entry index).column := by
  simp only [entry, Nat.succ_div, Nat.dvd_iff_mod_eq_zero]
  split <;> rfl

/-- Sites of consecutive steps behind a site of the step before them are heated for when their
column changes. -/
theorem heated_blocksOf_false {tower : Tower} {index : Nat} {sites : List Site}
    (steps : sites.map Site.entry = (List.range' (index + 1) sites.length).map tower.entry) :
    Heated tower (some (tower.entry index).column) (tower.blocksOf false sites) := by
  induction sites generalizing index with
  | nil => exact .nil
  | cons site sites induction =>
      simp only [List.map_cons, List.length_cons, List.range'_succ, List.cons.injEq] at steps
      obtain ⟨entry_eq, rest⟩ := steps
      have behind : Heated tower (some site.entry.column) (tower.blocksOf false sites) :=
        entry_eq ▸ induction rest
      have column_eq := column_succ tower index
      have index_eq : site.entry.index = index + 1 := entry_eq ▸ rfl
      rw [blocksOf, index_eq, Bool.false_or]
      split
      next first =>
        rw [if_pos (of_decide_eq_true first), ← entry_eq] at column_eq
        have temperature_eq : site.entry.temperature =
            tower.columnTemperature site.entry.column := entry_eq ▸ rfl
        rw [temperature_eq]
        refine .heat (fun column member => ?_) behind
        obtain rfl := Option.some.inj member
        omega
      next other =>
        rw [if_neg (fun first => other (decide_eq_true first)), ← entry_eq] at column_eq
        rw [← column_eq]
        exact .keep behind

theorem heated_blocksOf_true {tower : Tower} {start : Nat} {sites : List Site}
    (steps : sites.map Site.entry = (List.range' start sites.length).map tower.entry) :
    Heated tower none (tower.blocksOf true sites) := by
  cases sites with
  | nil => exact .nil
  | cons site sites =>
      simp only [List.map_cons, List.length_cons, List.range'_succ, List.cons.injEq] at steps
      obtain ⟨entry_eq, rest⟩ := steps
      have temperature_eq : site.entry.temperature =
          tower.columnTemperature site.entry.column := entry_eq ▸ rfl
      rw [blocksOf, Bool.true_or, if_pos rfl, temperature_eq]
      exact .heat (by simp) (entry_eq ▸ heated_blocksOf_false rest)

theorem map_entry_sitesOf (tower : Tower) (layout : Layout) (plate : Nat) :
    (tower.sitesOf layout plate).map Site.entry =
      (List.range' (plate * layout.sitesPerPlate) (tower.sitesOf layout plate).length).map
        tower.entry := by
  rw [sitesOf, List.map_map, List.length_map, List.length_zipIdx, ← List.zipIdx_map_snd,
    List.map_map]
  rfl

/-- The blocks of every plate of a run are heated for. -/
theorem heated_blocks {tower : Tower} {plan : PlatePlan} (member : plan ∈ tower.plans) :
    Heated tower none plan.blocks := by
  rw [plans] at member
  split at member
  next =>
    obtain rfl := List.mem_singleton.mp member
    exact .nil
  next =>
    obtain ⟨plate, _, rfl⟩ := List.mem_map.mp member
    exact heated_blocksOf_true (tower.map_entry_sitesOf tower.layout plate)

/-- Every site of a plate is a step of the sweep. -/
theorem entry_of_mem_sites {tower : Tower} {plan : PlatePlan} (member : plan ∈ tower.plans)
    {site : Site} (printed : site ∈ plan.sites) :
    site.entry = tower.entry site.entry.index := by
  rw [plans] at member
  split at member
  next =>
    obtain rfl := List.mem_singleton.mp member
    contradiction
  next =>
    obtain ⟨plate, _, rfl⟩ := List.mem_map.mp member
    have sites_eq : (tower.plan tower.layout plate).sites = tower.sitesOf tower.layout plate :=
      filterMap_site?_blocksOf tower true _
    rw [sites_eq] at printed
    have entry_mem : site.entry ∈ (tower.sitesOf tower.layout plate).map Site.entry :=
      List.mem_map_of_mem printed
    rw [map_entry_sitesOf] at entry_mem
    obtain ⟨index, _, entry_eq⟩ := List.mem_map.mp entry_mem
    rw [← entry_eq]
    rfl

namespace Heated

variable {tower : Tower} {nozzle : Option Nat} {blocks front back : List Block} {site : Site}

theorem le_of_mem_columnsOf {column : Nat} (heated : Heated tower (some column) blocks) :
    ∀ later ∈ columnsOf blocks, column ≤ later := by
  generalize nozzle_eq : some column = nozzle at heated
  induction heated generalizing column with
  | nil => simp
  | keep _ induction =>
      obtain rfl := Option.some.inj nozzle_eq
      rw [columnsOf_site, List.forall_mem_cons]
      exact ⟨Nat.le_refl _, induction rfl⟩
  | heat later _ induction =>
      have before := later column nozzle_eq.symm
      rw [columnsOf_heat, columnsOf_site, List.forall_mem_cons]
      exact ⟨Nat.le_of_lt before, fun other member =>
        Nat.le_trans (Nat.le_of_lt before) (induction rfl other member)⟩

theorem notMem_toList {column reached : Nat} (later : ∀ earlier ∈ nozzle, earlier < column)
    (le : column ≤ reached) : reached ∉ nozzle.toList :=
  fun member => Nat.not_le_of_gt (later reached (Option.mem_toList.mp member)) le

/-- Before a site the nozzle was last heated for its column, and it is heated directly before the
site exactly when no site of the column has been printed. -/
theorem before_site (heated : Heated tower nozzle (front ++ .site site :: back)) :
    (front.filterMap Block.temperature?).getLast?.or (nozzle.map tower.columnTemperature) =
        some (tower.columnTemperature site.entry.column) ∧
      (front.getLast? = some (.heat (tower.columnTemperature site.entry.column)) ↔
        site.entry.column ∉ nozzle.toList ++ columnsOf front) := by
  generalize blocks_eq : front ++ .site site :: back = blocks at heated
  induction heated generalizing front with
  | nil => simp at blocks_eq
  | keep _ induction =>
      cases front with
      | nil =>
          obtain ⟨same, rfl⟩ := List.cons.inj blocks_eq
          obtain rfl := Block.site.inj same
          simp
      | cons block front =>
          obtain ⟨rfl, rest⟩ := List.cons.inj blocks_eq
          obtain ⟨temperature, direct⟩ := induction rest
          refine ⟨temperature, ?_⟩
          cases front <;> simpa using direct
  | @heat nozzle first blocks later tail_heated induction =>
      cases front with
      | nil => cases (List.cons.inj blocks_eq).1
      | cons block front =>
          obtain ⟨rfl, tail_eq⟩ := List.cons.inj blocks_eq
          cases front with
          | nil =>
              obtain ⟨same, rfl⟩ := List.cons.inj tail_eq
              obtain rfl := Block.site.inj same
              refine ⟨rfl, ?_⟩
              simpa using notMem_toList later (Nat.le_refl _)
          | cons block front =>
              obtain ⟨rfl, rest⟩ := List.cons.inj tail_eq
              obtain ⟨temperature, direct⟩ := induction rest
              have reached := tail_heated.le_of_mem_columnsOf site.entry.column
                (mem_columnsOf (by simp [← rest]))
              have fresh := notMem_toList later reached
              constructor
              · rw [List.filterMap_cons, List.filterMap_cons, Block.temperature?,
                  Block.temperature?, List.getLast?_cons]
                cases last : (front.filterMap Block.temperature?).getLast? <;>
                  simpa [last] using temperature
              · cases front <;> simpa [fresh] using direct

/-- A block that heats stands directly before the first site of a column. -/
theorem before_heat {temperature : Float}
    (heated : Heated tower nozzle (front ++ .heat temperature :: back)) :
    ∃ site rest, back = .site site :: rest ∧
      temperature = tower.columnTemperature site.entry.column ∧
      site.entry.column ∉ nozzle.toList ++ columnsOf front := by
  generalize blocks_eq : front ++ .heat temperature :: back = blocks at heated
  induction heated generalizing front with
  | nil => simp at blocks_eq
  | keep _ induction =>
      cases front with
      | nil => cases (List.cons.inj blocks_eq).1
      | cons block front =>
          obtain ⟨rfl, rest⟩ := List.cons.inj blocks_eq
          obtain ⟨site, rest, back_eq, temperature_eq, fresh⟩ := induction rest
          exact ⟨site, rest, back_eq, temperature_eq, by simpa using fresh⟩
  | @heat nozzle first blocks later tail_heated induction =>
      cases front with
      | nil =>
          obtain ⟨same, rfl⟩ := List.cons.inj blocks_eq
          refine ⟨first, blocks, rfl, Block.heat.inj same, ?_⟩
          simpa using notMem_toList later (Nat.le_refl _)
      | cons block front =>
          obtain ⟨rfl, tail_eq⟩ := List.cons.inj blocks_eq
          cases front with
          | nil => cases (List.cons.inj tail_eq).1
          | cons block front =>
              obtain ⟨rfl, rest_eq⟩ := List.cons.inj tail_eq
              obtain ⟨site, rest, back_eq, temperature_eq, fresh⟩ := induction rest_eq
              have reached := tail_heated.le_of_mem_columnsOf site.entry.column
                (mem_columnsOf (by simp [← rest_eq, back_eq]))
              refine ⟨site, rest, back_eq, temperature_eq, ?_⟩
              rw [List.mem_append, not_or]
              exact ⟨notMem_toList later reached, by simpa using fresh⟩

theorem length_filterMap_temperature? (heated : Heated tower nozzle blocks) :
    (blocks.filterMap Block.temperature?).length + nozzle.toList.length =
      (nozzle.toList ++ columnsOf blocks).dedup.length := by
  induction heated with
  | @nil nozzle => cases nozzle <;> simp
  | keep _ induction =>
      rw [List.filterMap_cons, Block.temperature?, columnsOf_site]
      simpa using induction
  | @heat nozzle first blocks later tail_heated induction =>
      rw [List.filterMap_cons, List.filterMap_cons, Block.temperature?, Block.temperature?,
        columnsOf_heat, columnsOf_site, List.length_cons]
      cases nozzle with
      | none => simpa using induction
      | some column =>
          have before : column < first.entry.column := later column rfl
          have fresh : column ∉ first.entry.column :: columnsOf blocks := by
            rw [List.mem_cons]
            rintro (same | member)
            · exact Nat.ne_of_lt before same
            · exact Nat.not_le_of_gt before (tail_heated.le_of_mem_columnsOf column member)
          rw [Option.toList_some, List.singleton_append, List.dedup_cons_of_notMem fresh]
          simp only [Option.toList_some, List.singleton_append, List.length_cons, List.length_nil]
            at induction ⊢
          omega

end Heated

/-! ## The lines that wait for the nozzle -/

/-- The line that heats the nozzle and waits. -/
def waitLine (temperature : Float) : String :=
  "M109 R" ++ number temperature

/-- Whether a line heats the nozzle and waits. -/
def isWait (line : String) : Bool :=
  "M109 R".toList.isPrefixOf line.toList

theorem filter_isWait_heatLines (temperature : Float) :
    (heatLines temperature).filter isWait = [waitLine temperature] := by
  simp [heatLines, isWait, waitLine, String.toList_append]

theorem filter_isWait_siteLines (settings : Settings) (site : Site) :
    (siteLines settings site).filter isWait = [] := by
  simp [siteLines, isWait, String.toList_append]

theorem filter_isWait_blockLines (settings : Settings) (blocks : List Block) :
    (blocks.flatMap (blockLines settings)).filter isWait =
      (blocks.filterMap Block.temperature?).map waitLine := by
  induction blocks with
  | nil => rfl
  | cons block blocks induction =>
      rw [List.flatMap_cons, List.filter_append, induction]
      cases block with
      | heat temperature =>
          rw [blockLines, filter_isWait_heatLines]
          rfl
      | site site =>
          rw [blockLines, filter_isWait_siteLines]
          rfl

/-- The lines of a plate before its blocks. -/
def headLines (tower : Tower) (plan : PlatePlan) : List String :=
  titleRemark.text :: nameLine tower.profile.model ::
    (settingsStatements tower.settings plan.index plan.plateCount ++
      preparationStatements tower.settings).map Statement.text

/-- The statements of a plate behind its blocks. -/
def footStatements (settings : Settings) : PlateBody → List Statement
  | .noCells => noCellStatements
  | .blocks _ => footerStatements settings

theorem bodyStatements_eq (settings : Settings) (plan : PlatePlan) :
    bodyStatements settings plan.body =
      plan.blocks.flatMap (blockStatements settings) ++ footStatements settings plan.body := by
  obtain ⟨index, plateCount, body⟩ := plan
  cases body <;> rfl

/-- The text of a plate has the lines of its blocks one after the other. -/
theorem textLines_plate (tower : Tower) (plan : PlatePlan) :
    textLines (tower.plate plan).program =
      (tower.headLines plan).flatMap textLines ++
        (plan.blocks.flatMap (blockLines tower.settings) ++
          (footStatements tower.settings plan.body).map Statement.text) := by
  have lines_eq : tower.planLines plan =
      tower.headLines plan ++ (bodyStatements tower.settings plan.body).map Statement.text := by
    rw [planLines_eq, workStatements, List.map_append, headLines]
    rfl
  have oneLine : ∀ line ∈ (bodyStatements tower.settings plan.body).map Statement.text,
      '\n' ∉ line.toList := by
    intro line member
    obtain ⟨statement, statement_mem, rfl⟩ := List.mem_map.mp member
    exact (Statement.oneLine_text (fits_bodyStatements _ _ statement statement_mem)).notMem
  have head_ne : tower.headLines plan ≠ [] := List.cons_ne_nil _ _
  rw [plate, lines_eq, textLines_joinLines_append head_ne oneLine, bodyStatements_eq,
    List.map_append, ← blocks_eq]

/-- Every site of a plate is printed at its own temperature. -/
structure PrintsHeated (tower : Tower) (plan : PlatePlan) : Prop where
  /-- The text of the plate is that of its blocks behind some lines and before others.  Each site is
  a step of the sweep, the nozzle is heated before it, and the last line before it that waits for
  the nozzle has the temperature of the step. -/
  last_wait : ∃ head foot : List String,
    textLines (tower.plate plan).program =
      head ++ (plan.blocks.flatMap (blockLines tower.settings) ++ foot) ∧
    ∀ (front back : List Block) (site : Site), plan.blocks = front ++ Block.site site :: back →
      site.entry = tower.entry site.entry.index ∧
      (∃ temperature : Float, Block.heat temperature ∈ front) ∧
      ((head ++ front.flatMap (blockLines tower.settings)).filter isWait).getLast? =
        some (waitLine (tower.entry site.entry.index).temperature)
  /-- The nozzle is heated as often as there are columns on the plate. -/
  heat_count : (plan.blocks.filterMap Block.temperature?).length =
    (plan.sites.map fun site => site.entry.column).dedup.length
  /-- It is heated directly before the first site of a column on the plate, -/
  heat_before : ∀ (front back : List Block) (site : Site),
    plan.blocks = front ++ Block.site site :: back →
      (front.getLast? = some (Block.heat (tower.entry site.entry.index).temperature) ↔
        site.entry.column ∉ columnsOf front)
  /-- and nowhere else. -/
  site_behind : ∀ (front back : List Block) (temperature : Float),
    plan.blocks = front ++ Block.heat temperature :: back →
      ∃ (site : Site) (rest : List Block), back = Block.site site :: rest ∧
        temperature = (tower.entry site.entry.index).temperature ∧
        site.entry.column ∉ columnsOf front

/-- All plates of a run print their sites heated. -/
theorem plates_heated (tower : Tower) {plan : PlatePlan} (member : plan ∈ tower.plans) :
    PrintsHeated tower plan := by
  have heated := heated_blocks member
  have step {site : Site} (printed : .site site ∈ plan.blocks) :
      site.entry = tower.entry site.entry.index := by
    apply entry_of_mem_sites member
    rw [PlatePlan.sites_eq]
    exact List.mem_filterMap.mpr ⟨.site site, printed, rfl⟩
  have temperature_eq {site : Site} (printed : .site site ∈ plan.blocks) :
      tower.columnTemperature site.entry.column =
        (tower.entry site.entry.index).temperature := by
    rw [temperature_entry, ← step printed]
  refine ⟨⟨_, _, tower.textLines_plate plan, ?_⟩, ?_, ?_, ?_⟩
  · intro front back site blocks_eq
    have printed : .site site ∈ plan.blocks := by simp [blocks_eq]
    have last : (front.filterMap Block.temperature?).getLast? =
        some (tower.entry site.entry.index).temperature := by
      have before := (blocks_eq ▸ heated).before_site.1
      rwa [Option.map_none, Option.or_none, temperature_eq printed] at before
    refine ⟨step printed, ?_, ?_⟩
    · obtain ⟨block, block_mem, heats⟩ := List.mem_filterMap.mp (List.mem_of_getLast? last)
      cases block with
      | heat temperature => exact ⟨temperature, block_mem⟩
      | site other => contradiction
    · rw [List.filter_append, filter_isWait_blockLines, List.getLast?_append, List.getLast?_map,
        last]
      rfl
  · simpa [PlatePlan.sites_eq, columnsOf] using heated.length_filterMap_temperature?
  · intro front back site blocks_eq
    have direct := (blocks_eq ▸ heated).before_site.2
    rwa [temperature_eq (by simp [blocks_eq])] at direct
  · intro front back temperature blocks_eq
    obtain ⟨site, rest, rfl, heat_eq, fresh⟩ := (blocks_eq ▸ heated).before_heat
    rw [temperature_eq (by simp [blocks_eq])] at heat_eq
    exact ⟨site, rest, rfl, heat_eq, fresh⟩

/-- A tower whose second temperature goes on from the first plate to the second. -/
def twoPlates : Tower :=
  ⟨{ bedWidth := 85.0, bedLength := 115.0, flowSteps := 2, tempSteps := 2, tempOffset := 5.0 },
    { model := "A", buildVolume := ⟨85.0, 115.0, 100.0⟩ }⟩

/-- Its second plate. -/
def secondPlan : PlatePlan :=
  twoPlates.plan twoPlates.layout 1

theorem plates_heated_secondPlan :
    secondPlan ∈ twoPlates.plans ∧ PrintsHeated twoPlates secondPlan := by
  have member : secondPlan ∈ twoPlates.plans :=
    List.mem_of_getElem? (show twoPlates.plans[1]? = some secondPlan by decide +kernel)
  exact ⟨member, plates_heated twoPlates member⟩

end Tower

end FlowCalibration
