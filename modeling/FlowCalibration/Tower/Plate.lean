import FlowCalibration.Tower.Sweep

/-!
# Plates

A plate is planned before it is written: a list of blocks, each of which heats the nozzle or tests
one site.  A column's temperature is set before its first site on every plate, because a plate may
be printed on its own.
-/

namespace FlowCalibration

/-- A cell with the step of the sweep that is tested on it. -/
structure Site where
  cell : Cell
  entry : SweepEntry
  deriving DecidableEq

/-- A block of a plate. -/
inductive Block
  /-- Heat the nozzle and wait. -/
  | heat (temperature : Float)
  /-- Test one site. -/
  | site (site : Site)
  deriving DecidableEq

/-- What stands between the head and the end of a program. -/
inductive PlateBody
  /-- There is no cell to print on. -/
  | noCells
  /-- The blocks of a plate. -/
  | blocks (blocks : List Block)
  deriving DecidableEq

/-- A plate of a run. -/
structure PlatePlan where
  /-- Number of the plate, from one. -/
  index : Nat
  /-- Number of plates of the run. -/
  plateCount : Nat
  /-- What is printed. -/
  body : PlateBody
  deriving DecidableEq

namespace Block

/-- The site of a block that tests one. -/
def site? : Block → Option Site
  | heat _ => none
  | site tested => some tested

end Block

namespace PlatePlan

/-- The sites of a plate in printing order. -/
def sites (plan : PlatePlan) : List Site :=
  match plan.body with
  | .noCells => []
  | .blocks blocks => blocks.filterMap Block.site?

/-- Number of sites of a plate. -/
def steps (plan : PlatePlan) : Nat :=
  plan.sites.length

end PlatePlan

namespace Tower

/-- The sites of a plate, counted from zero: the cells take the steps of the sweep in order, as far
as the sweep reaches. -/
def sitesOf (tower : Tower) (layout : Layout) (plate : Nat) : List Site :=
  let start := plate * layout.sitesPerPlate
  ((layout.cells.take (layout.totalSteps - start)).zipIdx start).map fun (cell, index) =>
    { cell, entry := tower.entry index }

/-- The blocks of a list of sites; `first` says that nothing has been printed on the plate yet. -/
def blocksOf (tower : Tower) (first : Bool) : List Site → List Block
  | [] => []
  | site :: tail =>
      let heat :=
        if first || site.entry.index % tower.stepsPerColumn = 0 then
          [Block.heat site.entry.temperature]
        else []
      heat ++ .site site :: tower.blocksOf false tail

/-- A plate of the run, counted from zero. -/
def plan (tower : Tower) (layout : Layout) (plate : Nat) : PlatePlan :=
  { index := plate + 1
    plateCount := layout.plateCount
    body := .blocks (tower.blocksOf true (tower.sitesOf layout plate)) }

/-- The plates of the run in order. -/
def plans (tower : Tower) : List PlatePlan :=
  let layout := tower.layout
  if layout.sitesPerPlate = 0 then [{ index := 1, plateCount := 1, body := .noCells }]
  else (List.range layout.plateCount).map (tower.plan layout)

end Tower

end FlowCalibration
