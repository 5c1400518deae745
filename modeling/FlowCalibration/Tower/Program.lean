import FlowCalibration.Program.Writing
import FlowCalibration.Tower.Plate

/-!
# Programs of plates

The text of a plate: a head that lists the settings and prepares the printer, the blocks, and an
end that parks the head and switches the heaters off.
-/

namespace FlowCalibration

/-- A plate as it is handed out. -/
structure Plate where
  /-- Number of the plate, from one. -/
  index : Nat
  /-- Number of sites. -/
  steps : Nat
  /-- Text of the program. -/
  program : String
  deriving DecidableEq

namespace Tower

open Double (number)

/-- Height to which the nozzle is lifted after homing. -/
def homeLift : Float := 10.0

/-- Height at which the nozzle primes. -/
def primeHeight : Float := 0.3

/-- Height at which a blob starts. -/
def blobBase : Float := 0.5

/-- Clearance above a blob on the way to the next site. -/
def clearance : Float := 5.0

/-- Value of the fan at full speed. -/
def fanMax : Float := 255.0

/-- Feed rate in millimetres per minute of a speed in millimetres per second. -/
def feedRate (speed : Float) : String :=
  number (speed * secondsPerMinute)

/-- First lines of a program: what it is, and the settings it was made from. -/
def title (tower : Tower) (index plateCount : Nat) : List String :=
  [ "; *** FlowTower flow pattern generator",
    comment ("Profile: " ++ tower.profile.model),
    comment ("Plate " ++ toString index ++ " of " ++ toString plateCount),
    ";####### Settings" ] ++
  tower.settings.listing.map (fun (name, value) => comment (name ++ " = " ++ value)) ++
  [""]

/-- Lines that heat and home the printer. -/
def preparation (settings : Settings) : List String :=
  let bed := number settings.bedTemp
  let fan := Double.round (settings.fanSpeed * fanMax / 100.0)
  [ "M104 S" ++ number settings.startTemp ++ " ; Set Nozzle Temperature",
    "M140 S" ++ bed ++ " ; Set Bed Temperature",
    "G90",
    "G28 ; Home all axes",
    "G0 Z" ++ number homeLift ++ " ; Lift nozzle",
    "G21 ; Units in mm",
    "G92 E0 ; Reset extruder",
    "M83 ; Relative extrusion",
    "M190 S" ++ bed ++ " ; Wait for bed",
    "M106 S" ++ number fan ++ " ; Fan" ]

/-- Lines that heat the nozzle and wait. -/
def heatLines (temperature : Float) : List String :=
  [ "",
    ";####### " ++ number temperature ++ "C",
    "G4 S0 ; Dwell",
    "M109 R" ++ number temperature ]

/-- Lines that test one site: prime along X, wipe, extrude a blob while rising, and return. -/
def siteLines (settings : Settings) (site : Site) : List String :=
  let corner := site.cell.corner
  let entry := site.entry
  let feed := number (blobFeedRate settings entry.flow)
  let flow := number entry.flow
  let travel := feedRate settings.movementSpeed
  let retract := feedRate settings.retractionSpeed
  let blobTop := blobBase + settings.blobHeight
  let safe := number (blobTop + clearance)
  let x := number corner.x
  let y := number corner.y
  [ "",
    ";####### " ++ flow ++ "mm3/s",
    "M117 " ++ number entry.temperature ++ "°C // " ++ flow ++ "mm3/s; F" ++ feed ++ "mm/min",
    "G0 X" ++ x ++ " Y" ++ y ++ " Z" ++ safe ++ " F" ++ travel,
    "G4 S" ++ number settings.stabilizationTime ++ " ; Stabilize",
    "G0 Z" ++ number primeHeight,
    "G1 X" ++ number (corner.x + settings.primeLength) ++ " E" ++ number settings.primeAmount ++
      " F" ++ feedRate settings.primeSpeed ++ " ; Prime",
    "G1 E" ++ number (-settings.retractionDistance) ++ " F" ++ retract ++ " ; Retract",
    "G0 X" ++ number (corner.x + settings.primeLength + settings.wipeLength) ++ " F" ++ travel ++
      " ; Wipe",
    "G0 Z" ++ number blobBase,
    "G1 E" ++ number settings.retractionDistance ++ " F" ++ retract ++ " ; De-Retract",
    "G1 Z" ++ number blobTop ++ " E" ++ number settings.extrusionAmount ++ " F" ++ feed ++
      " ; Extrude F" ++ feed ++ "mm/min",
    "G1 E" ++ number (-settings.retractionDistance) ++ " F" ++ retract ++ " ; Retract",
    "G0 Z" ++ safe ++ " ; Lift",
    "G0 X" ++ x ++ " Y" ++ y ++ " F" ++ travel,
    "G92 E0" ]

/-- Lines of a block. -/
def blockLines (settings : Settings) : Block → List String
  | .heat temperature => heatLines temperature
  | .site site => siteLines settings site

/-- Last lines of a program: park the head and switch the heaters off. -/
def footer (settings : Settings) : List String :=
  [ "",
    ";####### End G-Code",
    "G0 X" ++ number (settings.bedWidth - settings.marginX.abs) ++ " Y" ++
      number (settings.bedLength - settings.marginY.abs),
    "M104 S0 T0",
    "M140 S0",
    "M84" ]

/-- Lines that stand for the sites where there is no cell to print on. -/
def noCellLines : List String :=
  ["", "; No available placement slots on this printer - check excluded areas"]

/-- Lines of a plate; the plate without cells has no end. -/
def planLines (tower : Tower) (plan : PlatePlan) : List String :=
  (tower.title plan.index plan.plateCount ++ preparation tower.settings ++
    match plan.body with
    | .noCells => noCellLines
    | .blocks blocks => blocks.flatMap (blockLines tower.settings) ++ footer tower.settings).map
  pointed

/-- A planned plate with its program. -/
def plate (tower : Tower) (plan : PlatePlan) : Plate :=
  { index := plan.index, steps := plan.steps, program := joinLines (tower.planLines plan) }

/-- The plates of the run with their programs. -/
def plates (tower : Tower) : List Plate :=
  tower.plans.map tower.plate

end Tower

end FlowCalibration
