import FlowCalibration.Decimal.Distance
import FlowCalibration.Geometry
import FlowCalibration.Program.Line

/-!
# Running a program

The machine keeps the position of its axes and of the extruder and two modes.  Running a program
gives the list of what happened, and the state at its end.  A target that is not finite leaves its
axis where it is, so every state is finite.
-/

namespace FlowCalibration

/-- Position of the axes and of the extruder, and how values are understood. -/
structure MachineState where
  x : Float := 0.0
  y : Float := 0.0
  z : Float := 0.0
  /-- Position of the extruder. -/
  e : Float := 0.0
  /-- Whether axis values are positions. -/
  absolutePositioning : Bool := true
  /-- Whether extruder values are positions. -/
  absoluteExtrusion : Bool := true
  deriving DecidableEq

/-- One move. -/
structure Motion where
  /-- Position before the move. -/
  start : Point
  /-- Position after the move. -/
  finish : Point
  dx : Float
  dy : Float
  dz : Float
  /-- Extruded length, negative for a retraction. -/
  de : Float
  /-- Length of the move in the plane. -/
  distance : Float
  /-- Whether the move is rapid. -/
  rapid : Bool
  deriving DecidableEq

/-- Something that happens in a run. -/
inductive Event
  /-- The head moved. -/
  | motion (motion : Motion)
  /-- The position was renamed; the state is the one after it. -/
  | positionSet (state : MachineState)
  /-- A message was shown. -/
  | status (message : String)
  deriving DecidableEq

namespace MachineState

/-- Position in the plane. -/
def position (state : MachineState) : Point :=
  ⟨state.x, state.y⟩

/-- Where an axis goes to for a value. -/
def axisTarget (state : MachineState) (current value : Float) : Float :=
  if state.absolutePositioning then value else current + value

/-- Where the extruder goes to for a value. -/
def extruderTarget (state : MachineState) (value : Float) : Float :=
  if state.absoluteExtrusion then value else state.e + value

/-- A target if it is finite, else the current value. -/
def finiteOr (target current : Float) : Float :=
  if target.isFinite then target else current

/-- Rename the coordinate of a word. -/
def setWord (state : MachineState) (word : Word) : MachineState :=
  match word.letter with
  | 'X' => { state with x := word.value }
  | 'Y' => { state with y := word.value }
  | 'Z' => { state with z := word.value }
  | 'E' => { state with e := word.value }
  | _ => state

/-- Rename the coordinates of the words of a line. -/
def setPosition (state : MachineState) (line : ProgramLine) : MachineState :=
  line.words.foldl setWord state

/-- Aim the coordinate of a word; values are understood from the state before the move. -/
def aimWord (state target : MachineState) (word : Word) : MachineState :=
  match word.letter with
  | 'X' => { target with x := finiteOr (state.axisTarget state.x word.value) state.x }
  | 'Y' => { target with y := finiteOr (state.axisTarget state.y word.value) state.y }
  | 'Z' => { target with z := finiteOr (state.axisTarget state.z word.value) state.z }
  | 'E' => { target with e := finiteOr (state.extruderTarget word.value) state.e }
  | _ => target

/-- The state that the words of a line aim at. -/
def target (state : MachineState) (line : ProgramLine) : MachineState :=
  line.words.foldl state.aimWord state

/-- The move from a state to another one. -/
def motionTo (state target : MachineState) (rapid : Bool) : Motion :=
  let dx := target.x - state.x
  let dy := target.y - state.y
  { start := state.position
    finish := target.position
    dx
    dy
    dz := target.z - state.z
    de := target.e - state.e
    distance := Double.hypot dx dy
    rapid }

/-- State after a line, and what happened. -/
def step (state : MachineState) (line : ProgramLine) : MachineState × Option Event :=
  match line.command with
  | .absolutePositioning => ({ state with absolutePositioning := true }, none)
  | .relativePositioning => ({ state with absolutePositioning := false }, none)
  | .absoluteExtrusion => ({ state with absoluteExtrusion := true }, none)
  | .relativeExtrusion => ({ state with absoluteExtrusion := false }, none)
  | .setPosition =>
      let state := state.setPosition line
      (state, some (.positionSet state))
  | .linearMove rapid =>
      let target := state.target line
      (target, some (.motion (state.motionTo target rapid)))
  | .statusMessage => (state, line.message.map .status)
  | .other _ => (state, none)

/-- What happens in a run of lines, and the state at its end. -/
def run (state : MachineState) : List ProgramLine → List Event × MachineState
  | [] => ([], state)
  | line :: lines =>
      let (next, event) := state.step line
      let (events, last) := next.run lines
      (event.toList ++ events, last)

end MachineState

/-- What happens in a run of a program from the start, and the state at its end. -/
def replay (program : String) : List Event × MachineState :=
  MachineState.run {} (parseProgram program)

end FlowCalibration
