import FlowCalibration.Proofs.Preview.Layers
import FlowCalibration.Proofs.Program.Continuity

/-!
# Axes and extruder

The machine has two parts, the axes and the extruder, each with its own words and its own mode.
Neither part sees what a program tells the other one: whatever is written for a part can be taken
off the lines, and in the run nothing changes but this part.
-/

namespace FlowCalibration

/-- A part of the machine. -/
inductive MachinePart
  /-- The axes that move the head. -/
  | axes
  /-- The drive of the filament. -/
  | extruder
  deriving DecidableEq

namespace MachinePart

/-- Letters of the words for a part. -/
def letters : MachinePart → List Char
  | axes => ['X', 'Y', 'Z']
  | extruder => ['E']

/-- Whether a command sets how the values of a part are understood. -/
def isMode : MachinePart → Command → Bool
  | axes, .absolutePositioning | axes, .relativePositioning => true
  | extruder, .absoluteExtrusion | extruder, .relativeExtrusion => true
  | _, _ => false

end MachinePart

open MachinePart

/-- A line of any command without the words for a part; nothing is left of a line that sets its
mode. -/
def ProgramLine.without? (part : MachinePart) (line : ProgramLine) : Option ProgramLine :=
  if part.isMode line.command then none
  else some { line with words := line.words.filter (·.letter ∉ part.letters) }

/-- A state in which a part is as at the start. -/
def MachineState.without (part : MachinePart) (state : MachineState) : MachineState :=
  match part with
  | axes => { e := state.e, absoluteExtrusion := state.absoluteExtrusion }
  | extruder => { state with e := 0.0, absoluteExtrusion := true }

/-- A motion in which a part stays where it is. -/
def Motion.without (part : MachinePart) (motion : Motion) : Motion :=
  match part with
  | axes =>
      { start := startPosition, finish := startPosition, dx := 0.0, dy := 0.0, dz := 0.0,
        de := motion.de, distance := 0.0, rapid := motion.rapid }
  | extruder => { motion with de := 0.0 }

/-- An event as it is seen without a part. -/
def Event.without (part : MachinePart) : Event → Event
  | .motion move => .motion (move.without part)
  | .positionSet state => .positionSet (state.without part)
  | .status message => .status message

variable (part : MachinePart)

theorem motions_map_without (events : List Event) :
    motions (events.map (Event.without part)) = (motions events).map (Motion.without part) := by
  rw [motions, motions, List.filterMap_map, List.map_filterMap]
  refine List.filterMap_congr fun event _ => ?_
  cases event <;> rfl

namespace MachineState

/-! ## Words -/

section

variable {part} {state other target target' : MachineState} {word : Word}

/-- A change by letters that changes the coordinate of its letter changes nothing else. -/
theorem without_of_mem (change : Char → MachineState) {letter : Char}
    (own : letter ∈ part.letters) (x : ∃ value, change 'X' = { state with x := value })
    (y : ∃ value, change 'Y' = { state with y := value })
    (z : ∃ value, change 'Z' = { state with z := value })
    (e : ∃ value, change 'E' = { state with e := value }) :
    (change letter).without part = state.without part := by
  cases part with
  | axes =>
      obtain ⟨_, x_eq⟩ := x
      obtain ⟨_, y_eq⟩ := y
      obtain ⟨_, z_eq⟩ := z
      simp only [letters, List.mem_cons, List.not_mem_nil, or_false] at own
      rcases own with rfl | rfl | rfl
      · exact (congrArg (without .axes) x_eq).trans rfl
      · exact (congrArg (without .axes) y_eq).trans rfl
      · exact (congrArg (without .axes) z_eq).trans rfl
  | extruder =>
      obtain ⟨_, e_eq⟩ := e
      obtain rfl := List.mem_singleton.mp own
      exact (congrArg (without .extruder) e_eq).trans rfl

theorem setWord_without_of_mem (own : word.letter ∈ part.letters) :
    (state.setWord word).without part = state.without part :=
  without_of_mem (fun letter => state.setWord ⟨letter, word.value⟩) own
    ⟨_, rfl⟩ ⟨_, rfl⟩ ⟨_, rfl⟩ ⟨_, rfl⟩

theorem setWord_without_congr (foreign : word.letter ∉ part.letters)
    (same : state.without part = other.without part) :
    (state.setWord word).without part = (other.setWord word).without part := by
  cases part <;> simp only [setWord] <;> split <;> simp_all [letters, without]

theorem aimWord_without_of_mem (own : word.letter ∈ part.letters) :
    (state.aimWord target word).without part = target.without part :=
  without_of_mem (fun letter => state.aimWord target ⟨letter, word.value⟩) own
    ⟨_, rfl⟩ ⟨_, rfl⟩ ⟨_, rfl⟩ ⟨_, rfl⟩

theorem aimWord_without_congr (foreign : word.letter ∉ part.letters)
    (same : state.without part = other.without part)
    (aimed : target.without part = target'.without part) :
    (state.aimWord target word).without part = (other.aimWord target' word).without part := by
  cases part <;> simp only [aimWord] <;> split <;>
    simp_all [letters, without, axisTarget, extruderTarget]

/-- Where a word for a part only changes this part, and any other word is understood alike without
it, the words for the part can be taken off. -/
theorem foldl_without (advance advance' : MachineState → Word → MachineState)
    (own : ∀ state word, word.letter ∈ part.letters →
      (advance state word).without part = state.without part)
    (foreign : ∀ state other word, word.letter ∉ part.letters →
      state.without part = other.without part →
        (advance state word).without part = (advance' other word).without part)
    (same : state.without part = other.without part) (words : List Word) :
    (words.foldl advance state).without part =
      ((words.filter (·.letter ∉ part.letters)).foldl advance' other).without part := by
  induction words generalizing state other with
  | nil => exact same
  | cons word words induction =>
      by_cases mine : word.letter ∈ part.letters
      · rw [List.filter_cons_of_neg (by simpa using mine), List.foldl_cons]
        exact induction ((own state word mine).trans same)
      · rw [List.filter_cons_of_pos (by simpa using mine), List.foldl_cons, List.foldl_cons]
        exact induction (foreign state other word mine same)

end

/-! ## Lines and runs -/

theorem motionTo_without {state other target target' : MachineState}
    (same : state.without part = other.without part)
    (aimed : target.without part = target'.without part) (rapid : Bool) :
    (state.motionTo target rapid).without part = (other.motionTo target' rapid).without part := by
  cases part <;> simp_all [without, Motion.without, motionTo, position]

/-- What a line does is seen as before without a part, also when the words for it are taken off. -/
theorem step_without {state other : MachineState} (same : state.without part = other.without part)
    {line kept : ProgramLine} (left : line.without? part = some kept) :
    (state.step line).1.without part = (other.step kept).1.without part ∧
      (state.step line).2.map (Event.without part) =
        (other.step kept).2.map (Event.without part) := by
  obtain ⟨foreign, kept_eq⟩ := Option.ite_none_left_eq_some.mp left
  obtain rfl := Option.some.inj kept_eq
  obtain ⟨command, mnemonic, words, message⟩ := line
  cases command with
  | setPosition =>
      have renamed := foldl_without setWord setWord
        (fun _ _ => setWord_without_of_mem) (fun _ _ _ => setWord_without_congr) same words
      exact ⟨renamed, congrArg (fun state => some (Event.positionSet state)) renamed⟩
  | linearMove rapid =>
      have aimed := foldl_without state.aimWord other.aimWord
        (fun _ _ => aimWord_without_of_mem)
        (fun _ _ _ foreign aimed => aimWord_without_congr foreign same aimed) same words
      have moved := motionTo_without part same aimed rapid
      exact ⟨aimed, congrArg (fun motion => some (Event.motion motion)) moved⟩
  | statusMessage => exact ⟨same, rfl⟩
  | other mnemonic => exact ⟨same, rfl⟩
  | _ => cases part <;> simp_all [step, without, isMode]

/-- A line that sets the mode of a part is not seen without it. -/
theorem step_without_eq_self {line : ProgramLine} (gone : line.without? part = none)
    (state : MachineState) :
    (state.step line).1.without part = state.without part ∧ (state.step line).2 = none := by
  have isMode : part.isMode line.command = true := by
    simpa [ProgramLine.without?] using gone
  obtain ⟨command, mnemonic, words, message⟩ := line
  cases part <;> cases command <;> simp_all [MachinePart.isMode, step, without]

/-- A run is seen as before without a part, also when all that is meant for it is taken off. -/
theorem run_without {state other : MachineState} (same : state.without part = other.without part)
    (lines : List ProgramLine) :
    (state.run lines).1.map (Event.without part) =
        (other.run (lines.filterMap (ProgramLine.without? part))).1.map (Event.without part) ∧
      (state.run lines).2.without part =
        (other.run (lines.filterMap (ProgramLine.without? part))).2.without part := by
  induction lines generalizing state other with
  | nil => exact ⟨rfl, same⟩
  | cons line lines induction =>
      rw [List.filterMap_cons]
      cases left : line.without? part with
      | none =>
          obtain ⟨state_eq, event_eq⟩ := step_without_eq_self part left state
          obtain ⟨events_eq, last_eq⟩ := induction (state_eq.trans same)
          refine ⟨?_, last_eq⟩
          rw [run_cons_events, event_eq]
          exact events_eq
      | some kept =>
          obtain ⟨state_eq, event_eq⟩ := step_without part same left
          obtain ⟨events_eq, last_eq⟩ := induction state_eq
          refine ⟨?_, last_eq⟩
          rw [run_cons_events, run_cons_events, List.map_append, List.map_append, events_eq,
            ← Option.toList_map, ← Option.toList_map, event_eq]

end MachineState

/-- Neither part of the machine sees what a program tells the other one.  Let two programs have the
same lines left when the words for a part and the lines that set its mode are taken off, and let
them start in states that differ in this part only.  Then the same happens in both runs, apart from
the part; in particular there are as many motions in them, and without the part they are the same
motions, as are the states at the end. -/
theorem run_independent {part : MachinePart} {first second : List ProgramLine}
    (left : first.filterMap (ProgramLine.without? part) =
      second.filterMap (ProgramLine.without? part))
    {state other : MachineState} (same : state.without part = other.without part) :
    (state.run first).1.map (Event.without part) = (other.run second).1.map (Event.without part) ∧
    (motions (state.run first).1).map (Motion.without part) =
      (motions (other.run second).1).map (Motion.without part) ∧
    (state.run first).2.without part = (other.run second).2.without part := by
  obtain ⟨first_events, first_last⟩ := MachineState.run_without part same first
  obtain ⟨second_events, second_last⟩ :=
    MachineState.run_without part (Eq.refl (other.without part)) second
  rw [left] at first_events first_last
  have events := first_events.trans second_events.symm
  refine ⟨events, ?_, first_last.trans second_last.symm⟩
  rw [← motions_map_without, ← motions_map_without, events]

/-- Moves of the head in both modes, with a renamed position in between. -/
def dryProgram : String :=
  "G91\nG1 X5 Y1\nG92 X1\nG90\nG1 X2 Z3"

/-- The same moves with words and modes for the extruder. -/
def wetProgram : String :=
  "M83\nG91\nG1 E1 X5 E2 Y1\nM82\nG92 X1 E7\nG90\nG1 X2 Z3 E4"

/-- A state with filament behind it. -/
def fedStart : MachineState := { e := 5.0, absoluteExtrusion := false }

theorem run_independent_dry :
    (parseProgram dryProgram).filterMap (ProgramLine.without? extruder) =
        (parseProgram wetProgram).filterMap (ProgramLine.without? extruder) ∧
      MachineState.without extruder {} = MachineState.without extruder fedStart ∧
      (MachineState.run {} (parseProgram dryProgram)).1.map (Event.without extruder) =
        (fedStart.run (parseProgram wetProgram)).1.map (Event.without extruder) ∧
      (motions (MachineState.run {} (parseProgram dryProgram)).1).map (Motion.without extruder) =
        (motions (fedStart.run (parseProgram wetProgram)).1).map (Motion.without extruder) ∧
      (MachineState.run {} (parseProgram dryProgram)).2.without extruder =
        (fedStart.run (parseProgram wetProgram)).2.without extruder := by
  have left : (parseProgram dryProgram).filterMap (ProgramLine.without? extruder) =
      (parseProgram wetProgram).filterMap (ProgramLine.without? extruder) := by
    decide +kernel
  have same : MachineState.without extruder {} = MachineState.without extruder fedStart := rfl
  exact ⟨left, same, run_independent left same⟩

end FlowCalibration
