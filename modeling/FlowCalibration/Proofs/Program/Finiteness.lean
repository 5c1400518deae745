import FlowCalibration.Proofs.Decimal.Scanning
import FlowCalibration.Proofs.Program.Moves

/-!
# States stay finite

Every number that is read from a program is finite, and a move to a target that is not finite is
not made.  So all coordinates of all states in a run from a finite state are finite.
-/

namespace FlowCalibration

namespace ProgramLine

/-- Whether all words of a line have finite numbers. -/
def Finite (line : ProgramLine) : Prop :=
  ∀ word ∈ line.words, word.value.isFinite = true

theorem isFinite_of_wordOf? {token : List Char} {word : Word} (read : wordOf? token = some word) :
    word.value.isFinite = true := by
  cases token with
  | nil => contradiction
  | cons letter digits =>
      obtain rfl := Option.some.inj read
      cases value_eq : readNumber? digits with
      | none =>
          simp only [Option.getD_none]
          decide
      | some value => simpa [value_eq] using isFinite_of_readNumber? value_eq

theorem finite_of_parse? {text : List Char} {line : ProgramLine} (read : parse? text = some line) :
    line.Finite := by
  rw [parse?] at read
  split at read
  · contradiction
  · obtain rfl := Option.some.inj read
    intro word member
    obtain ⟨token, _, word_eq⟩ := List.mem_filterMap.mp member
    exact isFinite_of_wordOf? word_eq

end ProgramLine

theorem finite_of_mem_parseProgram {program : String} {line : ProgramLine}
    (member : line ∈ parseProgram program) : line.Finite := by
  obtain ⟨text, _, read⟩ := List.mem_filterMap.mp member
  exact ProgramLine.finite_of_parse? read

namespace MachineState

/-- Whether all coordinates of a state are finite. -/
structure Finite (state : MachineState) : Prop where
  x : state.x.isFinite = true
  y : state.y.isFinite = true
  z : state.z.isFinite = true
  e : state.e.isFinite = true

theorem finite_start : Finite {} := by
  constructor <;> decide

theorem isFinite_finiteOr {target current : Float} (finite : current.isFinite = true) :
    (finiteOr target current).isFinite = true := by
  rw [finiteOr]
  split
  next target_finite => exact target_finite
  next => exact finite

theorem isFinite_getD_lastValue? {words : List Word}
    (finite : ∀ word ∈ words, word.value.isFinite = true) (letter : Char) {current : Float}
    (current_finite : current.isFinite = true) :
    ((ProgramLine.lastValue? words letter).getD current).isFinite = true := by
  cases last : ProgramLine.lastValue? words letter with
  | none => exact current_finite
  | some value =>
      obtain ⟨word, member, rfl⟩ := ProgramLine.mem_of_lastValue? last
      exact finite word member

theorem isFinite_aimed {words : List Word} {letter : Char} {place : Float → Float}
    {current : Float} (finite : current.isFinite = true) :
    (aimed words letter place current).isFinite = true := by
  rw [aimed]
  cases ProgramLine.lastValue? words letter with
  | none => exact finite
  | some value => exact isFinite_finiteOr finite

theorem Finite.step {state : MachineState} (finite : state.Finite) {line : ProgramLine}
    (line_finite : line.Finite) : (state.step line).1.Finite := by
  rw [MachineState.step]
  split
  case h_1 => exact ⟨finite.x, finite.y, finite.z, finite.e⟩
  case h_2 => exact ⟨finite.x, finite.y, finite.z, finite.e⟩
  case h_3 => exact ⟨finite.x, finite.y, finite.z, finite.e⟩
  case h_4 => exact ⟨finite.x, finite.y, finite.z, finite.e⟩
  case h_5 =>
      simp only [setPosition, foldl_setWord]
      exact ⟨isFinite_getD_lastValue? line_finite 'X' finite.x,
        isFinite_getD_lastValue? line_finite 'Y' finite.y,
        isFinite_getD_lastValue? line_finite 'Z' finite.z,
        isFinite_getD_lastValue? line_finite 'E' finite.e⟩
  case h_6 =>
      simp only [target, foldl_aimWord]
      exact ⟨isFinite_aimed finite.x, isFinite_aimed finite.y, isFinite_aimed finite.z,
        isFinite_aimed finite.e⟩
  case h_7 => exact finite
  case h_8 => exact finite

theorem Finite.run {state : MachineState} (finite : state.Finite) {lines : List ProgramLine}
    (lines_finite : ∀ line ∈ lines, line.Finite) : (state.run lines).2.Finite := by
  induction lines generalizing state with
  | nil => exact finite
  | cons line lines induction =>
      simp only [MachineState.run]
      exact induction (finite.step (lines_finite line List.mem_cons_self))
        fun other member => lines_finite other (List.mem_cons_of_mem _ member)

end MachineState

/-- Every program ends in a finite state. -/
theorem finite_replay (program : String) : (replay program).2.Finite :=
  MachineState.finite_start.run fun _ member => finite_of_mem_parseProgram member

end FlowCalibration
