import FlowCalibration.Proofs.Program.Moves

/-!
# The last word of each letter

A line may have several words with one letter.  The machine goes through all of them, but it always
looks at the state before the line, so the line does what reading the last word of each letter once
does: nothing adds up, a word in front of a later one with its letter is as good as not there, and
a coordinate whose last word aims beyond the finite numbers stays where it is.
-/

namespace FlowCalibration

namespace ProgramLine

theorem lastValue?_append_list (front back : List Word) (letter : Char) :
    lastValue? (front ++ back) letter = (lastValue? back letter).or (lastValue? front letter) := by
  rw [lastValue?, List.reverse_append, List.find?_append, Option.map_or, lastValue?, lastValue?]

theorem lastValue?_cons (word : Word) (back : List Word) (letter : Char) :
    lastValue? (word :: back) letter =
      (lastValue? back letter).or (if word.letter = letter then some word.value else none) := by
  have alone := lastValue?_append [] word letter
  rw [← List.singleton_append, lastValue?_append_list]
  exact congrArg _ alone

/-- The value of a letter is that of the word with this letter behind which there is no other. -/
theorem lastValue?_eq_some_iff {words : List Word} {letter : Char} {value : Float} :
    lastValue? words letter = some value ↔
      ∃ front word back, words = front ++ word :: back ∧ word.letter = letter ∧
        word.value = value ∧ ∀ later ∈ back, later.letter ≠ letter := by
  rw [lastValue?, Option.map_eq_some_iff]
  simp only [List.find?_eq_some_iff_append]
  constructor
  · rintro ⟨word, ⟨own, after, before, reversed, others⟩, rfl⟩
    refine ⟨before.reverse, word, after.reverse, ?_, by simpa using own, rfl, ?_⟩
    · simpa using congrArg List.reverse reversed
    · intro later member
      simpa using others later (List.mem_reverse.mp member)
  · rintro ⟨front, word, back, rfl, own, rfl, others⟩
    refine ⟨word, ⟨by simpa using own, back.reverse, front.reverse, by simp, ?_⟩, rfl⟩
    intro later member
    simpa using others later (List.mem_reverse.mp member)

theorem lastValue?_of_repeated {earlier later : Word} (same : earlier.letter = later.letter)
    (front middle back : List Word) (letter : Char) :
    lastValue? (front ++ earlier :: (middle ++ later :: back)) letter =
      lastValue? (front ++ (middle ++ later :: back)) letter := by
  rw [lastValue?_append_list, lastValue?_append_list front, lastValue?_cons earlier]
  by_cases own : earlier.letter = letter
  · obtain ⟨value, found⟩ : ∃ value, lastValue? (middle ++ later :: back) letter = some value := by
      rw [lastValue?_append_list, lastValue?_cons, if_pos (same ▸ own)]
      cases lastValue? back letter with
      | none => exact ⟨later.value, rfl⟩
      | some value => exact ⟨value, rfl⟩
    simp only [found, Option.some_or]
  · rw [if_neg own, Option.or_none]

end ProgramLine

/-- The coordinates of the machine. -/
inductive Coordinate
  | x | y | z | e
  deriving DecidableEq

/-- Letter of the words for a coordinate. -/
def Coordinate.letter : Coordinate → Char
  | x => 'X'
  | y => 'Y'
  | z => 'Z'
  | e => 'E'

namespace MachineState

/-- The value of a coordinate. -/
def coordinate (state : MachineState) : Coordinate → Float
  | .x => state.x
  | .y => state.y
  | .z => state.z
  | .e => state.e

/-- The state in the same modes with other values of its coordinates. -/
def withCoordinates (state : MachineState) (value : Coordinate → Float) : MachineState :=
  { state with x := value .x, y := value .y, z := value .z, e := value .e }

/-- Whether the values for a coordinate are positions. -/
def isAbsolute (state : MachineState) : Coordinate → Bool
  | .e => state.absoluteExtrusion
  | _ => state.absolutePositioning

/-- What a value asks of a coordinate: to go to a position, or on by a distance. -/
def goal (state : MachineState) (coordinate : Coordinate) (value : Float) : Float :=
  if state.isAbsolute coordinate then value else state.coordinate coordinate + value

/-- Where a value takes a coordinate: to its goal, or nowhere when that is not finite. -/
def reached (state : MachineState) (coordinate : Coordinate) (value : Float) : Float :=
  let goal := state.goal coordinate value
  if goal.isFinite then goal else state.coordinate coordinate

/-- The state after the position is renamed by the last word for each coordinate. -/
def renamedBy (state : MachineState) (line : ProgramLine) : MachineState :=
  state.withCoordinates fun coordinate =>
    (line.value? coordinate.letter).getD (state.coordinate coordinate)

/-- The state after a move by the last word for each coordinate. -/
def movedBy (state : MachineState) (line : ProgramLine) : MachineState :=
  state.withCoordinates fun coordinate =>
    ((line.value? coordinate.letter).map (state.reached coordinate)).getD
      (state.coordinate coordinate)

theorem setPosition_eq_renamedBy (state : MachineState) (line : ProgramLine) :
    state.setPosition line = state.renamedBy line := by
  rw [setPosition, foldl_setWord]
  rfl

theorem target_eq_movedBy (state : MachineState) (line : ProgramLine) :
    state.target line = state.movedBy line := by
  rw [target, foldl_aimWord]
  rfl

/-- What a line does depends on its command, its message and the last word of each letter. -/
theorem step_congr {line other : ProgramLine} (command : line.command = other.command)
    (message : line.message = other.message)
    (values : ∀ letter, line.value? letter = other.value? letter) (state : MachineState) :
    state.step line = state.step other := by
  have renamed : state.setPosition line = state.setPosition other := by
    simp only [setPosition_eq_renamedBy, renamedBy, values]
  have moved : state.target line = state.target other := by
    simp only [target_eq_movedBy, movedBy, values]
  simp only [step, command, message, renamed, moved]

/-- A coordinate stays where it is when its last word aims beyond the finite numbers. -/
theorem coordinate_target_of_overflow {state : MachineState} {line : ProgramLine}
    {coordinate : Coordinate} {value : Float} (last : line.value? coordinate.letter = some value)
    (overflow : (state.goal coordinate value).isFinite = false) :
    (state.target line).coordinate coordinate = state.coordinate coordinate := by
  have kept : state.reached coordinate value = state.coordinate coordinate := by
    simp only [reached, overflow, Bool.false_eq_true, if_false]
  rw [target_eq_movedBy, movedBy]
  cases coordinate <;>
    simpa only [withCoordinates, MachineState.coordinate, last, Option.map_some, Option.getD_some]
      using kept

/-- Whether a state is changed by a line as by the last word of each letter. -/
structure ReadsLastWords (state : MachineState) (line : ProgramLine) : Prop where
  /-- The value of a letter is that of the last word with it. -/
  last (letter : Char) (value : Float) : line.value? letter = some value ↔
    ∃ front word back, line.words = front ++ word :: back ∧ word.letter = letter ∧
      word.value = value ∧ ∀ later ∈ back, later.letter ≠ letter
  /-- Each coordinate is renamed once, -/
  setPosition : state.setPosition line = state.renamedBy line
  /-- or moved once, from where it was before the line, -/
  target : state.target line = state.movedBy line
  /-- and the motion of the line leads there. -/
  step_linearMove (rapid : Bool) : line.command = .linearMove rapid →
    state.step line =
      (state.movedBy line, some (.motion (state.motionTo (state.movedBy line) rapid)))
  /-- A word in front of a later one with its letter can be taken off. -/
  step_of_repeated (front middle back : List Word) (earlier later : Word) :
    line.words = front ++ earlier :: (middle ++ later :: back) → earlier.letter = later.letter →
      state.step { line with words := front ++ (middle ++ later :: back) } = state.step line
  /-- A coordinate whose last word aims beyond the finite numbers is not moved. -/
  stays (coordinate : Coordinate) (value : Float) : line.value? coordinate.letter = some value →
    (state.goal coordinate value).isFinite = false →
      (state.target line).coordinate coordinate = state.coordinate coordinate

/-- Every line changes every state as the last word of each letter does. -/
theorem readsLastWords (state : MachineState) (line : ProgramLine) : state.ReadsLastWords line where
  last _ _ := ProgramLine.lastValue?_eq_some_iff
  setPosition := state.setPosition_eq_renamedBy line
  target := state.target_eq_movedBy line
  step_linearMove rapid command := by
    rw [step, command, target_eq_movedBy]
  step_of_repeated front middle back earlier later words same := by
    have seen (letter : Char) :
        { line with words := front ++ (middle ++ later :: back) }.value? letter =
          line.value? letter := by
      have kept := ProgramLine.lastValue?_of_repeated same front middle back letter
      rw [← words] at kept
      exact kept.symm
    refine step_congr ?_ ?_ seen state
    · rfl
    · rfl
  stays _ _ := coordinate_target_of_overflow

end MachineState

end FlowCalibration
