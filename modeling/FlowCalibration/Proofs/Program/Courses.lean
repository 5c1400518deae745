import FlowCalibration.Proofs.Program.Moves
import FlowCalibration.Proofs.Program.Statement

/-!
# Courses

A course is what a piece of a program does to the machine: from the state at its beginning, what
happens and the state at its end.  Courses are put one after the other, so the course of a program
is that of its lines, and the course of a plate can be written down without any line.
-/

namespace FlowCalibration

/-- What happens from a state on, and the state at the end. -/
abbrev Course := MachineState → List Event × MachineState

namespace Course

/-- Nothing happens. -/
def stay : Course := fun state => ([], state)

/-- One course after another. -/
def andThen (first second : Course) : Course := fun state =>
  ((first state).1 ++ (second (first state).2).1, (second (first state).2).2)

/-- Courses one after the other. -/
def sequence (courses : List Course) : Course :=
  courses.foldr andThen stay

/-- The course of a line. -/
def ofLine (line : ProgramLine) : Course := fun state =>
  ((state.step line).2.toList, (state.step line).1)

/-- The course of a statement. -/
def ofStatement (statement : Statement) : Course :=
  sequence (statement.line?.toList.map ofLine)

@[simp]
theorem sequence_nil : sequence [] = stay := rfl

@[simp]
theorem sequence_cons (course : Course) (courses : List Course) :
    sequence (course :: courses) = course.andThen (sequence courses) := by
  rw [sequence, List.foldr_cons, sequence]

@[simp]
theorem stay_andThen (course : Course) : stay.andThen course = course := by
  funext state
  simp [andThen, stay]

@[simp]
theorem andThen_stay (course : Course) : course.andThen stay = course := by
  funext state
  simp [andThen, stay]

theorem andThen_assoc (first second third : Course) :
    (first.andThen second).andThen third = first.andThen (second.andThen third) := by
  funext state
  simp [andThen, List.append_assoc]

theorem sequence_append (front back : List Course) :
    sequence (front ++ back) = (sequence front).andThen (sequence back) := by
  induction front with
  | nil => rfl
  | cons course front induction =>
      rw [List.cons_append, sequence_cons, sequence_cons, induction, andThen_assoc]

theorem sequence_flatMap {α : Type} (values : List α) (courses : α → List Course) :
    sequence (values.flatMap courses) =
      sequence (values.map fun value => sequence (courses value)) := by
  induction values with
  | nil => rfl
  | cons value values induction =>
      rw [List.flatMap_cons, sequence_append, List.map_cons, sequence_cons, induction]

/-- Running lines is the course of one after the other. -/
theorem run_eq_sequence (lines : List ProgramLine) (state : MachineState) :
    state.run lines = sequence (lines.map ofLine) state := by
  induction lines generalizing state with
  | nil => rfl
  | cons line lines induction =>
      simp only [MachineState.run, induction]
      rfl

theorem run_append (front back : List ProgramLine) (state : MachineState) :
    state.run (front ++ back) =
      ((state.run front).1 ++ ((state.run front).2.run back).1,
        ((state.run front).2.run back).2) := by
  simp only [run_eq_sequence, List.map_append, sequence_append, andThen]

theorem run_filterMap_line? (statements : List Statement) (state : MachineState) :
    state.run (statements.filterMap Statement.line?) =
      sequence (statements.map ofStatement) state := by
  rw [run_eq_sequence, List.filterMap_eq_flatMap_toList, List.map_flatMap, sequence_flatMap]
  rfl

/-! ## Courses that agree -/

/-- Two courses agree from the states with an invariant on, and keep the invariant. -/
def Agree (invariant : MachineState → Prop) (course other : Course) : Prop :=
  ∀ state, invariant state → course state = other state ∧ invariant (other state).2

variable {invariant : MachineState → Prop}

theorem agree_stay : Agree invariant stay stay :=
  fun _ holds => ⟨rfl, holds⟩

theorem Agree.andThen {first first' second second' : Course} (front : Agree invariant first first')
    (back : Agree invariant second second') :
    Agree invariant (first.andThen second) (first'.andThen second') := by
  intro state holds
  obtain ⟨front_eq, between⟩ := front state holds
  obtain ⟨back_eq, after⟩ := back _ between
  refine ⟨?_, after⟩
  simp only [Course.andThen, front_eq, back_eq]

/-! ## Courses of statements -/

/-- A leg is travelled. -/
def leg (leg : Leg) : Course := fun state =>
  ([.motion (state.motionTo (state.follow leg) leg.rapid)], state.follow leg)

/-- A message is shown. -/
def message (text : String) : Course := fun state => ([.status text], state)

/-- The position of the extruder is counted from zero again. -/
def resetExtruder : Course := fun state =>
  ([.positionSet { state with e := 0.0 }], { state with e := 0.0 })

/-- Axis values are positions from now on. -/
def absolutePositioning : Course := fun state => ([], { state with absolutePositioning := true })

/-- Extruder values are lengths from now on. -/
def relativeExtrusion : Course := fun state => ([], { state with absoluteExtrusion := false })

@[simp]
theorem ofStatement_blank : ofStatement .blank = stay := rfl

@[simp]
theorem ofStatement_remark (text : String) : ofStatement (.remark text) = stay := rfl

theorem ofStatement_status (words : List String) :
    ofStatement (.status words) =
      message (String.ofList (List.intercalate [' '] (words.map String.toList))) := rfl

theorem ofStatement_other {mnemonic : String} {arguments : List (Char × Float)}
    {note : Option String}
    (other : Command.ofMnemonic (upperCase mnemonic.toList) = .other mnemonic) :
    ofStatement (.order mnemonic arguments note) = stay := by
  funext state
  simp [ofStatement, Statement.line?, sequence, ofLine, andThen, stay, MachineState.step, other]

theorem ofStatement_absolutePositioning (note : Option String) :
    ofStatement (.order "G90" [] note) = absolutePositioning := by
  have command : Command.ofMnemonic (upperCase "G90".toList) = .absolutePositioning := by decide
  funext state
  simp only [ofStatement, Statement.line?, Option.toList_some, List.map_cons, List.map_nil,
    sequence_cons, sequence_nil, andThen_stay, ofLine, MachineState.step, command]
  rfl

theorem ofStatement_relativeExtrusion (note : Option String) :
    ofStatement (.order "M83" [] note) = relativeExtrusion := by
  have command : Command.ofMnemonic (upperCase "M83".toList) = .relativeExtrusion := by decide
  funext state
  simp only [ofStatement, Statement.line?, Option.toList_some, List.map_cons, List.map_nil,
    sequence_cons, sequence_nil, andThen_stay, ofLine, MachineState.step, command]
  rfl

theorem ofStatement_reset (note : Option String) :
    ofStatement (.order "G92" [('E', 0.0)] note) = resetExtruder := by
  have command : Command.ofMnemonic (upperCase "G92".toList) = .setPosition := by decide
  have letter : 'E'.toUpper = 'E' := by decide
  have zero : Double.shown 0.0 = 0.0 := by decide
  funext state
  simp only [ofStatement, Statement.line?, Option.toList_some, List.map_cons, List.map_nil,
    sequence_cons, sequence_nil, andThen_stay, ofLine, MachineState.step, command,
    MachineState.setPosition, List.foldl_cons, List.foldl_nil, letter, zero]
  rfl

theorem isFinite_shown (value : Float) : (Double.shown value).isFinite = true := by
  have zero : (0.0 : Float).isFinite = true := by decide
  rw [Double.shown]
  split
  next finite =>
    rw [Double.unsignedZero]
    split
    · exact zero
    · exact finite
  next => exact zero

theorem ofMnemonic_rapidMove : Command.ofMnemonic (upperCase "G0".toList) = .linearMove true := by
  decide

theorem ofMnemonic_feedMove : Command.ofMnemonic (upperCase "G1".toList) = .linearMove false := by
  decide

/-- An order that moves travels the leg of its arguments. -/
theorem ofStatement_linearMove {mnemonic : String} {arguments : List (Char × Float)}
    {note : Option String} {line : ProgramLine} {rapid : Bool}
    (line_eq : (Statement.order mnemonic arguments note).line? = some line)
    (command : Command.ofMnemonic (upperCase mnemonic.toList) = .linearMove rapid)
    {state : MachineState} (absolute : state.absolutePositioning = true)
    (relative : state.absoluteExtrusion = false ∨ line.value? 'E' = none) :
    ofStatement (.order mnemonic arguments note) state = leg (.ofLine line rapid) state := by
  have line_command : line.command = .linearMove rapid := by
    rw [← Option.some.inj line_eq]
    exact command
  have finite : ∀ word ∈ line.words, word.value.isFinite = true := by
    rw [← Option.some.inj line_eq]
    intro word member
    obtain ⟨argument, _, rfl⟩ := List.mem_map.mp member
    exact isFinite_shown argument.2
  have step_eq := MachineState.step_linearMove absolute relative line_command finite
  simp only [ofStatement, line_eq, Option.toList_some, List.map_cons, List.map_nil, sequence_cons,
    sequence_nil, andThen_stay, ofLine, step_eq]
  rfl

/-- In the mode of the sites every move is its leg. -/
theorem agree_order {mnemonic : String} {arguments : List (Char × Float)} {note : Option String}
    {line : ProgramLine} {rapid : Bool}
    (line_eq : (Statement.order mnemonic arguments note).line? = some line)
    (command : Command.ofMnemonic (upperCase mnemonic.toList) = .linearMove rapid) :
    Agree MachineState.Working (ofStatement (.order mnemonic arguments note))
      (leg (.ofLine line rapid)) := by
  intro state working
  exact ⟨ofStatement_linearMove line_eq command working.1 (.inl working.2), working.follow _⟩

end Course

end FlowCalibration
