import FlowCalibration.Proofs.Program.Courses

/-!
# Where a program prints

A program prints on the motions of its `G1` lines that push filament, that is, whose word for the
extruder is positive.  Of such a motion it counts where it starts and where it ends.  Statements
that move along legs print on those legs that push filament and are not rapid.
-/

namespace FlowCalibration

/-- Where a motion starts and where it ends. -/
abbrev Stroke := Point × Point

/-- The ends of a motion. -/
def Motion.stroke (motion : Motion) : Stroke :=
  (motion.start, motion.finish)

/-- Whether a length of filament is pushed. -/
def pushes (length : Option Float) : Bool :=
  length.any fun length => 0.0 < length

/-- What is printed between two points with a length of filament. -/
def drawn (push : Option Float) (stroke : Stroke) : List Stroke :=
  if pushes push then [stroke] else []

namespace MachineState

/-- The motion of a `G1` line that pushes filament. -/
def printed? (state : MachineState) (line : ProgramLine) : Option Motion :=
  match line.command, (state.step line).2 with
  | .linearMove false, some (.motion motion) =>
      if pushes (line.value? 'E') then some motion else none
  | _, _ => none

/-- The motions on which a run of lines prints, in order. -/
def printing (state : MachineState) : List ProgramLine → List Motion
  | [] => []
  | line :: lines => (state.printed? line).toList ++ (state.step line).1.printing lines

/-- Where a run of lines prints. -/
def strokes (state : MachineState) (lines : List ProgramLine) : List Stroke :=
  (state.printing lines).map Motion.stroke

theorem strokes_cons (state : MachineState) (line : ProgramLine) (lines : List ProgramLine) :
    state.strokes (line :: lines) =
      ((state.printed? line).map Motion.stroke).toList ++ (state.step line).1.strokes lines := by
  rw [strokes, printing, List.map_append, strokes]
  cases state.printed? line <;> rfl

theorem printed?_of_ne {state : MachineState} {line : ProgramLine}
    (quiet : line.command ≠ .linearMove false) : state.printed? line = none := by
  rw [printed?]
  split
  next feed _ => exact absurd feed quiet
  next => rfl

/-- A `G1` line prints its motion if it pushes filament. -/
theorem printed?_feed {state : MachineState} {line : ProgramLine} {motion : Motion}
    (command : line.command = .linearMove false)
    (event : (state.step line).2 = some (.motion motion)) :
    ((state.printed? line).map Motion.stroke).toList =
      drawn (line.value? 'E') motion.stroke := by
  simp only [printed?, command, event, drawn]
  split <;> rfl

theorem strokes_append_of_quiet {lines : List ProgramLine}
    (quiet : ∀ line ∈ lines, line.command ≠ .linearMove false) (state : MachineState)
    (rest : List ProgramLine) :
    state.strokes (lines ++ rest) = (state.run lines).2.strokes rest := by
  induction lines generalizing state with
  | nil => rfl
  | cons line lines induction =>
      obtain ⟨line_quiet, lines_quiet⟩ := List.forall_mem_cons.mp quiet
      rw [List.cons_append, strokes_cons, printed?_of_ne line_quiet, induction lines_quiet]
      rfl

theorem strokes_of_quiet {lines : List ProgramLine}
    (quiet : ∀ line ∈ lines, line.command ≠ .linearMove false) (state : MachineState) :
    state.strokes lines = [] := by
  have drawn := strokes_append_of_quiet quiet state []
  rwa [List.append_nil] at drawn

end MachineState

/-- A statement that is no `G1`. -/
def Statement.Quiet (statement : Statement) : Prop :=
  ∀ line ∈ statement.line?, line.command ≠ .linearMove false

namespace Statement

theorem quiet_blank : blank.Quiet := by
  simp [Quiet, line?]

theorem quiet_remark (text : String) : (remark text).Quiet := by
  simp [Quiet, line?]

theorem quiet_status (words : List String) : (status words).Quiet := by
  rintro line ⟨⟩
  simp

theorem quiet_order {mnemonic : String} {arguments : List (Char × Float)} {note : Option String}
    (command : Command.ofMnemonic (upperCase mnemonic.toList) ≠ .linearMove false) :
    (order mnemonic arguments note).Quiet := by
  rintro line ⟨⟩
  exact command

theorem quiet_lines {statements : List Statement}
    (quiet : ∀ statement ∈ statements, statement.Quiet) :
    ∀ line ∈ statements.filterMap line?, line.command ≠ .linearMove false := by
  intro line member
  obtain ⟨statement, statement_mem, line_eq⟩ := List.mem_filterMap.mp member
  exact quiet statement statement_mem line line_eq

end Statement

/-! ## Legs -/

/-- Where a leg ends that starts at a point. -/
def Leg.reach (leg : Leg) (position : Point) : Point :=
  ⟨leg.x.getD position.x, leg.y.getD position.y⟩

/-- Where legs end that start at a point. -/
def reachAll (position : Point) (legs : List Leg) : Point :=
  legs.foldl (fun position leg => leg.reach position) position

/-- Where legs print that start at a point. -/
def legStrokes (position : Point) : List Leg → List Stroke
  | [] => []
  | leg :: legs =>
      (if leg.rapid then [] else drawn leg.push (position, leg.reach position)) ++
        legStrokes (leg.reach position) legs

theorem legStrokes_nil (position : Point) : legStrokes position [] = [] := rfl

theorem legStrokes_rapid (position : Point) (x y z : Option Float) (legs : List Leg) :
    legStrokes position ({ x, y, z } :: legs) =
      legStrokes ⟨x.getD position.x, y.getD position.y⟩ legs := by
  rw [legStrokes, if_pos rfl, List.nil_append]
  rfl

theorem legStrokes_feed (position : Point) (x y z push : Option Float) (legs : List Leg) :
    legStrokes position ({ x, y, z, push, rapid := false } :: legs) =
      drawn push (position, ⟨x.getD position.x, y.getD position.y⟩) ++
        legStrokes ⟨x.getD position.x, y.getD position.y⟩ legs := by
  rw [legStrokes, if_neg Bool.false_ne_true]
  rfl

theorem legStrokes_append (position : Point) (front back : List Leg) :
    legStrokes position (front ++ back) =
      legStrokes position front ++ legStrokes (reachAll position front) back := by
  induction front generalizing position with
  | nil => rfl
  | cons leg front induction =>
      rw [List.cons_append, legStrokes, legStrokes, induction, List.append_assoc]
      rfl

/-- Statements print where legs do, from every state in the mode of the sites; they keep that mode
and end where the legs end. -/
def Draws (statements : List Statement) (legs : List Leg) : Prop :=
  ∀ (state : MachineState) (lines : List ProgramLine), state.Working →
    ∃ after : MachineState, after.Working ∧ after.position = reachAll state.position legs ∧
      state.strokes (statements.filterMap Statement.line? ++ lines) =
        legStrokes state.position legs ++ after.strokes lines

namespace Draws

open MachineState

variable {front back : List Statement} {frontLegs backLegs : List Leg}

theorem nil : Draws [] [] :=
  fun state _ working => ⟨state, working, rfl, rfl⟩

theorem append (front_draws : Draws front frontLegs) (back_draws : Draws back backLegs) :
    Draws (front ++ back) (frontLegs ++ backLegs) := by
  intro state lines working
  obtain ⟨between, between_working, between_position, front_strokes⟩ :=
    front_draws state (back.filterMap Statement.line? ++ lines) working
  obtain ⟨after, after_working, after_position, back_strokes⟩ :=
    back_draws between lines between_working
  refine ⟨after, after_working, ?_, ?_⟩
  · rw [after_position, between_position, reachAll, reachAll, reachAll, List.foldl_append]
  · rw [List.filterMap_append, List.append_assoc, front_strokes, back_strokes, legStrokes_append,
      between_position, List.append_assoc]

theorem quiet_cons {statement : Statement} {statements : List Statement} {legs : List Leg}
    (quiet : Draws [statement] []) (draws : Draws statements legs) :
    Draws (statement :: statements) legs :=
  quiet.append draws

theorem leg_cons {statement : Statement} {statements : List Statement} {leg : Leg}
    {legs : List Leg} (first : Draws [statement] [leg]) (draws : Draws statements legs) :
    Draws (statement :: statements) (leg :: legs) :=
  first.append draws

/-- A statement draws nothing that is no `G1` and leaves the head and the mode of the sites
alone. -/
theorem still {statement : Statement} (quiet : statement.Quiet)
    (kept : ∀ state : MachineState, state.Working →
      (Course.ofStatement statement state).2.Working ∧
        (Course.ofStatement statement state).2.position = state.position) :
    Draws [statement] [] := by
  intro state lines working
  obtain ⟨after_working, after_position⟩ := kept state working
  refine ⟨(Course.ofStatement statement state).2, after_working, after_position, ?_⟩
  cases line_eq : statement.line? with
  | none =>
      simp only [Course.ofStatement, List.filterMap_cons, line_eq, List.filterMap_nil]
      rfl
  | some line =>
      simp only [Course.ofStatement, List.filterMap_cons, line_eq, List.filterMap_nil,
        List.singleton_append, strokes_cons, printed?_of_ne (quiet line line_eq)]
      rfl

theorem stay {statement : Statement} (quiet : statement.Quiet)
    (nothing : Course.ofStatement statement = Course.stay) : Draws [statement] [] := by
  refine still quiet fun state working => ?_
  rw [nothing]
  exact ⟨working, rfl⟩

theorem move {mnemonic : String} {arguments : List (Char × Float)} {note : Option String}
    {line : ProgramLine} {rapid : Bool} {leg : Leg}
    (line_eq : (Statement.order mnemonic arguments note).line? = some line)
    (command : Command.ofMnemonic (upperCase mnemonic.toList) = .linearMove rapid)
    (leg_eq : Leg.ofLine line rapid = leg) :
    Draws [.order mnemonic arguments note] [leg] := by
  subst leg_eq
  intro state lines working
  have line_command : line.command = .linearMove rapid := by
    rw [← Option.some.inj line_eq]
    exact command
  have finite : ∀ word ∈ line.words, word.value.isFinite = true := by
    rw [← Option.some.inj line_eq]
    intro word member
    obtain ⟨argument, _, rfl⟩ := List.mem_map.mp member
    exact Course.isFinite_shown argument.2
  have step_eq := step_linearMove working.1 (.inl working.2) line_command finite
  refine ⟨state.follow (.ofLine line rapid), working.follow _, rfl, ?_⟩
  simp only [List.filterMap_cons, line_eq, List.filterMap_nil, List.singleton_append, strokes_cons,
    legStrokes, List.append_nil]
  congr 1
  · cases rapid with
    | true =>
        have quiet : line.command ≠ .linearMove false := by simp [line_command]
        rw [printed?_of_ne quiet]
        rfl
    | false =>
        rw [printed?_feed line_command (congrArg Prod.snd step_eq)]
        rfl
  · rw [step_eq]

end Draws

end FlowCalibration
