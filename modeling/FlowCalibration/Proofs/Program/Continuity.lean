import FlowCalibration.Proofs.Program.Finiteness

/-!
# The trace of a run

The events of a run say where the head is: a motion where it starts and where it ends, a renamed
position where it is from then on.  What they say fits together.  A motion starts where the events
before it left the head, the last state is where the last event left it, and all positions are
finite.
-/

namespace FlowCalibration

/-- Whether both coordinates of a point are finite. -/
def Point.Finite (point : Point) : Prop :=
  point.x.isFinite = true ∧ point.y.isFinite = true

namespace Event

/-- Where an event leaves the head; a message does not say. -/
def position? : Event → Option Point
  | .motion move => some move.finish
  | .positionSet state => some state.position
  | .status _ => none

/-- Whether the positions of an event are finite. -/
def Finite : Event → Prop
  | .motion move => move.start.Finite ∧ move.finish.Finite
  | .positionSet state => state.Finite
  | .status _ => True

end Event

/-- Where events leave a head that starts at a point: at the position of the last event that has
one. -/
def positionAfter (start : Point) (events : List Event) : Point :=
  (events.filterMap Event.position?).getLast?.getD start

theorem positionAfter_cons (start : Point) (event : Event) (events : List Event) :
    positionAfter start (event :: events) =
      positionAfter (event.position?.getD start) events := by
  rw [positionAfter, positionAfter, List.filterMap_cons]
  cases event.position? with
  | none => rfl
  | some position => rw [List.getLast?_cons, Option.getD_some, Option.getD_some]

theorem positionAfter_of_forall {events : List Event}
    (silent : ∀ event ∈ events, event.position? = none) (start : Point) :
    positionAfter start events = start := by
  rw [positionAfter, List.filterMap_eq_nil_iff.mpr silent]
  rfl

namespace MachineState

/-! ## One line -/

/-- What a line does: nothing that is seen, a message, a renamed position or a motion. -/
theorem step_cases (state : MachineState) (line : ProgramLine) :
    ((state.step line).2 = none ∧ (state.step line).1.position = state.position) ∨
      (∃ message, (state.step line).2 = some (.status message) ∧ (state.step line).1 = state) ∨
      (state.step line).2 = some (.positionSet (state.step line).1) ∨
      ∃ rapid, (state.step line).2 =
        some (.motion (state.motionTo (state.step line).1 rapid)) := by
  rw [step]
  split
  case h_5 => exact .inr (.inr (.inl rfl))
  case h_6 rapid _ => exact .inr (.inr (.inr ⟨rapid, rfl⟩))
  case h_7 =>
      cases line.message with
      | none => exact .inl ⟨rfl, rfl⟩
      | some message => exact .inr (.inl ⟨message, rfl, rfl⟩)
  all_goals exact .inl ⟨rfl, rfl⟩

theorem position_step (state : MachineState) (line : ProgramLine) :
    (state.step line).1.position =
      ((state.step line).2.bind Event.position?).getD state.position := by
  obtain ⟨event, kept⟩ | ⟨message, event, kept⟩ | event | ⟨rapid, event⟩ := state.step_cases line
  · rw [event, kept]
    rfl
  · rw [event, kept]
    rfl
  · rw [event]
    rfl
  · rw [event]
    rfl

theorem start_of_step {state : MachineState} {line : ProgramLine} {motion : Motion}
    (moves : (state.step line).2 = some (.motion motion)) : motion.start = state.position := by
  obtain ⟨event, _⟩ | ⟨message, event, _⟩ | event | ⟨rapid, event⟩ := state.step_cases line
  · simp [event] at moves
  · simp [event] at moves
  · simp [event] at moves
  · rw [event] at moves
    obtain rfl := Event.motion.inj (Option.some.inj moves)
    rfl

theorem Finite.position {state : MachineState} (finite : state.Finite) : state.position.Finite :=
  ⟨finite.x, finite.y⟩

theorem Finite.event {state : MachineState} (finite : state.Finite) {line : ProgramLine}
    (line_finite : line.Finite) {event : Event} (happens : (state.step line).2 = some event) :
    event.Finite := by
  have next_finite := finite.step line_finite
  obtain ⟨none_eq, _⟩ | ⟨message, event_eq, _⟩ | event_eq | ⟨rapid, event_eq⟩ :=
    state.step_cases line
  · simp [none_eq] at happens
  · obtain rfl := Option.some.inj (event_eq.symm.trans happens)
    trivial
  · obtain rfl := Option.some.inj (event_eq.symm.trans happens)
    exact next_finite
  · obtain rfl := Option.some.inj (event_eq.symm.trans happens)
    exact ⟨finite.position, next_finite.position⟩

/-! ## Runs -/

theorem run_cons_events (state : MachineState) (line : ProgramLine) (lines : List ProgramLine) :
    (state.run (line :: lines)).1 =
      (state.step line).2.toList ++ ((state.step line).1.run lines).1 :=
  rfl

/-- Behind the first line of a run the events go on from where its event leaves the head. -/
theorem positionAfter_step (state : MachineState) (line : ProgramLine) (events : List Event) :
    positionAfter state.position ((state.step line).2.toList ++ events) =
      positionAfter (state.step line).1.position events := by
  rw [position_step]
  cases (state.step line).2 with
  | none => rfl
  | some event => exact positionAfter_cons _ event events

theorem position_run (state : MachineState) (lines : List ProgramLine) :
    (state.run lines).2.position = positionAfter state.position (state.run lines).1 := by
  induction lines generalizing state with
  | nil => rfl
  | cons line lines induction =>
      rw [run_cons_events, positionAfter_step, ← induction]
      rfl

/-- A motion of a run starts where the events before it leave the head. -/
theorem start_of_run {state : MachineState} {lines : List ProgramLine} {front back : List Event}
    {motion : Motion} (events : (state.run lines).1 = front ++ .motion motion :: back) :
    motion.start = positionAfter state.position front := by
  induction lines generalizing state front with
  | nil => simp [run] at events
  | cons line lines induction =>
      rw [run_cons_events] at events
      have continued := state.positionAfter_step line
      cases event_eq : (state.step line).2 with
      | none =>
          rw [event_eq] at events continued
          rw [induction events, ← continued]
          rfl
      | some event =>
          rw [event_eq, Option.toList_some] at events continued
          cases front with
          | nil =>
              obtain ⟨rfl, _⟩ := List.cons.inj events
              exact start_of_step event_eq
          | cons first front =>
              obtain ⟨rfl, rest⟩ := List.cons.inj events
              rw [induction rest, ← continued]
              rfl

/-- All events of a run from a finite state are finite. -/
theorem Finite.events {state : MachineState} (finite : state.Finite) {lines : List ProgramLine}
    (lines_finite : ∀ line ∈ lines, line.Finite) : ∀ event ∈ (state.run lines).1, event.Finite := by
  induction lines generalizing state with
  | nil => exact List.forall_mem_nil _
  | cons line lines induction =>
      obtain ⟨line_finite, rest_finite⟩ := List.forall_mem_cons.mp lines_finite
      rw [run_cons_events, List.forall_mem_append]
      refine ⟨fun event member => ?_, induction (finite.step line_finite) rest_finite⟩
      exact finite.event line_finite (Option.mem_toList.mp member)

end MachineState

/-! ## Replays -/

/-- Where every replay starts. -/
def startPosition : Point := ⟨0.0, 0.0⟩

/-- The trace of a program fits together. -/
structure Traces (program : String) : Prop where
  /-- After each line all coordinates of the machine are finite. -/
  state_finite : ∀ lines, lines <+: parseProgram program →
    (MachineState.run {} lines).2.Finite
  /-- So are the positions of all events. -/
  event_finite : ∀ event ∈ (replay program).1, event.Finite
  /-- A motion starts where the events before it leave the head, -/
  motion_start : ∀ (front back : List Event) (motion : Motion),
    (replay program).1 = front ++ .motion motion :: back →
      motion.start = positionAfter startPosition front
  /-- at the origin if none of them moves or renames it. -/
  first_start : ∀ (front back : List Event) (motion : Motion),
    (replay program).1 = front ++ .motion motion :: back →
      (∀ event ∈ front, event.position? = none) → motion.start = startPosition
  /-- The head ends where the events leave it. -/
  last_position : (replay program).2.position = positionAfter startPosition (replay program).1

/-- Every trace fits together. -/
theorem traces_replay (program : String) : Traces program := by
  have lines_finite : ∀ line ∈ parseProgram program, line.Finite :=
    fun _ member => finite_of_mem_parseProgram member
  have start_eq {front back : List Event} {motion : Motion}
      (events : (replay program).1 = front ++ .motion motion :: back) :
      motion.start = positionAfter startPosition front := MachineState.start_of_run events
  refine ⟨?_, MachineState.finite_start.events lines_finite, fun _ _ _ => start_eq, ?_,
    MachineState.position_run {} (parseProgram program)⟩
  · intro lines isPrefix
    exact MachineState.finite_start.run fun line member =>
      lines_finite line (isPrefix.subset member)
  · intro front back motion events silent
    rw [start_eq events, positionAfter_of_forall silent]

/-- A state whose position was renamed before anything moved. -/
def renamedStart : MachineState := { x := 5.0 }

/-- The motion from there along X. -/
def renamedMotion : Motion := renamedStart.motionTo { x := 10.0 } false

/-- The first motion of a program starts elsewhere when the position is renamed before it. -/
theorem start_renamed_ne :
    (replay "G92 X5\nG1 X10").1 = [.positionSet renamedStart] ++ .motion renamedMotion :: [] ∧
      renamedMotion.start ≠ startPosition := by
  decide +kernel

end FlowCalibration
