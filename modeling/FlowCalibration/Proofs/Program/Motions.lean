import FlowCalibration.Proofs.Program.Continuity
import FlowCalibration.Proofs.Program.Courses

/-!
# Motions between states

A motion that is reported leads from the state before its line to the state after it.  So motions
that follow one another are a route from state to state, and where each of them ends is read off the
legs that are travelled.
-/

namespace FlowCalibration

/-- Whether a motion is the one from a state to another. -/
structure Motion.Joins (motion : Motion) (before after : MachineState) : Prop where
  /-- It starts where the head is before, -/
  start : motion.start = ⟨before.x, before.y⟩
  /-- and ends where the head is afterwards. -/
  finish : motion.finish = ⟨after.x, after.y⟩
  /-- Its lengths are the differences along the axes and of the extruder, -/
  lengths : motion.dx = after.x - before.x ∧ motion.dy = after.y - before.y ∧
    motion.dz = after.z - before.z ∧ motion.de = after.e - before.e
  /-- and its distance is that of the lengths in the plane. -/
  distance : motion.distance = Double.hypot motion.dx motion.dy

/-- Motions that follow one another from a state on, with the states at their ends. -/
inductive Route : MachineState → List Motion → List MachineState → Prop
  | nil (state : MachineState) : Route state [] []
  | cons {before after : MachineState} {motion : Motion} {motions : List Motion}
      {stops : List MachineState} : motion.Joins before after → Route after motions stops →
      Route before (motion :: motions) (after :: stops)

namespace MachineState

theorem joins_motionTo (before after : MachineState) (rapid : Bool) :
    (before.motionTo after rapid).Joins before after where
  start := rfl
  finish := rfl
  lengths := ⟨rfl, rfl, rfl, rfl⟩
  distance := rfl

theorem joins_of_step {state : MachineState} {line : ProgramLine} {motion : Motion}
    (moves : (state.step line).2 = some (.motion motion)) :
    motion.Joins state (state.step line).1 := by
  obtain ⟨event, _⟩ | ⟨message, event, _⟩ | event | ⟨rapid, event⟩ := state.step_cases line
  · simp [event] at moves
  · simp [event] at moves
  · simp [event] at moves
  · rw [event] at moves
    obtain rfl := Event.motion.inj (Option.some.inj moves)
    exact joins_motionTo _ _ rapid

/-- Every motion of a run joins the states before and after its line. -/
theorem joins_of_mem_run {state : MachineState} {lines : List ProgramLine} {motion : Motion}
    (reported : .motion motion ∈ (state.run lines).1) :
    ∃ front line back, lines = front ++ line :: back ∧
      motion.Joins (state.run front).2 (state.run (front ++ [line])).2 := by
  induction lines generalizing state with
  | nil => contradiction
  | cons line lines induction =>
      rw [run, List.mem_append] at reported
      rcases reported with own | later
      · exact ⟨[], line, lines, rfl, joins_of_step (Option.mem_toList.mp own)⟩
      · obtain ⟨front, moving, back, rfl, joins⟩ := induction later
        exact ⟨line :: front, moving, back, rfl, joins⟩

/-- The states at the ends of legs that are travelled from a state on. -/
def stops (state : MachineState) : List Leg → List MachineState
  | [] => []
  | leg :: legs => state.follow leg :: stops (state.follow leg) legs

end MachineState

namespace Course

/-- Legs that are travelled are a route along their stops. -/
theorem exists_route (state : MachineState) (legs : List Leg) :
    ∃ motions, (sequence (legs.map leg) state).1 = motions.map .motion ∧
      Route state motions (state.stops legs) := by
  induction legs generalizing state with
  | nil => exact ⟨[], rfl, .nil state⟩
  | cons first legs induction =>
      obtain ⟨motions, events, route⟩ := induction (state.follow first)
      refine ⟨state.motionTo (state.follow first) first.rapid :: motions, ?_,
        .cons (state.joins_motionTo _ _) route⟩
      rw [List.map_cons, sequence_cons, List.map_cons, ← events]
      rfl

end Course

end FlowCalibration
