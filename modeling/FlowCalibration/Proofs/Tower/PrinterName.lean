import FlowCalibration.Printer.Normalize
import FlowCalibration.Proofs.Program.Finiteness
import FlowCalibration.Proofs.Tower.Accounting
import FlowCalibration.Proofs.Tower.Replay

/-!
# The name of the printer

The name of the printer stands in a remark, but a line feed in it ends the remark, and what follows
is read as a part of the program.  Two names are interchangeable exactly when what they bring into
the program does the same up to the head of the program, which overwrites some of it.
-/

namespace FlowCalibration

namespace MachineState

theorem isSome_step (state other : MachineState) (line : ProgramLine) :
    (state.step line).2.isSome = (other.step line).2.isSome := by
  rw [step, step]
  cases line.command <;> simp only [Option.isSome_some, Option.isSome_map, Option.isSome_none]

theorem length_run (state other : MachineState) (lines : List ProgramLine) :
    (state.run lines).1.length = (other.run lines).1.length := by
  induction lines generalizing state other with
  | nil => rfl
  | cons line lines induction =>
      have event : (state.step line).2.toList.length = (other.step line).2.toList.length := by
        have same := isSome_step state other line
        cases left : (state.step line).2 <;> cases right : (other.step line).2 <;>
          simp_all
      simp only [run, List.length_append, event, induction (state.step line).1 (other.step line).1]

end MachineState

namespace Tower

open Course

/-- The tower on a printer of another name. -/
def renamed (tower : Tower) (model : String) : Tower :=
  { tower with profile := { tower.profile with model } }

/-- What is printed does not depend on the name of the printer. -/
theorem plans_renamed (tower : Tower) (model : String) :
    (tower.renamed model).plans = tower.plans :=
  plans_congr rfl rfl rfl

theorem plans_ne_nil (tower : Tower) : tower.plans ≠ [] := by
  rw [plans]
  split
  · simp
  · simp [Layout.plateCount]

/-- What the head of a program keeps of the state before it. -/
def SameBeforeHead (state other : MachineState) : Prop :=
  state.x = other.x ∧ state.y = other.y ∧ homeLift - state.z = homeLift - other.z ∧
    state.absoluteExtrusion = other.absoluteExtrusion

/-- The state after the head of a program. -/
def afterHead (state : MachineState) : MachineState :=
  { state with z := homeLift, e := 0.0, absolutePositioning := true, absoluteExtrusion := false }

/-- The move that lifts the head. -/
def headMotion (state : MachineState) : Motion where
  start := state.position
  finish := state.position
  dx := state.x - state.x
  dy := state.y - state.y
  dz := homeLift - state.z
  de := state.e - state.e
  distance := Double.hypot (state.x - state.x) (state.y - state.y)
  rapid := true

theorem headCourse_eq (state : MachineState) :
    headCourse state =
      ([.motion (headMotion state),
        .positionSet { afterHead state with absoluteExtrusion := state.absoluteExtrusion }],
        afterHead state) := rfl

/-- The head of a program tells finite states apart by what it keeps of them. -/
theorem headCourse_events_iff {state other : MachineState} (finite : state.Finite)
    (other_finite : other.Finite) :
    (headCourse state).1 = (headCourse other).1 ↔ SameBeforeHead state other := by
  simp only [headCourse_eq, List.cons.injEq, Event.motion.injEq, Event.positionSet.injEq, and_true]
  constructor
  · rintro ⟨motion_eq, state_eq⟩
    obtain ⟨x, y, _, _, _, mode⟩ := MachineState.mk.inj state_eq
    exact ⟨x, y, congrArg Motion.dz motion_eq, mode⟩
  · rintro ⟨x, y, z, mode⟩
    have extruded : state.e - state.e = other.e - other.e := by
      rw [Binary64.sub_self finite.e, Binary64.sub_self other_finite.e]
    simp only [headMotion, afterHead, MachineState.position, x, y, z, mode, extruded, and_self]

theorem headCourse_state {state other : MachineState} (same : SameBeforeHead state other) :
    (headCourse state).2 = (headCourse other).2 := by
  obtain ⟨x, y, _, _⟩ := same
  simp only [headCourse_eq, afterHead, x, y]

/-- Two names do the same before the head of a program. -/
def SameName (model other : String) : Prop :=
  (replay (nameLine model)).1 = (replay (nameLine other)).1 ∧
    SameBeforeHead (replay (nameLine model)).2 (replay (nameLine other)).2

theorem length_workCourse (tower : Tower) (plan : PlatePlan) (state other : MachineState) :
    (workCourse tower.settings plan state).1.length =
      (workCourse tower.settings plan other).1.length := by
  rw [← run_workStatements, ← run_workStatements]
  exact MachineState.length_run state other _

theorem replay_plate_renamed (tower : Tower) (plan : PlatePlan) (model : String) :
    replay ((tower.renamed model).plate plan).program =
      ((replay (nameLine model)).1 ++
          (workCourse tower.settings plan (replay (nameLine model)).2).1,
        (workCourse tower.settings plan (replay (nameLine model)).2).2) :=
  replay_plate_name (tower.renamed model) plan

theorem workCourse_events (settings : Settings) (plan : PlatePlan) (state : MachineState) :
    (workCourse settings plan state).1 =
      (headCourse state).1 ++
        (sequence ((bodyStatements settings plan.body).map ofStatement) (afterHead state)).1 := by
  rw [workCourse, Course.andThen, headCourse_eq]

/-- A plate is replayed alike for two names exactly when they do the same before its head. -/
theorem replay_plate_renamed_iff (tower : Tower) (plan : PlatePlan) (model other : String) :
    replay ((tower.renamed model).plate plan).program =
        replay ((tower.renamed other).plate plan).program ↔ SameName model other := by
  rw [replay_plate_renamed, replay_plate_renamed, SameName,
    ← headCourse_events_iff (finite_replay _) (finite_replay _)]
  constructor
  · intro same
    obtain ⟨events, _⟩ := Prod.mk.inj same
    obtain ⟨name_events, work_events⟩ :=
      List.append_inj' events (length_workCourse tower plan _ _)
    rw [workCourse_events, workCourse_events] at work_events
    have head_length (state : MachineState) : (headCourse state).1.length = 2 := by
      rw [headCourse_eq]
      rfl
    exact ⟨name_events, (List.append_inj work_events (by rw [head_length, head_length])).1⟩
  · rintro ⟨name_events, head_events⟩
    have head_state := headCourse_state
      ((headCourse_events_iff (finite_replay (nameLine model))
        (finite_replay (nameLine other))).mp head_events)
    simp only [workCourse, Course.andThen, name_events, head_events, head_state]

/-- Names without a line feed are interchangeable. -/
theorem sameName_of_notMem {model other : String} (oneLine : '\n' ∉ model.toList)
    (other_oneLine : '\n' ∉ other.toList) : SameName model other := by
  rw [SameName, replay_nameLine oneLine, replay_nameLine other_oneLine]
  exact ⟨rfl, rfl, rfl, rfl, rfl⟩

/-- The plates of two printers that differ in their names are replayed alike exactly when the
commands that follow a line feed in one name do the same as those in the other: the same events,
and up to the height that the head is lifted from the same place and the same mode of the
extruder. -/
theorem replay_plates_renamed_iff (tower : Tower) (model other : String) :
    (∀ number : Nat,
      ((tower.renamed model).plates[number]?).map (fun plate => replay plate.program) =
        ((tower.renamed other).plates[number]?).map (fun plate => replay plate.program)) ↔
      SameName model other := by
  have plates_eq (name : String) :
      (tower.renamed name).plates = tower.plans.map (tower.renamed name).plate := by
    rw [plates, plans_renamed]
  simp only [plates_eq, List.getElem?_map, Option.map_map, Function.comp_def]
  constructor
  · intro same
    obtain ⟨plan, others, plans_eq⟩ := List.exists_cons_of_ne_nil tower.plans_ne_nil
    have first := same 0
    simp only [plans_eq, List.getElem?_cons_zero, Option.map_some, Option.some.injEq] at first
    exact (replay_plate_renamed_iff tower plan model other).mp first
  · intro same number
    have plate_same (plan : PlatePlan) :
        replay ((tower.renamed model).plate plan).program =
          replay ((tower.renamed other).plate plan).program :=
      (replay_plate_renamed_iff tower plan model other).mpr same
    simp only [plate_same]

/-- A loose profile of a small printer. -/
def smallPrinter (model : String) : Json :=
  .object
    [ ("model", .text model),
      ("buildVolume", .object [("width", .ofFloat 20.0), ("depth", .ofFloat 20.0)]) ]

/-- A tower without steps on a small printer. -/
def smallTower : Tower :=
  ⟨{ flowSteps := 0 }, { model := "A", buildVolume := ⟨20.0, 20.0, 0.0⟩ }⟩

/-- An accepted name can move the head: the first plates of these two printers are replayed
differently. -/
theorem name_moves_head :
    PrinterProfile.normalize (smallPrinter "A") = .ok (smallTower.renamed "A").profile ∧
      PrinterProfile.normalize (smallPrinter "A\nG1 X50") =
        .ok (smallTower.renamed "A\nG1 X50").profile ∧
      ((smallTower.renamed "A").plates[0]?).map (fun plate => replay plate.program) ≠
        ((smallTower.renamed "A\nG1 X50").plates[0]?).map (fun plate => replay plate.program) := by
  have names : ¬ SameName "A" "A\nG1 X50" := by
    have events : (replay (nameLine "A")).1 ≠ (replay (nameLine "A\nG1 X50")).1 := by decide
    exact fun same => events same.1
  refine ⟨by rfl, by rfl, ?_⟩
  intro same
  obtain ⟨plan, others, plans_eq⟩ := List.exists_cons_of_ne_nil smallTower.plans_ne_nil
  simp only [plates, plans_renamed, plans_eq, List.map_cons, List.getElem?_cons_zero,
    Option.map_some, Option.some.injEq] at same
  exact names ((replay_plate_renamed_iff smallTower plan "A" "A\nG1 X50").mp same)

end Tower

end FlowCalibration
