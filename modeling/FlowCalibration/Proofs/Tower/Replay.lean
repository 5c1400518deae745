import FlowCalibration.Proofs.Program.Motions
import FlowCalibration.Proofs.Tower.Statements

/-!
# Replaying a plate

Replaying the program of a plate gives the course that the plate was written for: the head is
lifted, every site is announced and travelled leg by leg, and the head is parked.  Every target is
the double that was written, as far as text can hold it: a zero loses its sign.
-/

namespace FlowCalibration

namespace Tower

open Double (number shown unsignedZero)
open Course

/-- What is announced at a site. -/
def siteMessage (settings : Settings) (site : Site) : String :=
  number site.entry.temperature ++ "°C // " ++ number site.entry.flow ++ "mm3/s; F" ++
    number (blobFeedRate settings site.entry.flow) ++ "mm/min"

/-- The legs of a site, with its numbers as they are read. -/
def siteLegs (read : Float → Float) (settings : Settings) (corner : Point) : List Leg :=
  let blobTop := blobBase + settings.blobHeight
  let safe := blobTop + clearance
  [ { x := some (read corner.x), y := some (read corner.y), z := some (read safe) },
    { z := some (read primeHeight) },
    { x := some (read (corner.x + settings.primeLength)),
      push := some (read settings.primeAmount), rapid := false },
    { push := some (read (-settings.retractionDistance)), rapid := false },
    { x := some (read (corner.x + settings.primeLength + settings.wipeLength)) },
    { z := some (read blobBase) },
    { push := some (read settings.retractionDistance), rapid := false },
    { z := some (read blobTop), push := some (read settings.extrusionAmount), rapid := false },
    { push := some (read (-settings.retractionDistance)), rapid := false },
    { z := some (read safe) },
    { x := some (read corner.x), y := some (read corner.y) } ]

/-- The course of a site: it is announced, travelled, and the extruder is reset. -/
def siteCourse (read : Float → Float) (settings : Settings) (site : Site) : Course :=
  sequence ([message (siteMessage settings site)] ++
    (siteLegs read settings site.cell.corner).map leg ++ [resetExtruder])

/-- The legs at the end of a plate: only a plate without cells does not park the head. -/
def parkLegs (read : Float → Float) (settings : Settings) : PlateBody → List Leg
  | .noCells => []
  | .blocks _ =>
      [ { x := some (read (settings.bedWidth - settings.marginX.abs)),
          y := some (read (settings.bedLength - settings.marginY.abs)) } ]

/-- The course of the head of a program: the nozzle is lifted and the modes are chosen. -/
def headCourse : Course :=
  sequence [absolutePositioning, leg { z := some homeLift }, resetExtruder, relativeExtrusion]

/-- The course of a plate. -/
def planCourse (read : Float → Float) (settings : Settings) (plan : PlatePlan) : Course :=
  headCourse.andThen (sequence (plan.sites.map (siteCourse read settings) ++
    (parkLegs read settings plan.body).map leg))

/-- The eleven motions of a site lead from stop to stop: over its corner, down, along the prime and
the wipe, up with the blob, and back over the corner. -/
theorem siteCourse_stops (read : Float → Float) (settings : Settings) (site : Site)
    (state : MachineState) :
    let corner := site.cell.corner
    let x := read corner.x
    let y := read corner.y
    let primed := read (corner.x + settings.primeLength)
    let wiped := read (corner.x + settings.primeLength + settings.wipeLength)
    let low := read primeHeight
    let base := read blobBase
    let top := read (blobBase + settings.blobHeight)
    let safe := read (blobBase + settings.blobHeight + clearance)
    ∃ motions stops last,
      (siteCourse read settings site state).1 =
        .status (siteMessage settings site) :: (motions.map .motion ++ [.positionSet last]) ∧
      last.e = 0.0 ∧ Route state motions stops ∧
      stops.map (fun stop => (stop.x, stop.y, stop.z)) =
        [(x, y, safe), (x, y, low), (primed, y, low), (primed, y, low), (wiped, y, low),
          (wiped, y, base), (wiped, y, base), (wiped, y, top), (wiped, y, top), (wiped, y, safe),
          (x, y, safe)] := by
  obtain ⟨motions, events, route⟩ := exists_route state (siteLegs read settings site.cell.corner)
  refine ⟨motions, _, { (sequence ((siteLegs read settings site.cell.corner).map leg) state).2 with
    e := 0.0 }, ?_, rfl, route, rfl⟩
  rw [siteCourse, sequence_append, sequence_append, ← events]
  simp only [sequence_cons, sequence_nil, Course.andThen, stay, message, resetExtruder,
    List.nil_append, List.append_nil, List.cons_append]

/-! ## From statements to courses -/

theorem sequence_eq_stay {courses : List Course} (nothing : ∀ course ∈ courses, course = stay) :
    sequence courses = stay := by
  induction courses with
  | nil => rfl
  | cons course courses induction =>
      rw [sequence_cons, nothing course List.mem_cons_self,
        induction fun other member => nothing other (List.mem_cons_of_mem _ member)]
      rfl

theorem sequence_settingsStatements (settings : Settings) (index plateCount : Nat) :
    sequence ((settingsStatements settings index plateCount).map ofStatement) = stay := by
  apply sequence_eq_stay
  simp only [settingsStatements, List.map_append, List.map_cons, List.map_nil, List.map_map,
    List.forall_mem_append, List.forall_mem_cons, List.forall_mem_map]
  exact ⟨⟨⟨rfl, rfl, by simp⟩, fun _ _ => rfl⟩, rfl, by simp⟩

theorem agree_heatStatements (temperature : Float) :
    Agree MachineState.Working (sequence ((heatStatements temperature).map ofStatement)) stay := by
  have dwell : ofStatement (.order "G4" [('S', 0.0)] (some "Dwell")) = stay :=
    ofStatement_other (by decide)
  have wait : ofStatement (.order "M109" [('R', temperature)] none) = stay :=
    ofStatement_other (by decide)
  simp only [heatStatements, List.map_cons, List.map_nil, sequence_cons, sequence_nil,
    ofStatement_blank, ofStatement_remark, dwell, wait, stay_andThen]
  exact agree_stay

theorem ofStatement_siteMessage (settings : Settings) (site : Site) :
    ofStatement (.status
      [ number site.entry.temperature ++ "°C", "//", number site.entry.flow ++ "mm3/s;",
        "F" ++ number (blobFeedRate settings site.entry.flow) ++ "mm/min" ]) =
      message (siteMessage settings site) := by
  rw [ofStatement_status]
  congr 1
  simp [siteMessage, ← String.toList_inj, List.intercalate]

/-- A site is travelled leg by leg. -/
theorem agree_siteStatements (settings : Settings) (site : Site) :
    Agree MachineState.Working (sequence ((siteStatements settings site).map ofStatement))
      (siteCourse shown settings site) := by
  have dwell : ofStatement (.order "G4" [('S', settings.stabilizationTime)] (some "Stabilize")) =
      stay := ofStatement_other (by decide)
  have keep (text : String) : Agree MachineState.Working (message text) (message text) :=
    fun _ working => ⟨rfl, working⟩
  have reset : Agree MachineState.Working resetExtruder resetExtruder :=
    fun _ working => ⟨rfl, working⟩
  have rapid := ofMnemonic_rapidMove
  have feed := ofMnemonic_feedMove
  simp only [siteStatements, siteCourse, siteLegs, List.map_cons, List.map_nil, List.cons_append,
    List.nil_append, sequence_cons, sequence_nil, ofStatement_blank, ofStatement_remark,
    ofStatement_siteMessage, ofStatement_reset, dwell, stay_andThen, andThen_stay]
  exact (keep _).andThen <| (agree_order rfl rapid).andThen <| (agree_order rfl rapid).andThen <|
    (agree_order rfl feed).andThen <| (agree_order rfl feed).andThen <|
    (agree_order rfl rapid).andThen <| (agree_order rfl rapid).andThen <|
    (agree_order rfl feed).andThen <| (agree_order rfl feed).andThen <|
    (agree_order rfl feed).andThen <| (agree_order rfl rapid).andThen <|
    (agree_order rfl rapid).andThen reset

theorem agree_footerStatements (settings : Settings) (blocks : List Block) :
    Agree MachineState.Working (sequence ((footerStatements settings).map ofStatement))
      (sequence ((parkLegs shown settings (.blocks blocks)).map leg)) := by
  have nozzle : ofStatement (.order "M104" [('S', 0.0), ('T', 0.0)] none) = stay :=
    ofStatement_other (by decide)
  have bed : ofStatement (.order "M140" [('S', 0.0)] none) = stay := ofStatement_other (by decide)
  have motors : ofStatement (.order "M84" [] none) = stay := ofStatement_other (by decide)
  simp only [footerStatements, parkLegs, List.map_cons, List.map_nil, sequence_cons, sequence_nil,
    ofStatement_blank, ofStatement_remark, nozzle, bed, motors, stay_andThen, andThen_stay]
  exact agree_order rfl ofMnemonic_rapidMove

/-- Heating does nothing, so the blocks of a plate are the courses of its sites. -/
theorem agree_blockStatements (settings : Settings) (blocks : List Block) :
    Agree MachineState.Working
      (sequence ((blocks.flatMap (blockStatements settings)).map ofStatement))
      (sequence ((blocks.filterMap Block.site?).map (siteCourse shown settings))) := by
  induction blocks with
  | nil => exact agree_stay
  | cons block blocks induction =>
      rw [List.flatMap_cons, List.map_append, sequence_append]
      cases block with
      | heat temperature =>
          have quiet := (agree_heatStatements temperature).andThen induction
          rw [stay_andThen] at quiet
          exact quiet
      | site site =>
          have travelled := (agree_siteStatements settings site).andThen induction
          rw [← sequence_cons] at travelled
          exact travelled

/-- What stands behind the head of a program travels the sites and parks the head. -/
theorem agree_bodyStatements (settings : Settings) (plan : PlatePlan) :
    Agree MachineState.Working (sequence ((bodyStatements settings plan.body).map ofStatement))
      (sequence (plan.sites.map (siteCourse shown settings) ++
        (parkLegs shown settings plan.body).map leg)) := by
  rw [sequence_append]
  obtain ⟨index, plateCount, body⟩ := plan
  cases body with
  | noCells =>
      simp only [bodyStatements, noCellStatements, PlatePlan.sites, parkLegs, List.map_cons,
        List.map_nil, sequence_cons, sequence_nil, ofStatement_blank, ofStatement_remark,
        stay_andThen]
      exact agree_stay
  | blocks blocks =>
      simp only [bodyStatements, List.map_append, sequence_append]
      exact (agree_blockStatements settings blocks).andThen (agree_footerStatements settings blocks)

theorem sequence_preparationStatements (settings : Settings) :
    sequence ((preparationStatements settings).map ofStatement) = headCourse := by
  have other {mnemonic : String} (arguments : List (Char × Float)) (note : Option String)
      (command : Command.ofMnemonic (upperCase mnemonic.toList) = .other mnemonic) :
      ofStatement (.order mnemonic arguments note) = stay := ofStatement_other command
  have height : shown homeLift = homeLift := by decide
  have lift (state : MachineState) (absolute : state.absolutePositioning = true) :
      ofStatement (.order "G0" [('Z', homeLift)] (some "Lift nozzle")) state =
        leg { z := some homeLift } state := by
    rw [ofStatement_linearMove rfl ofMnemonic_rapidMove absolute (.inr rfl), ← height]
    rfl
  simp only [preparationStatements, headCourse, List.map_cons, List.map_nil, sequence_cons,
    sequence_nil, andThen_stay]
  rw [other [('S', settings.startTemp)] (some "Set Nozzle Temperature") (by decide),
    other [('S', settings.bedTemp)] (some "Set Bed Temperature") (by decide),
    other [] (some "Home all axes") (by decide), other [] (some "Units in mm") (by decide),
    other [('S', settings.bedTemp)] (some "Wait for bed") (by decide),
    other [('S', Double.round (settings.fanSpeed * fanMax / 100.0))] (some "Fan") (by decide)]
  simp only [stay_andThen, andThen_stay, ofStatement_absolutePositioning, ofStatement_reset,
    ofStatement_relativeExtrusion]
  funext state
  simp only [Course.andThen, absolutePositioning, lift]

/-- The course behind the line that names the printer. -/
def workCourse (settings : Settings) (plan : PlatePlan) : Course :=
  headCourse.andThen (sequence ((bodyStatements settings plan.body).map ofStatement))

theorem run_workStatements (tower : Tower) (plan : PlatePlan) (state : MachineState) :
    state.run ((tower.workStatements plan).filterMap Statement.line?) =
      workCourse tower.settings plan state := by
  rw [run_filterMap_line?, workStatements, List.map_append, List.map_append, sequence_append,
    sequence_append, sequence_settingsStatements, sequence_preparationStatements, stay_andThen]
  rfl

/-- Replaying a plate is replaying the line that names the printer and going on from there. -/
theorem replay_plate_name (tower : Tower) (plan : PlatePlan) :
    replay (tower.plate plan).program =
      ((replay (nameLine tower.profile.model)).1 ++
          (workCourse tower.settings plan (replay (nameLine tower.profile.model)).2).1,
        (workCourse tower.settings plan (replay (nameLine tower.profile.model)).2).2) := by
  rw [replay, parseProgram_plate, run_append, run_workStatements]
  rfl

theorem replay_nameLine {model : String} (oneLine : '\n' ∉ model.toList) :
    replay (nameLine model) = ([], {}) := by
  rw [replay, parseProgram_nameLine oneLine]
  rfl

/-- Replaying a plate is its course, with every number as it is read. -/
theorem replay_plate_shown (tower : Tower) (plan : PlatePlan)
    (oneLine : '\n' ∉ tower.profile.model.toList) :
    replay (tower.plate plan).program = planCourse shown tower.settings plan {} := by
  have head_working : MachineState.Working (headCourse {}).2 := by
    constructor <;> decide
  have body := (agree_bodyStatements tower.settings plan _ head_working).1
  rw [replay_plate_name, replay_nameLine oneLine]
  simp only [List.nil_append, workCourse, planCourse, Course.andThen, body]

/-! ## Numbers that survive -/

/-- The numbers that the legs of a site are written with. -/
def siteNumbers (settings : Settings) (corner : Point) : List Float :=
  [ corner.x, corner.y, corner.x + settings.primeLength,
    corner.x + settings.primeLength + settings.wipeLength, blobBase + settings.blobHeight,
    blobBase + settings.blobHeight + clearance, settings.primeAmount, settings.retractionDistance,
    -settings.retractionDistance, settings.extrusionAmount ]

/-- The numbers that the legs of a plate are written with. -/
def planNumbers (settings : Settings) (plan : PlatePlan) : List Float :=
  plan.sites.flatMap (fun site => siteNumbers settings site.cell.corner) ++
    [settings.bedWidth - settings.marginX.abs, settings.bedLength - settings.marginY.abs]

theorem siteLegs_shown {settings : Settings} {corner : Point}
    (finite : ∀ value ∈ siteNumbers settings corner, value.isFinite = true) :
    siteLegs shown settings corner = siteLegs unsignedZero settings corner := by
  have prime : primeHeight.isFinite = true := by decide
  have base : blobBase.isFinite = true := by decide
  simp only [siteNumbers, List.forall_mem_cons] at finite
  obtain ⟨x, y, primed, wiped, top, safe, prime_amount, retraction, back, amount, _⟩ := finite
  simp only [siteLegs, Double.shown_of_isFinite, prime, base, x, y, primed, wiped, top, safe,
    prime_amount, retraction, back, amount]

theorem planCourse_shown {settings : Settings} {plan : PlatePlan}
    (finite : ∀ value ∈ planNumbers settings plan, value.isFinite = true) :
    planCourse shown settings plan = planCourse unsignedZero settings plan := by
  simp only [planNumbers, List.forall_mem_append, List.forall_mem_cons] at finite
  obtain ⟨sites, park_x, park_y, _⟩ := finite
  have site_eq : ∀ site ∈ plan.sites,
      siteCourse shown settings site = siteCourse unsignedZero settings site := by
    intro site member
    have site_finite : ∀ value ∈ siteNumbers settings site.cell.corner, value.isFinite = true :=
      fun value value_mem => sites value (List.mem_flatMap.mpr ⟨site, member, value_mem⟩)
    rw [siteCourse, siteCourse, siteLegs_shown site_finite]
  have park_eq : parkLegs shown settings plan.body = parkLegs unsignedZero settings plan.body := by
    cases plan.body with
    | noCells => rfl
    | blocks blocks => simp only [parkLegs, Double.shown_of_isFinite, park_x, park_y]
  rw [planCourse, planCourse, List.map_congr_left site_eq, park_eq]

/-! ## The state at the end -/

/-- Between sites the extruder stands at zero. -/
def Rested (state : MachineState) : Prop :=
  state.Working ∧ state.e = 0.0

theorem rested_siteCourse {read : Float → Float} {settings : Settings} {site : Site}
    {state : MachineState} (rested : Rested state) :
    Rested (siteCourse read settings site state).2 :=
  ⟨rested.1, rfl⟩

theorem rested_sequence {courses : List Course}
    (keep : ∀ course ∈ courses, ∀ state, Rested state → Rested (course state).2)
    {state : MachineState} (rested : Rested state) : Rested (sequence courses state).2 := by
  induction courses generalizing state with
  | nil => exact rested
  | cons course courses induction =>
      rw [sequence_cons]
      exact induction (fun other member => keep other (List.mem_cons_of_mem _ member))
        (keep course List.mem_cons_self state rested)

theorem rested_planCourse (read : Float → Float) (settings : Settings) (plan : PlatePlan) :
    Rested (planCourse read settings plan {}).2 := by
  have head : Rested (headCourse {}).2 := by
    refine ⟨⟨?_, ?_⟩, ?_⟩ <;> decide
  have rest : ∀ course ∈ plan.sites.map (siteCourse read settings) ++
      (parkLegs read settings plan.body).map leg, ∀ state, Rested state →
        Rested (course state).2 := by
    intro course member state rested
    rcases List.mem_append.mp member with member | member
    · obtain ⟨site, _, rfl⟩ := List.mem_map.mp member
      exact rested_siteCourse rested
    · obtain ⟨parking, parking_mem, rfl⟩ := List.mem_map.mp member
      cases body : plan.body with
      | noCells =>
          rw [body] at parking_mem
          contradiction
      | blocks blocks =>
          rw [body] at parking_mem
          obtain rfl := List.mem_singleton.mp parking_mem
          exact rested
  exact rested_sequence rest head

/-- Replaying a plate whose coordinates and lengths are finite goes exactly the way it was written
for, and leaves the machine in the mode of the program with the extruder at zero. -/
theorem replay_plate (tower : Tower) (plan : PlatePlan)
    (oneLine : '\n' ∉ tower.profile.model.toList)
    (finite : ∀ value ∈ planNumbers tower.settings plan, value.isFinite = true) :
    replay (tower.plate plan).program = planCourse unsignedZero tower.settings plan {} ∧
      (replay (tower.plate plan).program).2.absolutePositioning = true ∧
      (replay (tower.plate plan).program).2.absoluteExtrusion = false ∧
      (replay (tower.plate plan).program).2.e = 0.0 := by
  have course : replay (tower.plate plan).program =
      planCourse unsignedZero tower.settings plan {} := by
    rw [replay_plate_shown tower plan oneLine, planCourse_shown finite]
  obtain ⟨⟨absolute, relative⟩, reset⟩ := rested_planCourse unsignedZero tower.settings plan
  rw [course]
  exact ⟨rfl, absolute, relative, reset⟩

/-- A tower of one step on a small printer. -/
def singleSite : Tower :=
  ⟨{ flowSteps := 1 }, { model := "A", buildVolume := ⟨180.0, 180.0, 180.0⟩ }⟩

/-- Its plate. -/
def singlePlan : PlatePlan :=
  singleSite.plan singleSite.layout 0

theorem replay_plate_singleSite :
    singlePlan.sites.length = 1 ∧
      replay (singleSite.plate singlePlan).program =
        planCourse unsignedZero singleSite.settings singlePlan {} ∧
      (replay (singleSite.plate singlePlan).program).2.absolutePositioning = true ∧
      (replay (singleSite.plate singlePlan).program).2.absoluteExtrusion = false ∧
      (replay (singleSite.plate singlePlan).program).2.e = 0.0 :=
  ⟨by decide +kernel, replay_plate singleSite singlePlan (by decide) (by decide +kernel)⟩

end Tower

end FlowCalibration
