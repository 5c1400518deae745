import FlowCalibration.Proofs.Program.Statement
import FlowCalibration.Tower.Program

/-!
# Statements of a plate

The program of a plate is the text of a list of statements.  All of them fit their lines, whatever
the settings are; only the line that names the printer needs a name without a line feed.
-/

namespace FlowCalibration

namespace Tower

open Double (number)
open Statement (blank remark status order OneLine)

/-- The first remark of a program. -/
def titleRemark : Statement :=
  remark " *** FlowTower flow pattern generator"

/-- The line that names the printer. -/
def nameLine (model : String) : String :=
  pointed (comment ("Profile: " ++ model))

/-- The remarks behind the name of the printer: the plate and the settings. -/
def settingsStatements (settings : Settings) (index plateCount : Nat) : List Statement :=
  [ remark (" Plate " ++ toString index ++ " of " ++ toString plateCount),
    remark "####### Settings" ] ++
  settings.listing.map (fun (name, value) => remark (" " ++ name ++ " = " ++ value)) ++
  [blank]

/-- Heating and homing of the printer. -/
def preparationStatements (settings : Settings) : List Statement :=
  [ order "M104" [('S', settings.startTemp)] (some "Set Nozzle Temperature"),
    order "M140" [('S', settings.bedTemp)] (some "Set Bed Temperature"),
    order "G90" [] none,
    order "G28" [] (some "Home all axes"),
    order "G0" [('Z', homeLift)] (some "Lift nozzle"),
    order "G21" [] (some "Units in mm"),
    order "G92" [('E', 0.0)] (some "Reset extruder"),
    order "M83" [] (some "Relative extrusion"),
    order "M190" [('S', settings.bedTemp)] (some "Wait for bed"),
    order "M106" [('S', Double.round (settings.fanSpeed * fanMax / 100.0))] (some "Fan") ]

/-- Heating of the nozzle. -/
def heatStatements (temperature : Float) : List Statement :=
  [ blank,
    remark ("####### " ++ number temperature ++ "C"),
    order "G4" [('S', 0.0)] (some "Dwell"),
    order "M109" [('R', temperature)] none ]

/-- The test of one site. -/
def siteStatements (settings : Settings) (site : Site) : List Statement :=
  let corner := site.cell.corner
  let feed := blobFeedRate settings site.entry.flow
  let travel := settings.movementSpeed * secondsPerMinute
  let retract := settings.retractionSpeed * secondsPerMinute
  let blobTop := blobBase + settings.blobHeight
  let safe := blobTop + clearance
  [ blank,
    remark ("####### " ++ number site.entry.flow ++ "mm3/s"),
    status
      [ number site.entry.temperature ++ "°C", "//", number site.entry.flow ++ "mm3/s;",
        "F" ++ number feed ++ "mm/min" ],
    order "G0" [('X', corner.x), ('Y', corner.y), ('Z', safe), ('F', travel)] none,
    order "G4" [('S', settings.stabilizationTime)] (some "Stabilize"),
    order "G0" [('Z', primeHeight)] none,
    order "G1"
      [ ('X', corner.x + settings.primeLength), ('E', settings.primeAmount),
        ('F', settings.primeSpeed * secondsPerMinute) ] (some "Prime"),
    order "G1" [('E', -settings.retractionDistance), ('F', retract)] (some "Retract"),
    order "G0" [('X', corner.x + settings.primeLength + settings.wipeLength), ('F', travel)]
      (some "Wipe"),
    order "G0" [('Z', blobBase)] none,
    order "G1" [('E', settings.retractionDistance), ('F', retract)] (some "De-Retract"),
    order "G1" [('Z', blobTop), ('E', settings.extrusionAmount), ('F', feed)]
      (some ("Extrude F" ++ number feed ++ "mm/min")),
    order "G1" [('E', -settings.retractionDistance), ('F', retract)] (some "Retract"),
    order "G0" [('Z', safe)] (some "Lift"),
    order "G0" [('X', corner.x), ('Y', corner.y), ('F', travel)] none,
    order "G92" [('E', 0.0)] none ]

/-- The statements of a block. -/
def blockStatements (settings : Settings) : Block → List Statement
  | .heat temperature => heatStatements temperature
  | .site site => siteStatements settings site

/-- Parking of the head. -/
def footerStatements (settings : Settings) : List Statement :=
  [ blank,
    remark "####### End G-Code",
    order "G0"
      [ ('X', settings.bedWidth - settings.marginX.abs),
        ('Y', settings.bedLength - settings.marginY.abs) ] none,
    order "M104" [('S', 0.0), ('T', 0.0)] none,
    order "M140" [('S', 0.0)] none,
    order "M84" [] none ]

/-- What stands for the sites where there is no cell. -/
def noCellStatements : List Statement :=
  [ blank,
    remark " No available placement slots on this printer - check excluded areas" ]

/-- What stands between the head and the end of a program, and its end. -/
def bodyStatements (settings : Settings) : PlateBody → List Statement
  | .noCells => noCellStatements
  | .blocks blocks => blocks.flatMap (blockStatements settings) ++ footerStatements settings

/-- The statements behind the remark that names the printer. -/
def workStatements (tower : Tower) (plan : PlatePlan) : List Statement :=
  settingsStatements tower.settings plan.index plan.plateCount ++
    preparationStatements tower.settings ++ bodyStatements tower.settings plan.body

/-! ## The statements fit their lines -/

theorem fits_remark {text : String} (oneLine : OneLine text.toList) : (remark text).Fits :=
  oneLine

theorem fits_titleRemark : titleRemark.Fits :=
  fits_remark (by decide)

theorem oneLine_toString (count : Nat) : OneLine (toString count).toList := by
  intro c member
  have digit : c.isDigit = true := by
    rw [Nat.toString_eq_ofList_toDigits, String.toList_ofList] at member
    exact Nat.isDigit_of_mem_toDigits (by decide) (by decide) member
  constructor
  · rintro rfl
    exact absurd digit (by decide)
  · rintro rfl
    exact absurd digit (by decide)

theorem oneLine_listing (settings : Settings) :
    ∀ pair ∈ settings.listing, OneLine pair.1.toList ∧ OneLine pair.2.toList := by
  have optional (value : Option Float) : OneLine (Settings.optionalNumber value).toList := by
    cases value with
    | none => decide
    | some value => exact Statement.oneLine_number value
  have mode : OneLine settings.mode.name.toList := by
    cases settings.mode <;> decide
  simp only [Settings.listing, List.forall_mem_cons, Statement.oneLine_number, oneLine_toString,
    optional, mode, and_true]
  decide

theorem fits_settingsStatements (settings : Settings) (index plateCount : Nat) :
    ∀ statement ∈ settingsStatements settings index plateCount, statement.Fits := by
  have plate : OneLine (" Plate " ++ toString index ++ " of " ++ toString plateCount).toList := by
    simp only [String.toList_append, Statement.oneLine_append, oneLine_toString, and_true]
    decide
  have setting : ∀ pair ∈ settings.listing,
      (remark (" " ++ pair.1 ++ " = " ++ pair.2)).Fits := by
    intro pair member
    obtain ⟨name, value⟩ := oneLine_listing settings pair member
    simp only [Statement.Fits, String.toList_append, Statement.oneLine_append, name, value,
      and_true]
    decide
  simp only [settingsStatements, List.forall_mem_append, List.forall_mem_cons, List.forall_mem_map]
  exact ⟨⟨⟨fits_remark plate, fits_remark (by decide), by simp⟩, setting⟩, trivial, by simp⟩

theorem fits_order {mnemonic : String} {arguments : List (Char × Float)} {note : Option String}
    (mnemonic_fits : mnemonic.toList ≠ [] ∧ mnemonic.toList.all Statement.isOrderChar = true ∧
      Command.ofMnemonic (upperCase mnemonic.toList) ≠ .statusMessage)
    (letters_fit : (arguments.all fun argument => Statement.isOrderChar argument.1) = true)
    (note_fits : OneLine (Statement.remarkText note)) :
    (order mnemonic arguments note).Fits :=
  ⟨mnemonic_fits, letters_fit, note_fits⟩

theorem fits_preparationStatements (settings : Settings) :
    ∀ statement ∈ preparationStatements settings, statement.Fits := by
  simp only [preparationStatements, List.forall_mem_cons]
  refine ⟨?_, ?_, ?_, ?_, ?_, ?_, ?_, ?_, ?_, ?_, by simp⟩ <;>
    exact fits_order (by decide) rfl (by decide)

theorem fits_heatStatements (temperature : Float) :
    ∀ statement ∈ heatStatements temperature, statement.Fits := by
  have heading : OneLine ("####### " ++ number temperature ++ "C").toList := by
    simp only [String.toList_append, Statement.oneLine_append, Statement.oneLine_number, and_true]
    decide
  simp only [heatStatements, List.forall_mem_cons]
  exact ⟨trivial, heading, fits_order (by decide) rfl (by decide),
    fits_order (by decide) rfl (by decide), by simp⟩

theorem solid_around (front back : String) (value : Float)
    (front_fits : (front.toList.all fun c => !isBlank c && c != ',') = true)
    (back_fits : (back.toList.all fun c => !isBlank c && c != ',') = true) :
    Statement.Solid (front ++ number value ++ back).toList := by
  have solid := Statement.solid_number value
  simp only [List.all_eq_true, Bool.and_eq_true, Bool.not_eq_true', bne_iff_ne]
    at front_fits back_fits
  simp only [String.toList_append, Statement.Solid, List.forall_mem_append]
  exact ⟨by simp [solid.1], ⟨front_fits, solid.2⟩, back_fits⟩

theorem fits_siteStatements (settings : Settings) (site : Site) :
    ∀ statement ∈ siteStatements settings site, statement.Fits := by
  have heading : OneLine ("####### " ++ number site.entry.flow ++ "mm3/s").toList := by
    simp only [String.toList_append, Statement.oneLine_append, Statement.oneLine_number, and_true]
    decide
  have extrude (feed : Float) :
      OneLine (Statement.remarkText (some ("Extrude F" ++ number feed ++ "mm/min"))) := by
    simp only [Statement.remarkText, Statement.oneLine_cons, String.toList_append,
      Statement.oneLine_append, Statement.oneLine_number, and_true]
    decide
  have temperature (value : Float) : Statement.Solid (number value ++ "°C").toList :=
    solid_around "" "°C" value rfl rfl
  have flow (value : Float) : Statement.Solid (number value ++ "mm3/s;").toList :=
    solid_around "" "mm3/s;" value rfl rfl
  have feed (value : Float) : Statement.Solid ("F" ++ number value ++ "mm/min").toList :=
    solid_around "F" "mm/min" value rfl rfl
  have message : (status
      [ number site.entry.temperature ++ "°C", "//", number site.entry.flow ++ "mm3/s;",
        "F" ++ number (blobFeedRate settings site.entry.flow) ++ "mm/min" ]).Fits := by
    simp only [Statement.Fits, List.forall_mem_cons]
    exact ⟨temperature _, by decide, flow _, feed _, by simp⟩
  simp only [siteStatements, List.forall_mem_cons]
  refine ⟨trivial, heading, message, ?_, ?_, ?_, ?_, ?_, ?_, ?_, ?_,
    fits_order (by decide) rfl (extrude _), ?_, ?_, ?_, ?_, by simp⟩ <;>
    exact fits_order (by decide) rfl (by decide)

theorem fits_footerStatements (settings : Settings) :
    ∀ statement ∈ footerStatements settings, statement.Fits := by
  simp only [footerStatements, List.forall_mem_cons]
  refine ⟨trivial, fits_remark (by decide), ?_, ?_, ?_, ?_, by simp⟩ <;>
    exact fits_order (by decide) rfl (by decide)

theorem fits_noCellStatements : ∀ statement ∈ noCellStatements, statement.Fits := by
  simp only [noCellStatements, List.forall_mem_cons]
  exact ⟨trivial, fits_remark (by decide), by simp⟩

theorem fits_blockStatements (settings : Settings) (block : Block) :
    ∀ statement ∈ blockStatements settings block, statement.Fits := by
  cases block with
  | heat temperature => exact fits_heatStatements temperature
  | site site => exact fits_siteStatements settings site

/-- What holds of the statements of all blocks, of the end and of the plate without cells holds
between the head and the end of every program. -/
theorem forall_mem_bodyStatements {holds : Statement → Prop} {settings : Settings}
    (block : ∀ block, ∀ statement ∈ blockStatements settings block, holds statement)
    (footer : ∀ statement ∈ footerStatements settings, holds statement)
    (noCells : ∀ statement ∈ noCellStatements, holds statement) (body : PlateBody) :
    ∀ statement ∈ bodyStatements settings body, holds statement := by
  cases body with
  | noCells => exact noCells
  | blocks blocks =>
      rw [bodyStatements, List.forall_mem_append, List.forall_mem_flatMap]
      exact ⟨fun tested _ => block tested, footer⟩

theorem fits_bodyStatements (settings : Settings) (body : PlateBody) :
    ∀ statement ∈ bodyStatements settings body, statement.Fits :=
  forall_mem_bodyStatements (fits_blockStatements settings) (fits_footerStatements settings)
    fits_noCellStatements body

theorem fits_workStatements (tower : Tower) (plan : PlatePlan) :
    ∀ statement ∈ tower.workStatements plan, statement.Fits := by
  simp only [workStatements, List.forall_mem_append]
  exact ⟨⟨fits_settingsStatements _ _ _, fits_preparationStatements _⟩, fits_bodyStatements _ _⟩

/-! ## Their texts are the lines of the program -/

theorem number_zero : number 0.0 = "0" := by
  decide

theorem title_eq (tower : Tower) (index plateCount : Nat) :
    tower.title index plateCount =
      titleRemark.text :: comment ("Profile: " ++ tower.profile.model) ::
          (settingsStatements tower.settings index plateCount).map Statement.text := by
  simp only [title, settingsStatements, comment, titleRemark, Statement.text, List.map_append,
    List.map_cons, List.map_map, List.map_nil, List.cons_append, List.nil_append, List.cons.injEq,
    List.append_cancel_right_eq, ← String.toList_inj]
  have setting (name value : String) : "; " ++ (name ++ " = " ++ value) =
      (remark (" " ++ name ++ " = " ++ value)).text := by
    simp [Statement.text, ← String.toList_inj]
  simp [setting]

theorem preparation_eq (settings : Settings) :
    preparation settings = (preparationStatements settings).map Statement.text := by
  simp only [preparation, preparationStatements, List.map_cons, List.map_nil, Statement.text,
    Statement.codeText, Statement.argumentText, Statement.remarkText, number_zero,
    List.cons.injEq, ← String.toList_inj]
  simp

theorem siteLines_eq (settings : Settings) (site : Site) :
    siteLines settings site = (siteStatements settings site).map Statement.text := by
  simp only [siteLines, siteStatements, List.map_cons, List.map_nil, Statement.text,
    Statement.codeText, Statement.argumentText, Statement.remarkText, number_zero, feedRate,
    List.cons.injEq, ← String.toList_inj]
  simp

theorem heatLines_eq (temperature : Float) :
    heatLines temperature = (heatStatements temperature).map Statement.text := by
  simp only [heatLines, heatStatements, List.map_cons, List.map_nil, Statement.text,
    Statement.codeText, Statement.argumentText, Statement.remarkText, number_zero,
    List.cons.injEq, ← String.toList_inj]
  simp

theorem footer_eq (settings : Settings) :
    footer settings = (footerStatements settings).map Statement.text := by
  simp only [footer, footerStatements, List.map_cons, List.map_nil, Statement.text,
    Statement.codeText, Statement.argumentText, Statement.remarkText, number_zero,
    List.cons.injEq, ← String.toList_inj]
  simp

theorem blocks_eq (settings : Settings) (blocks : List Block) :
    blocks.flatMap (blockLines settings) =
      (blocks.flatMap (blockStatements settings)).map Statement.text := by
  rw [List.map_flatMap]
  refine List.flatMap_congr fun block _ => ?_
  cases block with
  | heat temperature => exact heatLines_eq temperature
  | site site => exact siteLines_eq settings site

theorem workLines_eq (tower : Tower) (plan : PlatePlan) :
    tower.title plan.index plan.plateCount ++ preparation tower.settings ++
        (match plan.body with
          | .noCells => noCellLines
          | .blocks blocks => blocks.flatMap (blockLines tower.settings) ++
              footer tower.settings) =
      titleRemark.text :: comment ("Profile: " ++ tower.profile.model) ::
        (tower.workStatements plan).map Statement.text := by
  obtain ⟨index, plateCount, body⟩ := plan
  have noCells : noCellLines = noCellStatements.map Statement.text := by decide
  cases body with
  | noCells =>
      simp only [title_eq, preparation_eq, noCells, workStatements, bodyStatements,
        List.cons_append, List.map_append]
  | blocks blocks =>
      simp only [title_eq, preparation_eq, blocks_eq, footer_eq, workStatements, bodyStatements,
        List.cons_append, List.map_append]

/-- The lines of a plate are the line that names the printer and the texts of statements. -/
theorem planLines_eq (tower : Tower) (plan : PlatePlan) :
    tower.planLines plan =
      titleRemark.text :: nameLine tower.profile.model ::
        (tower.workStatements plan).map Statement.text := by
  have work : ((tower.workStatements plan).map Statement.text).map pointed =
      (tower.workStatements plan).map Statement.text := by
    rw [List.map_map]
    exact List.map_congr_left fun statement member =>
      Statement.pointed_text (tower.fits_workStatements plan statement member)
  have lines := congrArg (List.map pointed) (tower.workLines_eq plan)
  rw [List.map_cons, List.map_cons, work, Statement.pointed_text fits_titleRemark] at lines
  exact lines

/-- The program of a plate is read as the line that names the printer and statement by statement
behind it. -/
theorem parseProgram_plate (tower : Tower) (plan : PlatePlan) :
    parseProgram (tower.plate plan).program =
      parseProgram (nameLine tower.profile.model) ++
        (tower.workStatements plan).filterMap Statement.line? := by
  have work := Statement.parseProgram_joinLines_text (tower.fits_workStatements plan)
  rw [parseProgram_joinLines, List.flatMap_map] at work
  have title : parseProgram titleRemark.text = [] := by
    rw [Statement.parseProgram_text fits_titleRemark]
    rfl
  rw [plate, planLines_eq, parseProgram_joinLines, List.flatMap_cons, List.flatMap_cons, title,
    List.nil_append, List.flatMap_map, work]

/-! ## The name of the printer -/

theorem oneLine_pointed {text : String} (oneLine : '\n' ∉ text.toList) :
    OneLine (pointed text).toList := by
  intro c member
  rw [pointed, String.toList_ofList] at member
  obtain ⟨original, original_mem, rfl⟩ := List.mem_map.mp member
  split
  · decide
  next notComma =>
    refine ⟨?_, notComma⟩
    rintro rfl
    exact oneLine original_mem

/-- The remark that names the printer; commas of the name are points. -/
def nameRemark (model : String) : Statement :=
  remark (" Profile: " ++ pointed model)

theorem nameLine_eq (model : String) : nameLine model = (nameRemark model).text := by
  simp only [nameLine, pointed, comment, nameRemark, Statement.text, ← String.toList_inj]
  simp

theorem fits_nameRemark {model : String} (oneLine : '\n' ∉ model.toList) :
    (nameRemark model).Fits := by
  have label : OneLine " Profile: ".toList := by decide
  apply fits_remark
  rw [String.toList_append, Statement.oneLine_append]
  exact ⟨label, oneLine_pointed oneLine⟩

theorem parseProgram_nameLine {model : String} (oneLine : '\n' ∉ model.toList) :
    parseProgram (nameLine model) = [] := by
  rw [nameLine_eq, Statement.parseProgram_text (fits_nameRemark oneLine)]
  rfl

end Tower

end FlowCalibration
