import FlowCalibration.Proofs.Decimal.Order
import FlowCalibration.Proofs.Program.Printing
import FlowCalibration.Proofs.Tower.Heating
import FlowCalibration.Proofs.Tower.Replay

/-!
# Printing beside excluded areas

A cell can be used when its corner lies in no excluded area.  Its site is printed at three points
only: at the corner, where priming ends, and where the blob stands.  So what is printed in an
excluded area is the end of a primed line or a blob, and never the corner.
-/

namespace FlowCalibration

/-! ## Points as they are read -/

/-- A point as it is read from a program. -/
def Point.shown (point : Point) : Point :=
  ⟨Double.shown point.x, Double.shown point.y⟩

/-- Writing a finite point and reading it again leaves it in the same areas. -/
theorem Rect.contains_shown (rect : Rect) {point : Point} (x_finite : point.x.isFinite = true)
    (y_finite : point.y.isFinite = true) : rect.contains point.shown = rect.contains point := by
  simp only [Rect.contains, Point.shown, Double.shown_of_isFinite x_finite,
    Double.shown_of_isFinite y_finite, ge_iff_le, Double.le_unsignedZero_iff,
    Double.unsignedZero_le_iff]

namespace PrinterProfile

theorem isExcluded_shown (profile : PrinterProfile) {point : Point}
    (x_finite : point.x.isFinite = true) (y_finite : point.y.isFinite = true) :
    profile.isExcluded point.shown = profile.isExcluded point := by
  simp only [isExcluded, Rect.contains_shown _ x_finite y_finite]

end PrinterProfile

namespace Tower

open Double (shown)
open MachineState (strokes)

/-! ## The strokes of a site -/

/-- Where priming of a site ends. -/
def primedPoint (settings : Settings) (corner : Point) : Point :=
  Point.shown ⟨corner.x + settings.primeLength, corner.y⟩

/-- Where the blob of a site stands. -/
def blobPoint (settings : Settings) (corner : Point) : Point :=
  Point.shown ⟨corner.x + settings.primeLength + settings.wipeLength, corner.y⟩

/-- The lengths of filament of a site, and from where to where they are pushed. -/
def siteFeeds (settings : Settings) (corner : Point) : List (Float × Stroke) :=
  let primed := primedPoint settings corner
  let blob := blobPoint settings corner
  [ (settings.primeAmount, (corner.shown, primed)),
    (-settings.retractionDistance, (primed, primed)),
    (settings.retractionDistance, (blob, blob)),
    (settings.extrusionAmount, (blob, blob)),
    (-settings.retractionDistance, (blob, blob)) ]

/-- Where a site is printed. -/
def siteStrokes (settings : Settings) (corner : Point) : List Stroke :=
  (siteFeeds settings corner).flatMap fun (length, stroke) => drawn (some (shown length)) stroke

theorem legStrokes_siteLegs (settings : Settings) (corner position : Point) :
    legStrokes position (siteLegs shown settings corner) = siteStrokes settings corner := by
  simp only [siteLegs, legStrokes_rapid, legStrokes_feed, legStrokes_nil, Option.getD_some,
    Option.getD_none, siteStrokes, siteFeeds, primedPoint, blobPoint, Point.shown,
    List.flatMap_cons, List.flatMap_nil]

/-- A site is printed only at its corner, where priming ends, and where the blob stands. -/
theorem mem_siteStrokes {settings : Settings} {corner : Point} {stroke : Stroke}
    (member : stroke ∈ siteStrokes settings corner) :
    (stroke.1 = corner.shown ∨ stroke.1 = primedPoint settings corner ∨
        stroke.1 = blobPoint settings corner) ∧
      (stroke.2 = primedPoint settings corner ∨ stroke.2 = blobPoint settings corner) := by
  have ends : ∀ feed ∈ siteFeeds settings corner,
      (feed.2.1 = corner.shown ∨ feed.2.1 = primedPoint settings corner ∨
          feed.2.1 = blobPoint settings corner) ∧
        (feed.2.2 = primedPoint settings corner ∨ feed.2.2 = blobPoint settings corner) := by
    simp [siteFeeds]
  obtain ⟨feed, feed_mem, printed⟩ := List.mem_flatMap.mp member
  obtain rfl : stroke = feed.2 := List.mem_singleton.mp (List.mem_ite_nil_right.mp printed).2
  exact ends feed feed_mem

theorem draws_other {mnemonic : String} (arguments : List (Char × Float)) (note : Option String)
    (other : Command.ofMnemonic (upperCase mnemonic.toList) = .other mnemonic) :
    Draws [.order mnemonic arguments note] [] :=
  Draws.stay (Statement.quiet_order (by simp [other])) (Course.ofStatement_other other)

theorem draws_blank : Draws [.blank] [] :=
  Draws.stay Statement.quiet_blank rfl

theorem draws_remark (text : String) : Draws [.remark text] [] :=
  Draws.stay (Statement.quiet_remark text) rfl

theorem draws_heatStatements (temperature : Float) : Draws (heatStatements temperature) [] :=
  .quiet_cons draws_blank <| .quiet_cons (draws_remark _) <|
    .quiet_cons (draws_other _ _ (by decide)) (draws_other _ _ (by decide))

theorem draws_siteStatements (settings : Settings) (site : Site) :
    Draws (siteStatements settings site) (siteLegs shown settings site.cell.corner) := by
  have rapid := Course.ofMnemonic_rapidMove
  have feed := Course.ofMnemonic_feedMove
  have status (words : List String) : Draws [.status words] [] := by
    refine Draws.still (Statement.quiet_status words) fun state working => ?_
    rw [Course.ofStatement_status]
    exact ⟨working, rfl⟩
  have reset : Draws [.order "G92" [('E', 0.0)] none] [] := by
    refine Draws.still (Statement.quiet_order (by decide)) fun state working => ?_
    rw [Course.ofStatement_reset]
    exact ⟨working, rfl⟩
  simp only [siteStatements, siteLegs]
  refine .quiet_cons draws_blank <| .quiet_cons (draws_remark _) <| .quiet_cons (status _) <| ?_
  refine .leg_cons (.move rfl rapid rfl) <| .quiet_cons (draws_other _ _ (by decide)) <| ?_
  refine .leg_cons (.move rfl rapid rfl) <| .leg_cons (.move rfl feed rfl) <| ?_
  refine .leg_cons (.move rfl feed rfl) <| .leg_cons (.move rfl rapid rfl) <| ?_
  refine .leg_cons (.move rfl rapid rfl) <| .leg_cons (.move rfl feed rfl) <| ?_
  refine .leg_cons (.move rfl feed rfl) <| .leg_cons (.move rfl feed rfl) <| ?_
  exact .leg_cons (.move rfl rapid rfl) <| .leg_cons (.move rfl rapid rfl) reset

theorem draws_blockStatements (settings : Settings) (blocks : List Block) :
    Draws (blocks.flatMap (blockStatements settings))
      ((blocks.filterMap Block.site?).flatMap fun site =>
        siteLegs shown settings site.cell.corner) := by
  induction blocks with
  | nil => exact .nil
  | cons block blocks induction =>
      cases block with
      | heat temperature => exact (draws_heatStatements temperature).append induction
      | site site => exact (draws_siteStatements settings site).append induction

/-- Every site starts at its corner, so where it is printed does not depend on the sites before. -/
theorem legStrokes_sites (settings : Settings) (sites : List Site) (position : Point) :
    legStrokes position (sites.flatMap fun site => siteLegs shown settings site.cell.corner) =
      sites.flatMap fun site => siteStrokes settings site.cell.corner := by
  induction sites generalizing position with
  | nil => rfl
  | cons site sites induction =>
      rw [List.flatMap_cons, legStrokes_append, legStrokes_siteLegs, induction, List.flatMap_cons]

theorem quiet_headStatements (settings : Settings) (index plateCount : Nat) :
    ∀ statement ∈ settingsStatements settings index plateCount ++ preparationStatements settings,
      statement.Quiet := by
  simp only [settingsStatements, preparationStatements, List.forall_mem_append,
    List.forall_mem_cons, List.forall_mem_map, Statement.quiet_remark, Statement.quiet_blank,
    List.not_mem_nil, false_imp_iff, implies_true, true_and, and_true]
  refine ⟨?_, ?_, ?_, ?_, ?_, ?_, ?_, ?_, ?_, ?_⟩ <;> exact Statement.quiet_order (by decide)

theorem quiet_footStatements (settings : Settings) (body : PlateBody) :
    ∀ statement ∈ footStatements settings body, statement.Quiet := by
  cases body with
  | noCells =>
      simp only [footStatements, noCellStatements, List.forall_mem_cons, Statement.quiet_blank,
        Statement.quiet_remark, List.not_mem_nil, false_imp_iff, implies_true, and_self]
  | blocks blocks =>
      simp only [footStatements, footerStatements, List.forall_mem_cons, Statement.quiet_blank,
        Statement.quiet_remark, List.not_mem_nil, false_imp_iff, implies_true, true_and, and_true]
      refine ⟨?_, ?_, ?_, ?_⟩ <;> exact Statement.quiet_order (by decide)

/-- A plate is printed where its sites are, one after the other. -/
theorem strokes_plate (tower : Tower) (plan : PlatePlan)
    (oneLine : '\n' ∉ tower.profile.model.toList) :
    strokes {} (parseProgram (tower.plate plan).program) =
      plan.sites.flatMap fun site => siteStrokes tower.settings site.cell.corner := by
  have head_working : (headCourse {}).2.Working := by
    constructor <;> decide
  have head_state (rest : List ProgramLine) :
      strokes {} ((settingsStatements tower.settings plan.index plan.plateCount ++
          preparationStatements tower.settings).filterMap Statement.line? ++ rest) =
        (headCourse {}).2.strokes rest := by
    rw [MachineState.strokes_append_of_quiet (Statement.quiet_lines (quiet_headStatements _ _ _)),
      Course.run_filterMap_line?, List.map_append, Course.sequence_append,
      sequence_settingsStatements, sequence_preparationStatements, Course.stay_andThen]
  obtain ⟨after, _, _, drawn⟩ := draws_blockStatements tower.settings plan.blocks _
    ((footStatements tower.settings plan.body).filterMap Statement.line?) head_working
  rw [parseProgram_plate, parseProgram_nameLine oneLine, List.nil_append, workStatements,
    List.filterMap_append, head_state, bodyStatements_eq, List.filterMap_append, drawn,
    legStrokes_sites, ← PlatePlan.sites_eq,
    MachineState.strokes_of_quiet (Statement.quiet_lines (quiet_footStatements _ _)),
    List.append_nil]

/-- Sites stand on usable cells. -/
theorem isExcluded_corner {tower : Tower} {plan : PlatePlan} (member : plan ∈ tower.plans)
    {site : Site} (printed : site ∈ plan.sites) :
    tower.profile.isExcluded site.cell.corner = false := by
  rw [plans] at member
  split at member
  next =>
    obtain rfl := List.mem_singleton.mp member
    contradiction
  next =>
    obtain ⟨plate, _, rfl⟩ := List.mem_map.mp member
    have sites_eq : (tower.plan tower.layout plate).sites = tower.sitesOf tower.layout plate :=
      filterMap_site?_blocksOf tower true _
    rw [sites_eq] at printed
    obtain ⟨⟨cell, index⟩, cell_mem, rfl⟩ := List.mem_map.mp printed
    have usable : cell ∈ tower.layout.cells :=
      List.mem_of_mem_take (List.fst_mem_of_mem_zipIdx cell_mem)
    simpa using (List.mem_filter.mp usable).2

/-- A plate is printed where its sites are.  The corner of a site is in no excluded area, so what
is printed in one is the end of priming or the blob. -/
theorem plates_printed (tower : Tower) {plan : PlatePlan} (member : plan ∈ tower.plans)
    (oneLine : '\n' ∉ tower.profile.model.toList) :
    strokes {} (parseProgram (tower.plate plan).program) =
        plan.sites.flatMap (fun site => siteStrokes tower.settings site.cell.corner) ∧
      ∀ site ∈ plan.sites, site.cell.corner.x.isFinite = true →
        site.cell.corner.y.isFinite = true →
        tower.profile.isExcluded site.cell.corner.shown = false ∧
        ∀ stroke ∈ siteStrokes tower.settings site.cell.corner, ∀ point : Point,
          point = stroke.1 ∨ point = stroke.2 → tower.profile.isExcluded point = true →
            point = primedPoint tower.settings site.cell.corner ∨
              point = blobPoint tower.settings site.cell.corner := by
  refine ⟨tower.strokes_plate plan oneLine, ?_⟩
  intro site printed x_finite y_finite
  have corner : tower.profile.isExcluded site.cell.corner.shown = false := by
    rw [PrinterProfile.isExcluded_shown _ x_finite y_finite, isExcluded_corner member printed]
  refine ⟨corner, ?_⟩
  rintro stroke stroke_mem point ends excluded
  obtain ⟨start, finish⟩ := mem_siteStrokes stroke_mem
  rcases ends with rfl | rfl
  · rcases start with at_corner | elsewhere
    · rw [at_corner, corner] at excluded
      contradiction
    · exact elsewhere
  · exact finish

/-- A tower of one site whose primed line reaches into an excluded area. -/
def ledge : Tower :=
  ⟨{ bedWidth := 40.0, bedLength := 40.0, flowSteps := 1 },
    { model := "A", buildVolume := ⟨40.0, 40.0, 0.0⟩, excludedAreas := [⟨30.0, 0.0, 10.0, 40.0⟩] }⟩

/-- Its plate. -/
def ledgePlan : PlatePlan :=
  ledge.plan ledge.layout 0

/-- Its site. -/
def ledgeSite : Site :=
  ⟨cell ledge.settings 0 0, ledge.entry 0⟩

theorem mem_plans_ledge : ledgePlan ∈ ledge.plans :=
  List.mem_of_getElem? (show ledge.plans[0]? = some ledgePlan by decide +kernel)

theorem sites_ledgePlan : ledgePlan.sites = [ledgeSite] := by
  decide +kernel

theorem plates_printed_ledge :
    ledgePlan ∈ ledge.plans ∧ '\n' ∉ ledge.profile.model.toList ∧
      strokes {} (parseProgram (ledge.plate ledgePlan).program) =
        ledgePlan.sites.flatMap (fun site => siteStrokes ledge.settings site.cell.corner) ∧
      ledgeSite ∈ ledgePlan.sites ∧ ledgeSite.cell.corner.x.isFinite = true ∧
      ledgeSite.cell.corner.y.isFinite = true ∧
      ledge.profile.isExcluded ledgeSite.cell.corner.shown = false ∧
      ∀ stroke ∈ siteStrokes ledge.settings ledgeSite.cell.corner, ∀ point : Point,
        point = stroke.1 ∨ point = stroke.2 → ledge.profile.isExcluded point = true →
          point = primedPoint ledge.settings ledgeSite.cell.corner ∨
            point = blobPoint ledge.settings ledgeSite.cell.corner := by
  have oneLine : '\n' ∉ ledge.profile.model.toList := by decide
  have printed : ledgeSite ∈ ledgePlan.sites := by simp [sites_ledgePlan]
  have x_finite : ledgeSite.cell.corner.x.isFinite = true := by decide +kernel
  have y_finite : ledgeSite.cell.corner.y.isFinite = true := by decide +kernel
  obtain ⟨strokes_eq, sites⟩ := plates_printed ledge mem_plans_ledge oneLine
  exact ⟨mem_plans_ledge, oneLine, strokes_eq, printed, x_finite, y_finite,
    sites ledgeSite printed x_finite y_finite⟩

/-- Its primed line ends in the excluded area. -/
theorem isExcluded_primed_ledge :
    ledgePlan ∈ ledge.plans ∧ '\n' ∉ ledge.profile.model.toList ∧
      ∃ stroke ∈ strokes {} (parseProgram (ledge.plate ledgePlan).program),
        ledge.profile.isExcluded stroke.2 = true := by
  have oneLine : '\n' ∉ ledge.profile.model.toList := by decide
  refine ⟨mem_plans_ledge, oneLine, ?_⟩
  rw [strokes_plate ledge ledgePlan oneLine, sites_ledgePlan]
  decide +kernel

end Tower

end FlowCalibration
