import FlowCalibration.Proofs.Decimal.Plain
import FlowCalibration.Proofs.Tower.Exclusion

/-!
# The grammar of plates

A line of a plate is empty, a comment, a message or an order: a mnemonic and letters with plain
decimals, which any firmware reads alike.  The settings do not matter for this.  A value that
overflows, or that is no number, is written as a plain decimal too, and the feed rate of a blob has
a lower bound that no setting passes.
-/

namespace FlowCalibration

/-! ## Lines that firmware reads -/

/-- A word that names a command: a capital letter with digits behind it. -/
def IsMnemonic : List Char → Prop
  | [] => False
  | letter :: digits => letter.isUpper = true ∧ digits ≠ [] ∧ digits.all Char.isDigit = true

/-- A word that gives a value: a capital letter with a plain decimal behind it. -/
def IsArgument : List Char → Prop
  | [] => False
  | letter :: number => letter.isUpper = true ∧ IsPlainDecimal number

/-- A line that is a mnemonic and arguments when its comment is cut off. -/
def IsOrder (line : List Char) : Prop :=
  ∃ mnemonic arguments, words (ProgramLine.stripComment line) = mnemonic :: arguments ∧
    IsMnemonic mnemonic ∧ ∀ argument ∈ arguments, IsArgument argument

/-- A line that is empty, a comment, a message or an order. -/
def IsProgramLine (line : String) : Prop :=
  line ≠ "" → ¬ ";".toList <+: line.toList → ¬ "M117".toList <+: line.toList → IsOrder line.toList

instance (word : List Char) : Decidable (IsMnemonic word) :=
  match word with
  | [] => instDecidableFalse
  | _ :: _ => inferInstanceAs (Decidable (_ ∧ _))

namespace Statement

/-- Whether a statement names its command and its values with capital letters. -/
def IsRegular : Statement → Prop
  | order mnemonic arguments _ =>
      IsMnemonic mnemonic.toList ∧ (arguments.all fun argument => argument.1.isUpper) = true
  | _ => True

theorem isArgument_argumentText {argument : Char × Float} (capital : argument.1.isUpper = true) :
    IsArgument (argumentText argument) :=
  ⟨capital, .number argument.2⟩

theorem words_order {mnemonic : String} {arguments : List (Char × Float)} {note : Option String}
    (fits : (order mnemonic arguments note).Fits) :
    words (ProgramLine.stripComment (order mnemonic arguments note).text.toList) =
      mnemonic.toList :: arguments.map argumentText := by
  obtain ⟨⟨nonempty, mnemonic_fits, _⟩, arguments_fit, note_fits⟩ := fits
  obtain ⟨solid, noComment⟩ := solid_of_isOrderChar nonempty mnemonic_fits
  have arguments_solid := solid_of_mem_argumentText arguments_fit
  rw [Statement.text, String.toList_ofList, words_stripComment
    (notMem_codeText noComment fun other member => (arguments_solid other member).2) note_fits]
  exact words_codeText solid fun other member => (arguments_solid other member).1

theorem isProgramLine_text {statement : Statement} (fits : statement.Fits)
    (regular : statement.IsRegular) : IsProgramLine statement.text := by
  intro nonempty notComment notMessage
  cases statement with
  | blank => contradiction
  | remark text =>
      refine absurd ?_ notComment
      rw [Statement.text, String.toList_append]
      exact List.prefix_append _ _
  | status message =>
      refine absurd ?_ notMessage
      have text : (status message).text.toList = codeText "M117" (message.map String.toList) :=
        String.toList_ofList
      rw [text]
      exact List.prefix_append _ _
  | order mnemonic arguments note =>
      obtain ⟨named, capital⟩ := regular
      refine ⟨mnemonic.toList, arguments.map argumentText, words_order fits, named, ?_⟩
      rw [List.forall_mem_map]
      exact fun argument member =>
        isArgument_argumentText (List.all_eq_true.mp capital argument member)

end Statement

namespace Tower

open Double (shown)
open Statement (remark order)

/-! ## The lines of a plate -/

theorem isRegular_preparationStatements (settings : Settings) :
    ∀ statement ∈ preparationStatements settings, statement.IsRegular := by
  simp only [preparationStatements, List.forall_mem_cons]
  refine ⟨?_, ?_, ?_, ?_, ?_, ?_, ?_, ?_, ?_, ?_, by simp⟩ <;> exact ⟨by decide, rfl⟩

theorem isRegular_settingsStatements (settings : Settings) (index plateCount : Nat) :
    ∀ statement ∈ settingsStatements settings index plateCount, statement.IsRegular := by
  simp only [settingsStatements, List.forall_mem_append, List.forall_mem_cons,
    List.forall_mem_map]
  exact ⟨⟨⟨trivial, trivial, by simp⟩, fun _ _ => trivial⟩, trivial, by simp⟩

theorem isRegular_blockStatements (settings : Settings) (block : Block) :
    ∀ statement ∈ blockStatements settings block, statement.IsRegular := by
  cases block with
  | heat temperature =>
      simp only [blockStatements, heatStatements, List.forall_mem_cons]
      refine ⟨trivial, trivial, ?_, ?_, by simp⟩ <;> exact ⟨by decide, rfl⟩
  | site site =>
      simp only [blockStatements, siteStatements, List.forall_mem_cons]
      refine ⟨trivial, trivial, trivial, ?_, ?_, ?_, ?_, ?_, ?_, ?_, ?_, ?_, ?_, ?_, ?_, ?_,
        by simp⟩ <;> exact ⟨by decide, rfl⟩

theorem isRegular_footerStatements (settings : Settings) :
    ∀ statement ∈ footerStatements settings, statement.IsRegular := by
  simp only [footerStatements, List.forall_mem_cons]
  refine ⟨trivial, trivial, ?_, ?_, ?_, ?_, by simp⟩ <;> exact ⟨by decide, rfl⟩

theorem isRegular_noCellStatements : ∀ statement ∈ noCellStatements, statement.IsRegular := by
  simp only [noCellStatements, List.forall_mem_cons]
  exact ⟨trivial, trivial, by simp⟩

theorem isRegular_workStatements (tower : Tower) (plan : PlatePlan) :
    ∀ statement ∈ tower.workStatements plan, statement.IsRegular := by
  simp only [workStatements, List.forall_mem_append]
  exact ⟨⟨isRegular_settingsStatements _ _ _, isRegular_preparationStatements _⟩,
    forall_mem_bodyStatements (isRegular_blockStatements _) (isRegular_footerStatements _)
      isRegular_noCellStatements _⟩

/-- A plate of a printer whose name has no line feed is the text of regular statements. -/
theorem exists_statements (tower : Tower) (plan : PlatePlan)
    (oneLine : '\n' ∉ tower.profile.model.toList) :
    ∃ statements : List Statement, textLines (tower.plate plan).program =
        statements.map Statement.text ∧
      ∀ statement ∈ statements, statement.Fits ∧ statement.IsRegular := by
  let statements :=
    titleRemark :: nameRemark tower.profile.model :: tower.workStatements plan
  have good : ∀ statement ∈ statements, statement.Fits ∧ statement.IsRegular := by
    simp only [statements, List.forall_mem_cons]
    exact ⟨⟨fits_titleRemark, trivial⟩, ⟨fits_nameRemark oneLine, trivial⟩,
      fun statement member => ⟨tower.fits_workStatements plan statement member,
        tower.isRegular_workStatements plan statement member⟩⟩
  refine ⟨statements, ?_, good⟩
  have lines : tower.planLines plan = statements.map Statement.text := by
    rw [planLines_eq, nameLine_eq]
    rfl
  have single : ∀ statement ∈ statements, textLines statement.text = [statement.text] :=
    fun statement member =>
      textLines_of_notMem (Statement.oneLine_text (good statement member).1).notMem
  rw [plate, lines, textLines_joinLines (by simp [statements]), List.flatMap_map,
    List.flatMap_congr single, List.map_eq_flatMap]

/-! ## The lines that extrude blobs -/

/-- A line that extrudes while the nozzle rises. -/
def isBlobLine (line : ProgramLine) : Bool :=
  line.command == .linearMove false && (line.value? 'Z').isSome

/-- The line that extrudes the blob of a site, as it is read. -/
def blobLine (settings : Settings) (site : Site) : ProgramLine :=
  { command := .linearMove false
    mnemonic := "G1"
    words :=
      [ ⟨'Z', shown (blobBase + settings.blobHeight)⟩,
        ⟨'E', shown settings.extrusionAmount⟩,
        ⟨'F', shown (blobFeedRate settings site.entry.flow)⟩ ]
    message := none }

/-- The lines that extrude blobs among statements. -/
def blobLines (statements : List Statement) : List ProgramLine :=
  (statements.filterMap Statement.line?).filter isBlobLine

theorem blobLines_append (front back : List Statement) :
    blobLines (front ++ back) = blobLines front ++ blobLines back := by
  simp only [blobLines, List.filterMap_append, List.filter_append]

theorem blobLines_of_quiet {statements : List Statement}
    (quiet : ∀ statement ∈ statements, statement.Quiet) : blobLines statements = [] := by
  rw [blobLines, List.filter_eq_nil_iff]
  intro line member
  simp [isBlobLine, Statement.quiet_lines quiet line member]

theorem blobLines_blockStatements (settings : Settings) (block : Block) :
    blobLines (blockStatements settings block) =
      (block.site?.map (blobLine settings)).toList := by
  cases block with
  | heat temperature => rfl
  | site site => rfl

theorem blobLines_blocks (settings : Settings) (blocks : List Block) :
    blobLines (blocks.flatMap (blockStatements settings)) =
      (blocks.filterMap Block.site?).map (blobLine settings) := by
  induction blocks with
  | nil => rfl
  | cons block blocks induction =>
      rw [List.flatMap_cons, blobLines_append, induction, blobLines_blockStatements]
      cases block <;> rfl

/-- Each site of a plate has one line that extrudes its blob, and there are no others. -/
theorem blobLines_workStatements (tower : Tower) (plan : PlatePlan) :
    blobLines (tower.workStatements plan) = plan.sites.map (blobLine tower.settings) := by
  have head := blobLines_of_quiet
    (quiet_headStatements tower.settings plan.index plan.plateCount)
  have foot := blobLines_of_quiet (quiet_footStatements tower.settings plan.body)
  rw [workStatements, blobLines_append, head, List.nil_append, bodyStatements_eq, blobLines_append,
    foot, List.append_nil, blobLines_blocks, PlatePlan.sites_eq]

/-- Feed rates of blobs are finite and at least the lowest one. -/
theorem blobFeedRate_bounded (settings : Settings) (flow : Float) :
    (blobFeedRate settings flow).isFinite = true ∧
      minBlobFeedRate ≤ blobFeedRate settings flow := by
  -- A rate that is not finite never reaches the comparison with the lowest one.
  have lowest : minBlobFeedRate.isFinite = true := by decide +kernel
  simp only [blobFeedRate]
  split
  next finite => exact ⟨Double.isFinite_max finite lowest, Double.le_max_right finite lowest⟩
  next => exact ⟨lowest, Double.le_refl lowest⟩

theorem le_blobFeedRate (settings : Settings) (flow : Float) :
    minBlobFeedRate ≤ shown (blobFeedRate settings flow) := by
  obtain ⟨finite, bounded⟩ := blobFeedRate_bounded settings flow
  rw [Double.shown_of_isFinite finite, Double.le_unsignedZero_iff]
  exact bounded

theorem value?_blobLine (settings : Settings) (site : Site) :
    (blobLine settings site).value? 'F' = some (shown (blobFeedRate settings site.entry.flow)) :=
  rfl

/-- Whatever the settings are, a plate holds no comma, its lines are empty, comments, messages or
orders, and each of its blobs is extruded with a feed rate of at least one. -/
theorem plates_grammar (tower : Tower) (oneLine : '\n' ∉ tower.profile.model.toList)
    {plate : Plate} (member : plate ∈ tower.plates) :
    (∀ line ∈ textLines plate.program, ',' ∉ line.toList ∧ IsProgramLine line) ∧
      ((parseProgram plate.program).filter isBlobLine).length = plate.steps ∧
      ∀ line ∈ parseProgram plate.program, isBlobLine line = true →
        ∃ feed, line.value? 'F' = some feed ∧ 1.0 ≤ feed := by
  obtain ⟨plan, _, rfl⟩ := List.mem_map.mp member
  have blobs : (parseProgram (tower.plate plan).program).filter isBlobLine =
      plan.sites.map (blobLine tower.settings) := by
    rw [parseProgram_plate, parseProgram_nameLine oneLine, List.nil_append]
    exact blobLines_workStatements tower plan
  refine ⟨?_, ?_, ?_⟩
  · obtain ⟨statements, lines, good⟩ := tower.exists_statements plan oneLine
    rw [lines, List.forall_mem_map]
    intro statement statement_mem
    obtain ⟨fits, regular⟩ := good statement statement_mem
    exact ⟨fun comma => (Statement.oneLine_text fits ',' comma).2 rfl,
      Statement.isProgramLine_text fits regular⟩
  · rw [blobs, List.length_map]
    rfl
  · intro line line_mem blob
    obtain ⟨site, _, rfl⟩ := List.mem_map.mp (blobs ▸ List.mem_filter.mpr ⟨line_mem, blob⟩)
    exact ⟨_, value?_blobLine _ _, le_blobFeedRate _ _⟩

/-- A tower of one site for a printer with a comma in its name, whose feed rates overflow or are no
numbers. -/
def unbounded : Tower :=
  ⟨{ bedWidth := 40.0, bedLength := 40.0, flowSteps := 1, startFlow := 0.0, extrusionAmount := 0.0,
      movementSpeed := 1e308, fanSpeed := -1e308 },
    { model := "A, B", buildVolume := ⟨40.0, 40.0, 0.0⟩ }⟩

/-- Its plate. -/
def unboundedPlate : Plate :=
  unbounded.plate (unbounded.plan unbounded.layout 0)

theorem plates_grammar_unbounded :
    '\n' ∉ unbounded.profile.model.toList ∧ unboundedPlate ∈ unbounded.plates ∧
      (∀ line ∈ textLines unboundedPlate.program, ',' ∉ line.toList ∧ IsProgramLine line) ∧
      ((parseProgram unboundedPlate.program).filter isBlobLine).length = unboundedPlate.steps ∧
      ∀ line ∈ parseProgram unboundedPlate.program, isBlobLine line = true →
        ∃ feed, line.value? 'F' = some feed ∧ 1.0 ≤ feed := by
  have oneLine : '\n' ∉ unbounded.profile.model.toList := by decide
  have planned : unbounded.plan unbounded.layout 0 ∈ unbounded.plans :=
    List.mem_of_getElem? (show unbounded.plans[0]? = some _ by decide +kernel)
  have member : unboundedPlate ∈ unbounded.plates := List.mem_map_of_mem planned
  exact ⟨oneLine, member, plates_grammar unbounded oneLine member⟩

end Tower

end FlowCalibration
