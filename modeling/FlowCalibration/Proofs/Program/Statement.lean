import FlowCalibration.Proofs.Decimal.RoundTrip
import FlowCalibration.Proofs.Program.Lines

/-!
# Statements

A statement is what a line of a generated program is meant to say.  Its text is the line as it is
written, and reading that text gives the statement's command with every argument as it was written
and nothing else: blanks, remarks and comments are not seen.
-/

namespace FlowCalibration

/-- The meaning of one line of a program. -/
inductive Statement
  /-- An empty line. -/
  | blank
  /-- A comment, the text after the semicolon. -/
  | remark (text : String)
  /-- A message, word by word. -/
  | status (message : List String)
  /-- A mnemonic with letters and numbers, and perhaps a comment. -/
  | order (mnemonic : String) (arguments : List (Char × Float)) (remark : Option String)

namespace Statement

/-- A letter with its number. -/
def argumentText (argument : Char × Float) : List Char :=
  argument.1 :: (Double.number argument.2).toList

/-- The comment behind an order. -/
def remarkText : Option String → List Char
  | none => []
  | some note => ' ' :: ';' :: ' ' :: note.toList

/-- A line without its comment: words with a blank before each but the first. -/
def codeText (first : String) (others : List (List Char)) : List Char :=
  first.toList ++ others.flatMap (' ' :: ·)

/-- The line as it is written. -/
def text : Statement → String
  | blank => ""
  | remark text => ";" ++ text
  | status message => String.ofList (codeText "M117" (message.map String.toList))
  | order mnemonic arguments note =>
      String.ofList (codeText mnemonic (arguments.map argumentText) ++ remarkText note)

/-- The line as it is read. -/
def line? : Statement → Option ProgramLine
  | blank => none
  | remark _ => none
  | status message =>
      some
        { command := .statusMessage
          mnemonic := "M117"
          words :=
            (words (ProgramLine.stripComment
              ((message.map String.toList).flatMap (' ' :: ·)))).filterMap ProgramLine.wordOf?
          message := some (String.ofList (List.intercalate [' '] (message.map String.toList))) }
  | order mnemonic arguments _ =>
      some
        { command := .ofMnemonic (upperCase mnemonic.toList)
          mnemonic := String.ofList (upperCase mnemonic.toList)
          words := arguments.map fun (letter, value) => ⟨letter.toUpper, Double.shown value⟩
          message := none }

/-- Whether a character can stand inside a word of an order. -/
def isOrderChar (c : Char) : Bool :=
  !isBlank c && c != ',' && c != ';'

/-- Text that stays within a word. -/
def Solid (word : List Char) : Prop :=
  word ≠ [] ∧ ∀ c ∈ word, isBlank c = false ∧ c ≠ ','

/-- Text that stays within a line. -/
def OneLine (text : List Char) : Prop :=
  ∀ c ∈ text, c ≠ '\n' ∧ c ≠ ','

-- Only the members of a text are tried; without this an instance may try every character.
instance (word : List Char) : Decidable (Solid word) :=
  @instDecidableAnd (word ≠ []) _ inferInstance (List.decidableBAll _ word)

instance (text : List Char) : Decidable (OneLine text) :=
  List.decidableBAll _ text

/-- Whether the parts of a statement can stand where its text puts them. -/
def Fits : Statement → Prop
  | blank => True
  | remark text => OneLine text.toList
  | status message => ∀ word ∈ message, Solid word.toList
  | order mnemonic arguments note =>
      (mnemonic.toList ≠ [] ∧ mnemonic.toList.all isOrderChar = true ∧
        Command.ofMnemonic (upperCase mnemonic.toList) ≠ .statusMessage) ∧
      (arguments.all fun argument => isOrderChar argument.1) = true ∧
      OneLine (remarkText note)

/-! ## Texts that fit -/

theorem solid_number (value : Float) : Solid (Double.number value).toList := by
  refine ⟨Double.number_ne_nil value, fun c member => ?_⟩
  have numeric := Double.isNumberChar_of_mem_number member
  exact ⟨Double.isBlank_of_isNumberChar numeric, Double.ne_of_isNumberChar numeric (by decide)⟩

theorem Solid.oneLine {word : List Char} (solid : Solid word) : OneLine word := by
  intro c member
  obtain ⟨notBlank, notComma⟩ := solid.2 c member
  refine ⟨?_, notComma⟩
  rintro rfl
  exact absurd notBlank (by decide)

theorem Solid.notBlank {word : List Char} (solid : Solid word) :
    ∀ c ∈ word, isBlank c = false :=
  fun c member => (solid.2 c member).1

theorem isOrderChar_iff {c : Char} :
    isOrderChar c = true ↔ isBlank c = false ∧ c ≠ ',' ∧ c ≠ ';' := by
  simp [isOrderChar, and_assoc]

theorem solid_of_isOrderChar {word : List Char} (nonempty : word ≠ [])
    (fits : word.all isOrderChar = true) : Solid word ∧ ';' ∉ word := by
  rw [List.all_eq_true] at fits
  refine ⟨⟨nonempty, fun c member => ?_⟩, fun member => ?_⟩
  · obtain ⟨notBlank, notComma, _⟩ := isOrderChar_iff.mp (fits c member)
    exact ⟨notBlank, notComma⟩
  · exact (isOrderChar_iff.mp (fits ';' member)).2.2 rfl

theorem solid_argumentText {argument : Char × Float} (fits : isOrderChar argument.1 = true) :
    Solid (argumentText argument) ∧ ';' ∉ argumentText argument := by
  obtain ⟨notBlank, notComma, notComment⟩ := isOrderChar_iff.mp fits
  refine ⟨⟨by simp [argumentText], fun c member => ?_⟩, fun member => ?_⟩
  · rcases List.mem_cons.mp member with rfl | member
    · exact ⟨notBlank, notComma⟩
    · exact (solid_number argument.2).2 c member
  · rcases List.mem_cons.mp member with same | member
    · exact notComment same.symm
    · exact absurd (Double.isNumberChar_of_mem_number member) (by decide)

@[simp]
theorem oneLine_append {front back : List Char} :
    OneLine (front ++ back) ↔ OneLine front ∧ OneLine back := by
  simp only [OneLine, List.forall_mem_append]

theorem oneLine_cons {c : Char} {tail : List Char} :
    OneLine (c :: tail) ↔ (c ≠ '\n' ∧ c ≠ ',') ∧ OneLine tail := by
  simp only [OneLine, List.forall_mem_cons]

@[simp]
theorem oneLine_number (value : Float) : OneLine (Double.number value).toList :=
  (solid_number value).oneLine

theorem OneLine.notMem {text : List Char} (oneLine : OneLine text) : '\n' ∉ text :=
  fun member => (oneLine '\n' member).1 rfl

theorem oneLine_codeText {first : String} {others : List (List Char)}
    (first_solid : Solid first.toList) (others_solid : ∀ other ∈ others, Solid other) :
    OneLine (codeText first others) := by
  refine oneLine_append.mpr ⟨first_solid.oneLine, fun c member => ?_⟩
  obtain ⟨other, other_mem, member⟩ := List.mem_flatMap.mp member
  rcases List.mem_cons.mp member with rfl | member
  · decide
  · exact (others_solid other other_mem).oneLine c member

theorem solid_of_mem_argumentText {arguments : List (Char × Float)}
    (fits : (arguments.all fun argument => isOrderChar argument.1) = true) :
    ∀ other ∈ arguments.map argumentText, Solid other ∧ ';' ∉ other := by
  intro other member
  obtain ⟨argument, argument_mem, rfl⟩ := List.mem_map.mp member
  exact solid_argumentText (List.all_eq_true.mp fits argument argument_mem)

theorem solid_of_mem_status {message : List String}
    (solid : ∀ word ∈ message, Solid word.toList) :
    ∀ other ∈ message.map String.toList, Solid other := by
  intro other member
  obtain ⟨word, word_mem, rfl⟩ := List.mem_map.mp member
  exact solid word word_mem

theorem oneLine_text {statement : Statement} (fits : statement.Fits) :
    OneLine statement.text.toList := by
  cases statement with
  | blank => decide
  | remark text =>
      rw [Statement.text, String.toList_append]
      exact oneLine_append.mpr ⟨by decide, fits⟩
  | status message =>
      rw [Statement.text, String.toList_ofList]
      exact oneLine_codeText (by decide) (solid_of_mem_status fits)
  | order mnemonic arguments note =>
      obtain ⟨⟨nonempty, mnemonic_fits, _⟩, arguments_fit, note_fits⟩ := fits
      rw [Statement.text, String.toList_ofList]
      exact oneLine_append.mpr
        ⟨oneLine_codeText (solid_of_isOrderChar nonempty mnemonic_fits).1
          (fun other member => (solid_of_mem_argumentText arguments_fit other member).1),
          note_fits⟩

/-- Commas are turned into points where there is none. -/
theorem pointed_text {statement : Statement} (fits : statement.Fits) :
    pointed statement.text = statement.text := by
  have kept : ∀ c ∈ statement.text.toList, (if c = ',' then '.' else c) = c := by
    intro c member
    rw [if_neg (oneLine_text fits c member).2]
  rw [pointed, List.map_congr_left kept, List.map_id', String.ofList_toList]

/-! ## Reading statements -/

theorem words_codeText {first : String} {others : List (List Char)}
    (first_solid : Solid first.toList) (others_solid : ∀ other ∈ others, Solid other) :
    words (codeText first others) = first.toList :: others :=
  words_join first_solid.1 first_solid.notBlank (fun other member => (others_solid other member).1)
    (fun other member => (others_solid other member).notBlank)

theorem notMem_codeText {first : String} {others : List (List Char)}
    (first_noComment : ';' ∉ first.toList) (others_noComment : ∀ other ∈ others, ';' ∉ other) :
    ';' ∉ codeText first others := by
  intro member
  rcases List.mem_append.mp member with member | member
  · exact first_noComment member
  · obtain ⟨other, other_mem, member⟩ := List.mem_flatMap.mp member
    rcases List.mem_cons.mp member with same | member
    · exact absurd same (by decide)
    · exact others_noComment other other_mem member

theorem words_stripComment {code : List Char} (noComment : ';' ∉ code) {note : Option String}
    (fits : OneLine (remarkText note)) :
    words (ProgramLine.stripComment (code ++ remarkText note)) = words code := by
  cases note with
  | none =>
      rw [remarkText, List.append_nil, ProgramLine.stripComment_of_notMem noComment]
  | some note =>
      obtain ⟨_, _, note_fits⟩ : _ ∧ _ ∧ OneLine (' ' :: note.toList) := by
        simpa only [remarkText, oneLine_cons] using fits
      have code_noComment : ';' ∉ code ++ [' '] := by simpa using noComment
      have split : code ++ remarkText (some note) = code ++ [' '] ++ ';' :: ' ' :: note.toList := by
        simp [remarkText]
      rw [split, ProgramLine.stripComment_append code_noComment note_fits.notMem]
      exact words_append_blank code (by decide)

/-- An argument is read as its letter in upper case with the number that was written. -/
theorem wordOf?_argumentText (argument : Char × Float) :
    ProgramLine.wordOf? (argumentText argument) =
      some ⟨argument.1.toUpper, Double.shown argument.2⟩ := by
  have value := readNumber?_number argument.2 NumberText.stops_nil
  rw [List.append_nil] at value
  rw [argumentText, ProgramLine.wordOf?, value, Option.getD_some]

theorem parse?_order {mnemonic : String} {arguments : List (Char × Float)}
    {note : Option String} (fits : (order mnemonic arguments note).Fits) :
    ProgramLine.parse? (order mnemonic arguments note).text.toList =
      (order mnemonic arguments note).line? := by
  obtain ⟨⟨nonempty, mnemonic_fits, notStatus⟩, arguments_fit, note_fits⟩ := fits
  obtain ⟨solid, noComment⟩ := solid_of_isOrderChar nonempty mnemonic_fits
  have arguments_solid := solid_of_mem_argumentText arguments_fit
  have code_noComment : ';' ∉ codeText mnemonic (arguments.map argumentText) :=
    notMem_codeText noComment fun other member => (arguments_solid other member).2
  have split : words (ProgramLine.stripComment
      (codeText mnemonic (arguments.map argumentText) ++ remarkText note)) =
        mnemonic.toList :: arguments.map argumentText := by
    rw [words_stripComment code_noComment note_fits]
    exact words_codeText solid fun other member => (arguments_solid other member).1
  have read : (arguments.map argumentText).filterMap ProgramLine.wordOf? =
      arguments.map fun (letter, value) => ⟨letter.toUpper, Double.shown value⟩ := by
    rw [List.filterMap_map, ← List.filterMap_eq_map]
    exact congrArg (fun read => arguments.filterMap read) (funext wordOf?_argumentText)
  rw [Statement.text, String.toList_ofList, ProgramLine.parse?]
  simp only [split, read, if_neg notStatus, line?]

theorem parse?_status {message : List String} (fits : (status message).Fits) :
    ProgramLine.parse? (status message).text.toList = (status message).line? := by
  have mnemonic : upperCase "M117".toList = "M117".toList := by decide
  have command : Command.ofMnemonic "M117".toList = .statusMessage := by decide
  have noComment : ';' ∉ "M117".toList := by decide
  have solid : Solid "M117".toList := by decide
  have message_words : words (codeText "M117" (message.map String.toList)) =
      "M117".toList :: message.map String.toList :=
    words_codeText solid (solid_of_mem_status fits)
  have ends : ∀ c ∈ (ProgramLine.stripComment
      ((message.map String.toList).flatMap (' ' :: ·))).head?, isBlank c = true := by
    apply ProgramLine.isBlank_head?_stripComment
    intro c head
    left
    cases message with
    | nil => cases head
    | cons word message => cases head; exact isBlank_space
  have code_words : words (ProgramLine.stripComment
      (codeText "M117" (message.map String.toList))) =
        "M117".toList :: words (ProgramLine.stripComment
          ((message.map String.toList).flatMap (' ' :: ·))) := by
    rw [codeText, ProgramLine.stripComment_append_left noComment]
    exact words_append solid.1 solid.notBlank ends
  rw [Statement.text, String.toList_ofList, ProgramLine.parse?]
  simp only [code_words, mnemonic, command, if_true, ProgramLine.messageOf, message_words,
    List.drop_one, List.tail_cons, line?, String.ofList_toList]

/-- A statement is read back from its text. -/
theorem parse?_text {statement : Statement} (fits : statement.Fits) :
    ProgramLine.parse? statement.text.toList = statement.line? := by
  cases statement with
  | blank => rfl
  | remark text =>
      rw [Statement.text, String.toList_append]
      exact ProgramLine.parse?_comment (OneLine.notMem fits)
  | status message => exact parse?_status fits
  | order mnemonic arguments note => exact parse?_order fits

theorem parseProgram_text {statement : Statement} (fits : statement.Fits) :
    parseProgram statement.text = statement.line?.toList := by
  rw [parseProgram_eq, parseLines_of_notMem (oneLine_text fits).notMem, parse?_text fits]

theorem parseProgram_joinLines_text {statements : List Statement}
    (fits : ∀ statement ∈ statements, statement.Fits) :
    parseProgram (joinLines (statements.map text)) = statements.filterMap line? := by
  have read : ∀ statement ∈ statements, parseProgram statement.text = statement.line?.toList :=
    fun statement member => parseProgram_text (fits statement member)
  rw [parseProgram_joinLines, List.flatMap_map, List.filterMap_eq_flatMap_toList]
  exact List.flatMap_congr read

end Statement

end FlowCalibration
