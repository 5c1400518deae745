import FlowCalibration.Proofs.Program.Courses
import FlowCalibration.Proofs.Program.LetterCase
import Mathlib.Logic.Relation

/-!
# Edits that a program does not notice

A program may be tidied up without changing what it does: lines that the machine ignores may go,
and on a line that shows no message the comment, the blanks and the case of ASCII letters do not
count.  A carriage return at the end of a line never counts.  Each edit keeps what is read from the
lines, or takes out a line that is read but not acted on, so any number of edits keeps the run.
-/

namespace FlowCalibration

namespace ProgramLine

/-- The words of a line before its comment. -/
def codeWords (text : List Char) : List (List Char) :=
  FlowCalibration.words (stripComment text)

/-- The line of some words, without a message. -/
def ofWords? : List (List Char) → Option ProgramLine
  | [] => none
  | first :: tokens =>
      some
        { command := .ofMnemonic (upperCase first)
          mnemonic := String.ofList (upperCase first)
          words := tokens.filterMap wordOf?
          message := none }

/-- The command of a line of text, if it has one. -/
def commandOf? (line : String) : Option Command :=
  (parse? line.toList).map command

/-- A line is read from the words before its comment; only a message is taken from elsewhere. -/
theorem parse?_eq (text : List Char) :
    parse? text = (ofWords? (codeWords text)).map fun line =>
      { line with
        message := if line.command = .statusMessage then some (messageOf text) else none } := by
  rw [parse?, codeWords]
  cases FlowCalibration.words (stripComment text) <;> rfl

/-- Lines that show no message are the same when their words are. -/
theorem parse?_congr_of_quiet {line other : String}
    (quiet : commandOf? line ≠ some .statusMessage)
    (same : ofWords? (codeWords other.toList) = ofWords? (codeWords line.toList)) :
    parse? other.toList = parse? line.toList := by
  rw [commandOf?, parse?_eq] at quiet
  rw [parse?_eq, parse?_eq, same]
  cases read : ofWords? (codeWords line.toList) with
  | none => rfl
  | some code =>
      have notStatus : code.command ≠ .statusMessage := by simpa [read] using quiet
      simp only [Option.map_some, if_neg notStatus]

/-! ## Words that an edit keeps -/

theorem codeWords_uncomment {line : List Char} (oneLine : '\n' ∉ line) :
    codeWords (line.takeWhile (· != ';')) = codeWords line := by
  have noComment : ';' ∉ line.takeWhile (· != ';') := by
    intro member
    simpa using List.mem_takeWhile_imp member
  rw [codeWords, codeWords, stripComment_of_notMem noComment, stripComment_of_oneLine oneLine]

/-- A comment begins at the same place of a text with its blanks collapsed. -/
theorem takeWhile_collapse (text : List Char) :
    (collapse text).takeWhile (· != ';') = collapse (text.takeWhile (· != ';')) := by
  induction text with
  | nil => rfl
  | cons c text induction =>
      by_cases comment : c = ';'
      · subst comment
        simp [collapse, isBlank_semicolon]
      · have kept : (c != ';') = true := by simpa using comment
        have head : (text.takeWhile (· != ';')).head?.any isBlank = text.head?.any isBlank := by
          cases text with
          | nil => rfl
          | cons next text =>
              by_cases next_comment : next = ';'
              · subst next_comment
                simp [isBlank_semicolon]
              · simp [next_comment]
        have space : (' ' != ';') = true := by decide
        rw [collapse, List.takeWhile_cons, if_pos kept, collapse, head]
        split
        · split
          · exact induction
          · rw [List.takeWhile_cons, if_pos space, induction]
        · rw [List.takeWhile_cons, if_pos kept, induction]

theorem codeWords_collapse {line : List Char} (oneLine : '\n' ∉ line) :
    codeWords (collapse line) = codeWords line := by
  have collapsed_oneLine : '\n' ∉ collapse line := by
    intro member
    rcases mem_collapse member with space | member
    · exact absurd space (by decide)
    · exact oneLine member
  rw [codeWords, codeWords, stripComment_of_oneLine collapsed_oneLine,
    stripComment_of_oneLine oneLine, takeWhile_collapse, words_collapse]

theorem codeWords_trimLeft (line : List Char) : codeWords (trimLeft line) = codeWords line := by
  induction line with
  | nil => rfl
  | cons c line induction =>
      cases blank : isBlank c with
      | false => simp [trimLeft, blank]
      | true =>
          have code : ';' ∉ [c] := by
            rw [List.mem_singleton]
            rintro rfl
            exact absurd blank (by decide)
          have dropped : codeWords (c :: line) = codeWords line := by
            rw [codeWords, ← List.singleton_append, stripComment_append_left code,
              List.singleton_append, words_blank_cons blank, codeWords]
          rw [dropped, ← induction, trimLeft, List.dropWhile_cons_of_pos blank, trimLeft]

theorem codeWords_trimRight {line : List Char} (oneLine : '\n' ∉ line) :
    codeWords (trimRight line) = codeWords line := by
  induction line using List.reverseRecOn with
  | nil => rfl
  | append_singleton line c induction =>
      obtain ⟨line_oneLine, notLineFeed⟩ : '\n' ∉ line ∧ c ≠ '\n' := by
        simpa [Ne, eq_comm] using oneLine
      cases blank : isBlank c with
      | false => simp [trimRight, blank]
      | true =>
          have cut : trimRight (line ++ [c]) = trimRight line := by simp [trimRight, blank]
          rw [cut, induction line_oneLine, codeWords, codeWords,
            words_stripComment_append_blank line_oneLine blank notLineFeed]

theorem codeWords_trim {line : List Char} (oneLine : '\n' ∉ line) :
    codeWords (trim line) = codeWords line := by
  have trimmed_oneLine : '\n' ∉ trimLeft line :=
    fun member => oneLine ((List.dropWhile_suffix _).subset member)
  rw [trim, codeWords_trimRight trimmed_oneLine, codeWords_trimLeft]

theorem ofWords?_codeWords_of_equalIgnoringCase {line other : String}
    (same : equalIgnoringCase line other = true) :
    ofWords? (codeWords other.toList) = ofWords? (codeWords line.toList) := by
  have lowered (text : List Char) :
      ofWords? (codeWords (text.map Char.toLower)) = ofWords? (codeWords text) := by
    rw [codeWords, stripComment_map_toLower, words_map isBlank_toLower, codeWords]
    cases FlowCalibration.words (stripComment text) with
    | nil => rfl
    | cons first tokens =>
        simp only [List.map_cons, ofWords?, upperCase_map_toLower, List.filterMap_map,
          Function.comp_def, wordOf?_map_toLower]
  have letters : line.toList.map Char.toLower = other.toList.map Char.toLower := by
    simpa [equalIgnoringCase] using same
  rw [← lowered other.toList, ← letters, lowered line.toList]

end ProgramLine

/-! ## Edits -/

open ProgramLine (commandOf?)

/-- An edit of a line that does not count unless the line shows a message. -/
inductive LineEdit (line : String) : String → Prop
  /-- The part from the first semicolon on is taken off. -/
  | uncomment : LineEdit line (String.ofList (line.toList.takeWhile (· != ';')))
  /-- Every run of blanks becomes one space. -/
  | collapse : LineEdit line (String.ofList (collapse line.toList))
  /-- The blanks at both ends are taken off. -/
  | trim : LineEdit line (trimText line)
  /-- ASCII letters change their case. -/
  | recase {other : String} (same : equalIgnoringCase line other = true) : LineEdit line other

/-- What may stand between a line and its line feed. -/
def returns : List String := ["", "\r"]

/-- An edit of one line of a program, where lines are cut at line feeds. -/
inductive Edit : List String → List String → Prop
  /-- A line goes that has no command, or one that the machine ignores. -/
  | delete (front back : List String) {line : String}
      (idle : ∀ command ∈ commandOf? line, ∃ mnemonic, command = .other mnemonic) :
      Edit (front ++ line :: back) (front ++ back)
  /-- A line that shows no message is tidied up before its end. -/
  | tidy (front back : List String) {line other ending : String}
      (quiet : commandOf? line ≠ some .statusMessage) (edit : LineEdit line other)
      (ends : ending ∈ returns) :
      Edit (front ++ (line ++ ending) :: back) (front ++ (other ++ ending) :: back)
  /-- A line ends with a carriage return before its line feed. -/
  | endReturn (front back : List String) (line : String) :
      Edit (front ++ line :: back) (front ++ (line ++ "\r") :: back)

/-- Whether texts have no line feed. -/
def OneLiners (lines : List String) : Prop :=
  ∀ line ∈ lines, '\n' ∉ line.toList

namespace LineEdit

variable {line other : String}

theorem oneLine (edit : LineEdit line other) (line_oneLine : '\n' ∉ line.toList) :
    '\n' ∉ other.toList := by
  cases edit with
  | uncomment =>
      rw [String.toList_ofList]
      exact fun member => line_oneLine ((List.takeWhile_prefix _).subset member)
  | collapse =>
      rw [String.toList_ofList]
      intro member
      rcases mem_collapse member with space | member
      · exact absurd space (by decide)
      · exact line_oneLine member
  | trim =>
      rw [trimText, String.toList_ofList, FlowCalibration.trim, trimRight]
      intro member
      have right : '\n' ∈ trimLeft line.toList := by
        simpa using (List.dropWhile_suffix _).subset (List.mem_reverse.mp member)
      exact line_oneLine ((List.dropWhile_suffix _).subset right)
  | recase same =>
      have letters : line.toList.map Char.toLower = other.toList.map Char.toLower := by
        simpa [equalIgnoringCase] using same
      intro member
      have lowered : '\n'.toLower ∈ line.toList.map Char.toLower :=
        letters ▸ List.mem_map_of_mem member
      obtain ⟨c, c_mem, c_lower⟩ := List.mem_map.mp lowered
      have kept : '\n'.toLower = '\n' := by decide
      rw [kept, toLower_eq_iff (by decide) (by decide)] at c_lower
      exact line_oneLine (c_lower ▸ c_mem)

theorem parse?_eq (edit : LineEdit line other) (line_oneLine : '\n' ∉ line.toList)
    (quiet : commandOf? line ≠ some .statusMessage) :
    ProgramLine.parse? other.toList = ProgramLine.parse? line.toList := by
  apply ProgramLine.parse?_congr_of_quiet quiet
  cases edit with
  | uncomment => rw [String.toList_ofList, ProgramLine.codeWords_uncomment line_oneLine]
  | collapse => rw [String.toList_ofList, ProgramLine.codeWords_collapse line_oneLine]
  | trim => rw [trimText, String.toList_ofList, ProgramLine.codeWords_trim line_oneLine]
  | recase same => exact ProgramLine.ofWords?_codeWords_of_equalIgnoringCase same

end LineEdit

namespace Edit

variable {lines others : List String}

theorem notMem_append_iff {ending : String} (ends : ending ∈ returns) (line : String) :
    '\n' ∉ (line ++ ending).toList ↔ '\n' ∉ line.toList := by
  simp only [returns, List.mem_cons, List.not_mem_nil, or_false] at ends
  rcases ends with rfl | rfl <;> simp

theorem parse?_append {ending : String} (ends : ending ∈ returns) {line : String}
    (oneLine : '\n' ∉ line.toList) :
    ProgramLine.parse? (line ++ ending).toList = ProgramLine.parse? line.toList := by
  simp only [returns, List.mem_cons, List.not_mem_nil, or_false] at ends
  rcases ends with rfl | rfl
  · rw [String.append_empty]
  · rw [String.toList_append]
    exact ProgramLine.parse?_append_return oneLine

theorem oneLiners (edit : Edit lines others) (lines_oneLine : OneLiners lines) :
    OneLiners others := by
  have return_mem : "\r" ∈ returns := by decide
  cases edit with
  | delete front back idle =>
      simp only [OneLiners, List.forall_mem_append, List.forall_mem_cons] at lines_oneLine ⊢
      exact ⟨lines_oneLine.1, lines_oneLine.2.2⟩
  | tidy front back quiet edit ends =>
      simp only [OneLiners, List.forall_mem_append, List.forall_mem_cons,
        notMem_append_iff ends] at lines_oneLine ⊢
      exact ⟨lines_oneLine.1, edit.oneLine lines_oneLine.2.1, lines_oneLine.2.2⟩
  | endReturn front back line =>
      simpa only [OneLiners, List.forall_mem_append, List.forall_mem_cons,
        notMem_append_iff return_mem] using lines_oneLine

theorem run_idle {line : String} (oneLine : '\n' ∉ line.toList)
    (idle : ∀ command ∈ commandOf? line, ∃ mnemonic, command = .other mnemonic)
    (state : MachineState) : state.run (parseProgram line) = ([], state) := by
  rw [parseProgram_eq, parseLines_of_notMem oneLine]
  cases read : ProgramLine.parse? line.toList with
  | none => rfl
  | some parsed =>
      obtain ⟨mnemonic, command⟩ := idle parsed.command (by simp [commandOf?, read])
      simp only [Option.toList_some, MachineState.run, MachineState.step, command]
      rfl

theorem parseProgram_congr {line other : String} (line_oneLine : '\n' ∉ line.toList)
    (other_oneLine : '\n' ∉ other.toList)
    (same : ProgramLine.parse? other.toList = ProgramLine.parse? line.toList) :
    parseProgram other = parseProgram line := by
  rw [parseProgram_eq, parseProgram_eq, parseLines_of_notMem other_oneLine,
    parseLines_of_notMem line_oneLine, same]

/-- One edit keeps what happens in a run and the state at its end. -/
theorem run_eq (edit : Edit lines others) (lines_oneLine : OneLiners lines)
    (state : MachineState) :
    state.run (others.flatMap parseProgram) = state.run (lines.flatMap parseProgram) := by
  have others_oneLine := edit.oneLiners lines_oneLine
  cases edit with
  | delete front back idle =>
      have line_oneLine := lines_oneLine _ (List.mem_append_right front List.mem_cons_self)
      simp only [List.flatMap_append, List.flatMap_cons, Course.run_append,
        run_idle line_oneLine idle, List.nil_append]
  | @tidy front back line other ending quiet edit ends =>
      have full_oneLine := lines_oneLine _ (List.mem_append_right front List.mem_cons_self)
      have edited_oneLine := others_oneLine _ (List.mem_append_right front List.mem_cons_self)
      have line_oneLine := (notMem_append_iff ends line).mp full_oneLine
      have other_oneLine := (notMem_append_iff ends other).mp edited_oneLine
      have same := edit.parse?_eq line_oneLine quiet
      rw [← parse?_append ends line_oneLine, ← parse?_append ends other_oneLine] at same
      simp only [List.flatMap_append, List.flatMap_cons,
        parseProgram_congr full_oneLine edited_oneLine same]
  | endReturn front back line =>
      have line_oneLine := lines_oneLine _ (List.mem_append_right front List.mem_cons_self)
      have edited_oneLine := others_oneLine _ (List.mem_append_right front List.mem_cons_self)
      have return_mem : "\r" ∈ returns := by decide
      have same := parse?_append return_mem line_oneLine
      simp only [List.flatMap_append, List.flatMap_cons,
        parseProgram_congr line_oneLine edited_oneLine same]

theorem tidy_line (front back : List String) {line other : String}
    (quiet : commandOf? line ≠ some .statusMessage) (edit : LineEdit line other) :
    Edit (front ++ line :: back) (front ++ other :: back) := by
  have ends : "" ∈ returns := by decide
  simpa only [String.append_empty] using Edit.tidy front back quiet edit ends

end Edit

/-- Edits of a program that do not count, however many, keep everything that happens when it is
replayed and the state at its end. -/
theorem replay_of_edits {program : String} {lines : List String}
    (edits : Relation.ReflTransGen Edit (textLines program) lines) :
    replay (joinLines lines) = replay program := by
  have kept : OneLiners lines ∧
      MachineState.run {} (lines.flatMap parseProgram) =
        MachineState.run {} ((textLines program).flatMap parseProgram) := by
    induction edits with
    | refl => exact ⟨fun _ member => notMem_of_mem_textLines member, rfl⟩
    | tail _ edit induction =>
        obtain ⟨oneLine, run_eq⟩ := induction
        exact ⟨edit.oneLiners oneLine, (edit.run_eq oneLine {}).trans run_eq⟩
  rw [replay, parseProgram_joinLines, kept.2, ← parseProgram_joinLines, joinLines_textLines, replay]

/-- A program with a comment, blanks, small letters, a command that is ignored and a message. -/
def untidyProgram : String :=
  "g1\t x1.5e1  E2 ; prime\nG4 S1\nM117 wait ; please\r\nG0 Z5"

/-- The lines of that program after some edits. -/
def tidyLines : List String :=
  ["G1 X1.5E1 e2\r", "M117 wait ; please\r", "G0 Z5"]

theorem replay_of_edits_untidy :
    Relation.ReflTransGen Edit (textLines untidyProgram) tidyLines ∧
      replay (joinLines tidyLines) = replay untidyProgram := by
  have lines : textLines untidyProgram =
      ["g1\t x1.5e1  E2 ; prime", "G4 S1", "M117 wait ; please\r", "G0 Z5"] := by
    decide
  have edits : Relation.ReflTransGen Edit (textLines untidyProgram) tidyLines := by
    have uncommented : LineEdit "g1\t x1.5e1  E2 ; prime" "g1\t x1.5e1  E2 " := .uncomment
    have collapsed : LineEdit "g1\t x1.5e1  E2 " "g1 x1.5e1 E2 " := .collapse
    have trimmed : LineEdit "g1 x1.5e1 E2 " "g1 x1.5e1 E2" := .trim
    have recased : LineEdit "g1 x1.5e1 E2" "G1 X1.5E1 e2" := .recase (by decide)
    have idle : ∀ command ∈ commandOf? "G4 S1", ∃ mnemonic, command = .other mnemonic := by
      rintro command ⟨⟩
      exact ⟨"G4", rfl⟩
    rw [lines]
    exact .head (.tidy_line [] _ (by decide) uncommented) <|
      .head (.tidy_line [] _ (by decide) collapsed) <|
      .head (.tidy_line [] _ (by decide) trimmed) <|
      .head (.tidy_line [] _ (by decide) recased) <|
      .head (.delete ["G1 X1.5E1 e2"] _ idle) <|
      .single (.endReturn [] _ "G1 X1.5E1 e2")
  exact ⟨edits, replay_of_edits edits⟩

end FlowCalibration
