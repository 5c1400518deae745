import FlowCalibration.Program.Line
import FlowCalibration.Program.Writing
import FlowCalibration.Proofs.Text.Words
import Mathlib.Data.List.TakeWhile

/-!
# Lines of a joined program

Reading a program that was joined from texts gives what reading the texts one after the other
gives, whatever the texts hold: a line feed inside a text, at its end or between two texts ends a
line in the same way, and an empty line or a carriage return at the end of a line is not seen.
-/

namespace FlowCalibration

namespace ProgramLine

theorem stripComment_append_left {code : List Char} (noComment : ';' ∉ code) (rest : List Char) :
    stripComment (code ++ rest) = code ++ stripComment rest := by
  have kept : ∀ c ∈ code, (c != ';') = true := by
    intro c member
    simpa using fun (same : c = ';') => noComment (same ▸ member)
  simp only [stripComment, List.takeWhile_append_of_pos kept, List.dropWhile_append_of_pos kept,
    List.append_assoc]

theorem stripComment_of_notMem {text : List Char} (noComment : ';' ∉ text) :
    stripComment text = text := by
  have stripped := stripComment_append_left noComment []
  rw [List.append_nil] at stripped
  rw [stripped]
  exact List.append_nil text

theorem bne_lineFeed_of_mem_comment {remark : List Char} (oneLine : '\n' ∉ remark) :
    ∀ c ∈ ';' :: remark, (c != '\n') = true := by
  intro c member
  rw [bne_iff_ne]
  rintro rfl
  rcases List.mem_cons.mp member with same | member
  · exact absurd same (by decide)
  · exact oneLine member

theorem stripComment_append {code remark : List Char} (noComment : ';' ∉ code)
    (oneLine : '\n' ∉ remark) : stripComment (code ++ ';' :: remark) = code := by
  have dropped : (';' :: remark).dropWhile (· != '\n') = [] :=
    List.dropWhile_eq_nil_iff.mpr (bne_lineFeed_of_mem_comment oneLine)
  rw [stripComment_append_left noComment]
  simp [stripComment, dropped]

theorem notMem_of_blank {text : List Char} (blank : ∀ c ∈ text, isBlank c = true) :
    ';' ∉ text :=
  fun member => Bool.noConfusion (isBlank_semicolon.symm.trans (blank ';' member))

theorem stripComment_append_lineFeed {lead remark : List Char} (noComment : ';' ∉ lead)
    (oneLine : '\n' ∉ remark) (back : List Char) :
    stripComment (lead ++ (';' :: remark ++ '\n' :: back)) = lead ++ '\n' :: back := by
  have comment : (';' :: remark ++ '\n' :: back).dropWhile (· != '\n') = '\n' :: back := by
    rw [List.dropWhile_append_of_pos (bne_lineFeed_of_mem_comment oneLine)]
    rfl
  rw [stripComment_append_left noComment]
  exact congrArg (lead ++ ·) comment

/-- The code of a line begins as the line does. -/
theorem isBlank_head?_stripComment {text : List Char}
    (ends : ∀ c ∈ text.head?, isBlank c = true ∨ c = ';') :
    ∀ c ∈ (stripComment text).head?, isBlank c = true := by
  cases text with
  | nil => exact fun _ none_eq => absurd none_eq (by simp [stripComment])
  | cons first text =>
      by_cases comment : first = ';'
      · subst comment
        intro c head
        have stripped : stripComment (';' :: text) = (';' :: text).dropWhile (· != '\n') := rfl
        have stops := List.head?_dropWhile_not (· != '\n') (';' :: text)
        rw [← stripped, head] at stops
        obtain rfl : c = '\n' := by simpa using stops
        exact isBlank_lineFeed
      · have kept : ';' ∉ [first] := by simpa [eq_comm] using comment
        have blank : isBlank first = true := (ends first rfl).resolve_right comment
        rw [← List.singleton_append, stripComment_append_left kept]
        simpa using blank

theorem parse?_congr {text other : List Char}
    (code_words : FlowCalibration.words (stripComment text) =
      FlowCalibration.words (stripComment other))
    (text_words : FlowCalibration.words text = FlowCalibration.words other) :
    parse? text = parse? other := by
  simp only [parse?, messageOf, code_words, text_words]

theorem parse?_comment {remark : List Char} (oneLine : '\n' ∉ remark) :
    parse? (';' :: remark) = none := by
  have stripped : stripComment ([] ++ ';' :: remark) = [] :=
    stripComment_append (by simp) oneLine
  rw [List.nil_append] at stripped
  simp [parse?, stripped]

theorem stripComment_of_oneLine {line : List Char} (oneLine : '\n' ∉ line) :
    stripComment line = line.takeWhile (· != ';') := by
  have dropped : (line.dropWhile (· != ';')).dropWhile (· != '\n') = [] := by
    rw [List.dropWhile_eq_nil_iff]
    intro c member
    have differs : c ≠ '\n' := by
      rintro rfl
      exact oneLine ((List.dropWhile_suffix _).subset member)
    simpa using differs
  rw [stripComment, dropped, List.append_nil]

/-- A blank at the end of a line belongs to its comment or to none of its words. -/
theorem words_stripComment_append_blank {line : List Char} (oneLine : '\n' ∉ line) {blank : Char}
    (isBlank_eq : isBlank blank = true) (notLineFeed : blank ≠ '\n') :
    FlowCalibration.words (stripComment (line ++ [blank])) =
      FlowCalibration.words (stripComment line) := by
  have extended : '\n' ∉ line ++ [blank] := by simp [oneLine, Ne.symm notLineFeed]
  have notSemicolon : (blank != ';') = true := by
    rw [bne_iff_ne]
    rintro rfl
    exact Bool.noConfusion (isBlank_eq.symm.trans isBlank_semicolon)
  rw [stripComment_of_oneLine extended, stripComment_of_oneLine oneLine, List.takeWhile_append]
  split
  next complete =>
    have kept : [blank].takeWhile (· != ';') = [blank] := by simp [notSemicolon]
    rw [kept, words_append_blank line isBlank_eq, (List.takeWhile_prefix _).eq_of_length complete]
  next => rfl

theorem parse?_append_return {line : List Char} (oneLine : '\n' ∉ line) :
    parse? (line ++ ['\r']) = parse? line := by
  have blank : isBlank '\r' = true := by decide
  exact parse?_congr (words_stripComment_append_blank oneLine blank (by decide))
    (words_append_blank line blank)

end ProgramLine

/-- The lines of a text that have a command. -/
def parseLines (text : List Char) : List ProgramLine :=
  (splitLines text).filterMap ProgramLine.parse?

/-- The lines read from a text after the characters `seen` of a line that has begun, last first. -/
def parseLinesAfter (seen text : List Char) : List ProgramLine :=
  (linesAfter seen text).filterMap ProgramLine.parse?

theorem parseLinesAfter_nil (seen : List Char) :
    parseLinesAfter seen [] = (ProgramLine.parse? seen.reverse).toList := by
  cases seen with
  | nil => rfl
  | cons c seen =>
      simp only [parseLinesAfter, linesAfter, List.isEmpty_cons, Bool.false_eq_true, if_false]
      cases parsed : ProgramLine.parse? (c :: seen).reverse with
      | none => simp only [List.filterMap_cons, parsed, List.filterMap_nil, Option.toList_none]
      | some line => simp only [List.filterMap_cons, parsed, List.filterMap_nil, Option.toList_some]

/-- A line feed ends the line that has begun as the end of the text does. -/
theorem parseLinesAfter_lineFeed {seen : List Char} (oneLine : '\n' ∉ seen) (rest : List Char) :
    parseLinesAfter seen ('\n' :: rest) =
      (ProgramLine.parse? seen.reverse).toList ++ parseLines rest := by
  have ended (line : List Char) :
      (line :: linesAfter [] rest).filterMap ProgramLine.parse? =
        (ProgramLine.parse? line).toList ++ parseLines rest := by
    cases parsed : ProgramLine.parse? line <;> simp [parsed, parseLines, splitLines]
  rw [parseLinesAfter, linesAfter.eq_def]
  simp only
  split
  next line =>
    have line_oneLine : '\n' ∉ line.reverse := by simpa using oneLine
    rw [ended, List.reverse_cons, ProgramLine.parse?_append_return line_oneLine]
  next => exact ended _

/-- A line feed cuts a text into two that are read one after the other. -/
theorem parseLinesAfter_append {seen : List Char} (oneLine : '\n' ∉ seen)
    (front rest : List Char) :
    parseLinesAfter seen (front ++ '\n' :: rest) =
      parseLinesAfter seen front ++ parseLines rest := by
  induction front generalizing seen with
  | nil => rw [List.nil_append, parseLinesAfter_lineFeed oneLine, parseLinesAfter_nil]
  | cons c front induction =>
      by_cases lineFeed : c = '\n'
      · subst lineFeed
        have empty_oneLine : '\n' ∉ ([] : List Char) := by simp
        rw [List.cons_append, parseLinesAfter_lineFeed oneLine, parseLinesAfter_lineFeed oneLine,
          List.append_assoc]
        exact congrArg _ (induction empty_oneLine)
      · have next_oneLine : '\n' ∉ c :: seen := by
          simp [Ne.symm lineFeed, oneLine]
        have step (text : List Char) :
            parseLinesAfter seen (c :: text) = parseLinesAfter (c :: seen) text := by
          rw [parseLinesAfter, linesAfter]
          · rfl
          · exact lineFeed
        rw [List.cons_append, step, step]
        exact induction next_oneLine

theorem parseLines_append (front rest : List Char) :
    parseLines (front ++ '\n' :: rest) = parseLines front ++ parseLines rest :=
  parseLinesAfter_append (by simp) front rest

theorem parseLinesAfter_of_notMem {seen text : List Char} (oneLine : '\n' ∉ text) :
    parseLinesAfter seen text = (ProgramLine.parse? (seen.reverse ++ text)).toList := by
  induction text generalizing seen with
  | nil => rw [parseLinesAfter_nil, List.append_nil]
  | cons c text induction =>
      have notLineFeed : c ≠ '\n' := by
        rintro rfl
        exact oneLine List.mem_cons_self
      have rest_oneLine : '\n' ∉ text := fun member => oneLine (List.mem_cons_of_mem _ member)
      rw [parseLinesAfter, linesAfter]
      · have continued : parseLinesAfter (c :: seen) text = _ := induction rest_oneLine
        simpa [parseLinesAfter] using continued
      · exact notLineFeed

theorem parseLines_of_notMem {text : List Char} (oneLine : '\n' ∉ text) :
    parseLines text = (ProgramLine.parse? text).toList :=
  parseLinesAfter_of_notMem oneLine

theorem parseProgram_eq (program : String) : parseProgram program = parseLines program.toList :=
  rfl

/-- A joined program is read text after text. -/
theorem parseProgram_joinLines (texts : List String) :
    parseProgram (joinLines texts) = texts.flatMap parseProgram := by
  rw [parseProgram_eq, joinLines, String.toList_ofList]
  induction texts with
  | nil => rfl
  | cons text texts induction =>
      cases texts with
      | nil => simp [parseProgram_eq]
      | cons next texts =>
          rw [List.map_cons, List.map_cons, List.intercalate_cons_cons]
          simp only [List.map_cons] at induction
          rw [List.append_assoc, List.singleton_append, parseLines_append, induction]
          rfl

/-! ## Lines as they are written -/

/-- Lines of a text, cut at every line feed. -/
def textLines (text : String) : List String :=
  (text.toList.splitOn '\n').map String.ofList

theorem joinLines_textLines (text : String) : joinLines (textLines text) = text := by
  rw [joinLines, textLines, List.map_map]
  simp [Function.comp_def, List.intercalate_splitOn]

theorem notMem_of_mem_textLines {text line : String} (member : line ∈ textLines text) :
    '\n' ∉ line.toList := by
  have pieces (chars : List Char) : ∀ piece ∈ chars.splitOn '\n', '\n' ∉ piece := by
    induction chars with
    | nil => simp
    | cons c chars induction =>
        rw [List.splitOn_cons_eq_if_modifyHead]
        split
        · simpa using induction
        next notLineFeed =>
          have different : '\n' ≠ c := fun same => notLineFeed (beq_iff_eq.mpr same.symm)
          cases split_eq : chars.splitOn '\n' with
          | nil => exact absurd split_eq (List.splitOn_ne_nil _ _)
          | cons piece pieces =>
              rw [split_eq] at induction
              simpa [different] using induction
  obtain ⟨piece, piece_mem, rfl⟩ := List.mem_map.mp member
  rw [String.toList_ofList]
  exact pieces text.toList piece piece_mem

theorem textLines_of_notMem {text : String} (oneLine : '\n' ∉ text.toList) :
    textLines text = [text] := by
  rw [textLines, List.splitOn_eq_singleton oneLine, List.map_singleton, String.ofList_toList]

theorem textLines_joinLines {texts : List String} (nonempty : texts ≠ []) :
    textLines (joinLines texts) = texts.flatMap textLines := by
  rw [textLines, joinLines, String.toList_ofList]
  induction texts with
  | nil => contradiction
  | cons text texts induction =>
      cases texts with
      | nil => simp [textLines]
      | cons next texts =>
          have rest := induction (List.cons_ne_nil next texts)
          rw [List.map_cons] at rest
          rw [List.map_cons, List.map_cons, List.intercalate_cons_cons, List.append_assoc,
            List.singleton_append, List.splitOn_append_cons_self, List.map_append, rest]
          rfl

/-- Lines behind the first texts of a program are lines of the program as they are. -/
theorem textLines_joinLines_append {front back : List String} (nonempty : front ≠ [])
    (oneLine : ∀ line ∈ back, '\n' ∉ line.toList) :
    textLines (joinLines (front ++ back)) = front.flatMap textLines ++ back := by
  have kept : back.flatMap textLines = back := by
    induction back with
    | nil => rfl
    | cons line back induction =>
        rw [List.flatMap_cons, textLines_of_notMem (oneLine line List.mem_cons_self),
          induction fun other member => oneLine other (List.mem_cons_of_mem _ member)]
        rfl
  rw [textLines_joinLines (List.append_ne_nil_of_left_ne_nil nonempty _), List.flatMap_append, kept]

end FlowCalibration
