import FlowCalibration.Proofs.Program.Lines
import FlowCalibration.Proofs.Text.Spacing

/-!
# Where a message begins

The mnemonic of a line is found before its comment, but its message is cut from the whole line
behind the first word.  The message is what follows the mnemonic when the line begins with it and
no semicolon touches it.  Behind `M117;` the message begins with the next word only, and behind a
comment that a line feed ends it begins in the comment.
-/

namespace FlowCalibration

theorem Command.ofMnemonic_eq_statusMessage_iff {mnemonic : List Char} :
    Command.ofMnemonic mnemonic = .statusMessage ↔
      ∃ digits, mnemonic = 'M' :: digits ∧ Command.number? digits = some 117 := by
  constructor
  · intro status
    unfold Command.ofMnemonic at status
    split at status
    next digits => split at status <;> cases status
    next digits =>
      split at status
      next => cases status
      next => cases status
      next number => exact ⟨digits, rfl, number⟩
      next => cases status
    next => cases status
  · rintro ⟨digits, rfl, number⟩
    simp [Command.ofMnemonic, number]

/-- The number of a mnemonic is written with digits and perhaps a plus sign. -/
theorem Command.mem_of_number? {digits : List Char} {number : Nat}
    (read : Command.number? digits = some number) :
    ∀ c ∈ digits, c = '+' ∨ c.isDigit = true := by
  have digital {unsigned : List Char}
      (numeric : ¬ (unsigned.isEmpty || !unsigned.all Char.isDigit) = true) :
      ∀ c ∈ unsigned, c.isDigit = true := by
    simp only [Bool.or_eq_true, not_or, Bool.not_eq_true', Bool.not_eq_false] at numeric
    exact List.all_eq_true.mp numeric.2
  simp only [Command.number?] at read
  intro c member
  split at read
  next tail =>
    split at read
    next => contradiction
    next numeric => exact (List.mem_cons.mp member).imp_right (digital numeric c)
  next =>
    split at read
    next => contradiction
    next numeric => exact .inr (digital numeric c member)

namespace ProgramLine

/-- What is skipped before the mnemonic of a line: blanks, and perhaps a comment that a line feed
ends. -/
def Skipped (front : List Char) : Prop :=
  (∀ c ∈ front, isBlank c = true) ∨
    ∃ lead remark gap, front = lead ++ (';' :: remark ++ '\n' :: gap) ∧
      (∀ c ∈ lead, isBlank c = true) ∧ '\n' ∉ remark ∧ ∀ c ∈ gap, isBlank c = true

/-- The mnemonic of a message in a text, with the parts before it and behind it. -/
structure StatusAt (text front mnemonic rest : List Char) : Prop where
  text_eq : text = front ++ (mnemonic ++ rest)
  skipped : Skipped front
  /-- The letter `M` with the number 117. -/
  reads : ∃ digits, upperCase mnemonic = 'M' :: digits ∧ Command.number? digits = some 117
  solid : ∀ c ∈ mnemonic, isBlank c = false ∧ c ≠ ';'
  /-- A blank ends the mnemonic, or the first semicolon does. -/
  ends : ∀ c ∈ rest.head?, isBlank c = true ∨ c = ';' ∧ ';' ∉ front

/-- A message is the text behind the first word, tidied up. -/
theorem messageOf_eq (text : List Char) :
    messageOf text = String.ofList (tidied (behindFirstWord text)) := by
  rw [messageOf, ← words_behindFirstWord, intercalate_words]

namespace StatusAt

variable {text front mnemonic rest : List Char}

theorem nonempty (place : StatusAt text front mnemonic rest) : mnemonic ≠ [] := by
  rintro rfl
  obtain ⟨digits, upper, _⟩ := place.reads
  exact List.cons_ne_nil _ _ upper.symm

theorem notBlank (place : StatusAt text front mnemonic rest) : ∀ c ∈ mnemonic, isBlank c = false :=
  fun c member => (place.solid c member).1

theorem notMem_mnemonic (place : StatusAt text front mnemonic rest) : ';' ∉ mnemonic :=
  fun member => (place.solid ';' member).2 rfl

theorem isBlank_head?_rest (place : StatusAt text front mnemonic rest) (comment : ';' ∈ front) :
    ∀ c ∈ rest.head?, isBlank c = true :=
  fun c head => (place.ends c head).resolve_right fun first => first.2 comment

theorem words_gap (place : StatusAt text front mnemonic rest) (comment : ';' ∈ front)
    {gap : List Char} (gap_blank : ∀ c ∈ gap, isBlank c = true) :
    FlowCalibration.words ('\n' :: (gap ++ (mnemonic ++ rest))) =
      mnemonic :: FlowCalibration.words rest := by
  rw [words_blank_cons isBlank_lineFeed, words_append_left gap_blank,
    words_append place.nonempty place.notBlank (place.isBlank_head?_rest comment)]

theorem words_stripComment (place : StatusAt text front mnemonic rest) :
    ∃ others, FlowCalibration.words (stripComment text) = mnemonic :: others := by
  obtain blank | ⟨lead, remark, gap, rfl, lead_blank, oneLine, gap_blank⟩ := place.skipped
  · have ends := isBlank_head?_stripComment fun c head => (place.ends c head).imp_right And.left
    refine ⟨FlowCalibration.words (stripComment rest), ?_⟩
    rw [place.text_eq, stripComment_append_left (notMem_of_blank blank),
      stripComment_append_left place.notMem_mnemonic, words_append_left blank,
      words_append place.nonempty place.notBlank ends]
  · have split : text = lead ++ (';' :: remark ++ '\n' :: (gap ++ (mnemonic ++ rest))) := by
      simp [place.text_eq]
    refine ⟨FlowCalibration.words rest, ?_⟩
    rw [split, stripComment_append_lineFeed (notMem_of_blank lead_blank) oneLine,
      words_append_left lead_blank, place.words_gap (by simp) gap_blank]

/-- The words behind the first are those behind the mnemonic unless a comment stands before the
mnemonic or touches it. -/
theorem drop_words_eq_iff (place : StatusAt text front mnemonic rest) :
    (FlowCalibration.words text).drop 1 = FlowCalibration.words rest ↔
      (∀ c ∈ front, isBlank c = true) ∧ rest.head? ≠ some ';' := by
  obtain blank | ⟨lead, remark, gap, rfl, lead_blank, oneLine, gap_blank⟩ := place.skipped
  · rw [place.text_eq, words_append_left blank, and_iff_right blank]
    by_cases touches : rest.head? = some ';'
    · obtain ⟨tail, rfl⟩ := List.head?_eq_some_iff.mp touches
      obtain ⟨word, others, words_eq⟩ :=
        List.exists_cons_of_ne_nil (words_ne_nil isBlank_semicolon tail)
      rw [words_append_of_solid place.notBlank touches isBlank_semicolon, words_eq,
        List.modifyHead_cons, List.drop_one, List.tail_cons]
      exact iff_of_false (List.cons_ne_self word others).symm (not_not_intro touches)
    · have ends : ∀ c ∈ rest.head?, isBlank c = true := fun c head =>
        (place.ends c head).resolve_right fun first => touches (first.1 ▸ head)
      rw [words_append place.nonempty place.notBlank ends]
      exact iff_of_true rfl touches
  · have split : text = lead ++ (';' :: remark ++ '\n' :: (gap ++ (mnemonic ++ rest))) := by
      simp [place.text_eq]
    obtain ⟨word, others, words_eq⟩ :=
      List.exists_cons_of_ne_nil (words_ne_nil isBlank_semicolon remark)
    rw [split, words_append_left lead_blank, words_append_of_blank _ (by simp [isBlank_lineFeed]),
      words_eq, place.words_gap (by simp) gap_blank, List.cons_append, List.drop_one,
      List.tail_cons]
    apply iff_of_false
    · intro same
      have lengths := congrArg List.length same
      rw [List.length_append, List.length_cons] at lengths
      omega
    · rintro ⟨blank, _⟩
      exact notMem_of_blank blank (by simp)

end StatusAt

/-! ## The place of the mnemonic -/

section Place

variable {first digits : List Char} {others : List (List Char)}

/-- No semicolon is in the mnemonic of a message. -/
theorem notMem_of_reads (upper : upperCase first = 'M' :: digits)
    (number : Command.number? digits = some 117) : ';' ∉ first := by
  intro member
  have upper_mem : ';' ∈ 'M' :: digits := by
    rw [← upper, upperCase, List.mem_flatMap]
    exact ⟨';', member, by decide⟩
  rcases List.mem_cons.mp upper_mem with same | digits_mem
  · exact absurd same (by decide)
  · rcases Command.mem_of_number? number ';' digits_mem with same | digit
    · exact absurd same (by decide)
    · exact absurd digit (by decide)

theorem statusAt_of_code {code tail : List Char}
    (split : FlowCalibration.words code = first :: others) (comment : ∀ c ∈ tail.head?, c = ';')
    (upper : upperCase first = 'M' :: digits) (number : Command.number? digits = some 117) :
    StatusAt (code ++ tail) (code.takeWhile isBlank) first (behindFirstWord code ++ tail) := by
  have blank : ∀ c ∈ code.takeWhile isBlank, isBlank c = true := fun _ => List.mem_takeWhile_imp
  obtain ⟨-, words_eq⟩ := words_eq_cons (split ▸ List.cons_ne_nil first others)
  obtain ⟨rfl, -⟩ := List.cons_eq_cons.mp (split.symm.trans words_eq)
  refine ⟨?_, .inl blank, ⟨digits, upper, number⟩, ?_, ?_⟩
  · rw [← List.append_assoc (firstWord code), ← List.append_assoc, append_firstWord_append]
  · intro c member
    exact ⟨solid_firstWord code c member,
      fun same => notMem_of_reads upper number (same ▸ member)⟩
  · intro c head
    rw [List.head?_append] at head
    cases behind : (behindFirstWord code).head? with
    | none => exact .inr ⟨comment c (by rwa [behind] at head), notMem_of_blank blank⟩
    | some d =>
        have same : d = c := by simpa [behind] using head
        exact .inl (same ▸ isBlank_head?_behindFirstWord code d behind)

/-- The first word behind a comment that a line feed ends is the mnemonic. -/
theorem statusAt_of_comment {lead remark back : List Char}
    (split : FlowCalibration.words back = first :: others)
    (blank : ∀ c ∈ lead, isBlank c = true) (oneLine : '\n' ∉ remark)
    (upper : upperCase first = 'M' :: digits) (number : Command.number? digits = some 117) :
    StatusAt (lead ++ (';' :: remark ++ '\n' :: back))
      (lead ++ (';' :: remark ++ '\n' :: back.takeWhile isBlank)) first (behindFirstWord back) := by
  have gap_blank : ∀ c ∈ back.takeWhile isBlank, isBlank c = true := fun _ =>
    List.mem_takeWhile_imp
  obtain ⟨-, words_eq⟩ := words_eq_cons (split ▸ List.cons_ne_nil first others)
  obtain ⟨rfl, -⟩ := List.cons_eq_cons.mp (split.symm.trans words_eq)
  refine ⟨?_, .inr ⟨lead, remark, _, rfl, blank, oneLine, gap_blank⟩, ⟨digits, upper, number⟩, ?_,
    fun c head => .inl (isBlank_head?_behindFirstWord back c head)⟩
  · conv_lhs => rw [← append_firstWord_append back]
    simp
  · intro c member
    exact ⟨solid_firstWord back c member,
      fun same => notMem_of_reads upper number (same ▸ member)⟩

theorem exists_statusAt {text : List Char}
    (split : FlowCalibration.words (stripComment text) = first :: others)
    (status : Command.ofMnemonic (upperCase first) = .statusMessage) :
    ∃ front rest, StatusAt text front first rest := by
  obtain ⟨digits, upper, number⟩ := Command.ofMnemonic_eq_statusMessage_iff.mp status
  by_cases comment : ';' ∈ text
  · obtain ⟨code, body, rfl, noComment⟩ := List.eq_append_cons_of_mem comment
    have of_code {tokens : List (List Char)}
        (code_words : FlowCalibration.words code = first :: tokens) :
        ∃ front rest, StatusAt (code ++ ';' :: body) front first rest :=
      ⟨_, _, statusAt_of_code code_words (by simp) upper number⟩
    by_cases ended : '\n' ∈ body
    · obtain ⟨remark, back, rfl, oneLine⟩ := List.eq_append_cons_of_mem ended
      have stripped : stripComment (code ++ ';' :: (remark ++ '\n' :: back)) =
          code ++ '\n' :: back := stripComment_append_lineFeed noComment oneLine back
      rw [stripped, words_append_of_blank code (by simp [isBlank_lineFeed])] at split
      cases code_words : FlowCalibration.words code with
      | cons word words =>
          rw [code_words, List.cons_append] at split
          obtain ⟨rfl, -⟩ := List.cons_eq_cons.mp split
          exact of_code code_words
      | nil =>
          rw [code_words, List.nil_append, words_blank_cons isBlank_lineFeed] at split
          exact ⟨_, _,
            statusAt_of_comment split (words_eq_nil_iff.mp code_words) oneLine upper number⟩
    · rw [stripComment_append noComment ended] at split
      exact of_code split
  · rw [stripComment_of_notMem comment] at split
    have place : StatusAt (text ++ []) _ first _ :=
      statusAt_of_code split (by simp) upper number
    rw [List.append_nil] at place
    exact ⟨_, _, place⟩

end Place

/-! ## The message of a line -/

/-- The message of a line is the text behind its first word, tidied up.  It is the text behind the
mnemonic just when only blanks stand before the mnemonic and no semicolon touches it. -/
theorem message_eq_behind_mnemonic_iff {text : List Char} {line : ProgramLine}
    (read : parse? text = some line) (status : line.command = .statusMessage) :
    line.message = some (String.ofList (tidied (behindFirstWord text))) ∧
      (∃ front mnemonic rest, StatusAt text front mnemonic rest) ∧
      ∀ front mnemonic rest, StatusAt text front mnemonic rest →
        line.mnemonic = String.ofList (upperCase mnemonic) ∧
          (line.message = some (String.ofList (tidied rest)) ↔
            (∀ c ∈ front, isBlank c = true) ∧ rest.head? ≠ some ';') := by
  rw [parse?] at read
  cases split : FlowCalibration.words (stripComment text) with
  | nil => simp [split] at read
  | cons first tokens =>
      simp only [split, Option.some.injEq] at read
      subst read
      simp only at status
      simp only [status, if_true]
      rw [messageOf_eq]
      refine ⟨rfl, ?_, ?_⟩
      · obtain ⟨front, rest, place⟩ := exists_statusAt split status
        exact ⟨front, first, rest, place⟩
      · intro front mnemonic rest place
        obtain ⟨others, words_eq⟩ := place.words_stripComment
        obtain ⟨rfl, -⟩ := List.cons_eq_cons.mp (split.symm.trans words_eq)
        refine ⟨rfl, ?_⟩
        rw [Option.some_inj, String.ofList_inj, tidied_eq_iff, words_behindFirstWord,
          place.drop_words_eq_iff]

/-- A line with a semicolon at its mnemonic. -/
def gluedText : List Char :=
  "M117;8mm3/s now".toList

/-- What is read from the line. -/
def gluedLine : ProgramLine where
  command := .statusMessage
  mnemonic := "M117"
  words := []
  message := some "now"

theorem statusAt_gluedText : StatusAt gluedText [] "M117".toList ";8mm3/s now".toList where
  text_eq := by decide
  skipped := .inl (List.forall_mem_nil _)
  reads := ⟨"117".toList, by decide, by decide⟩
  solid := by
    have kept : "M117".toList.all (fun c => !isBlank c && c != ';') = true := by decide
    simpa using kept
  ends c head := .inr ⟨(Option.some.inj head).symm, List.not_mem_nil⟩

theorem message_eq_behind_mnemonic_iff_gluedText :
    parse? gluedText = some gluedLine ∧
      gluedLine.message = some (String.ofList (tidied (behindFirstWord gluedText))) ∧
      gluedLine.message ≠ some (String.ofList (tidied ";8mm3/s now".toList)) := by
  have read : parse? gluedText = some gluedLine := by decide +kernel
  obtain ⟨behind, -, follows⟩ := message_eq_behind_mnemonic_iff read rfl
  obtain ⟨-, follows_iff⟩ := follows _ _ _ statusAt_gluedText
  exact ⟨read, behind, fun same => (follows_iff.mp same).2 rfl⟩

/-- The text at the semicolon is lost: only the last word is shown. -/
theorem gluedText_loses_text :
    ∃ line front mnemonic rest, parse? gluedText = some line ∧ line.command = .statusMessage ∧
      StatusAt gluedText front mnemonic rest ∧ line.message = some "now" ∧
      String.ofList (tidied rest) = ";8mm3/s now" :=
  ⟨gluedLine, _, _, _, by decide +kernel, rfl, statusAt_gluedText, rfl, by decide⟩

end ProgramLine

end FlowCalibration
