import FlowCalibration.Proofs.Decimal.Canonical
import FlowCalibration.Toml.Document

/-!
# Values of TOML read back

The text that is written for a finite double, for a count or for a plain text is read as that value
when the line ends behind it.  A number could also be the start of a date, of a time or of a number
in another base; what stands behind its first digits rules these out.
-/

namespace FlowCalibration

namespace Toml

/-! ## Numbers -/

section Digits

variable {digits rest : List Char}

theorem scanDigitsAfter?_append (all : ∀ c ∈ digits, c.isDigit = true)
    (ends : ∀ c ∈ rest.head?, c.isDigit = false ∧ c ≠ '_') (seen : List Char) :
    scanDigitsAfter? Char.isDigit seen (digits ++ rest) = some (seen.reverse ++ digits, rest) := by
  induction digits generalizing seen with
  | nil =>
      cases rest with
      | nil => simp [scanDigitsAfter?]
      | cons c tail =>
          obtain ⟨notDigit, notUnderscore⟩ := ends c rfl
          rw [List.nil_append, scanDigitsAfter?, notDigit]
          · simp
          · exact fun same => absurd same notUnderscore
          · exact fun _ _ same => absurd same notUnderscore
  | cons digit digits induction =>
      obtain ⟨isDigit, others⟩ := List.forall_mem_cons.mp all
      have notUnderscore : digit ≠ '_' := by
        rintro rfl
        contradiction
      rw [List.cons_append, scanDigitsAfter?, isDigit, if_pos rfl, induction others]
      · simp
      · exact fun same => absurd same notUnderscore
      · exact fun _ _ same => absurd same notUnderscore

theorem scanDigits?_append (nonempty : digits ≠ []) (all : ∀ c ∈ digits, c.isDigit = true)
    (ends : ∀ c ∈ rest.head?, c.isDigit = false ∧ c ≠ '_') :
    scanDigits? Char.isDigit (digits ++ rest) = some (digits, rest) := by
  obtain ⟨first, more, rfl⟩ := List.exists_cons_of_ne_nil nonempty
  obtain ⟨isDigit, others⟩ := List.forall_mem_cons.mp all
  rw [List.cons_append, scanDigits?, isDigit, if_pos rfl, scanDigitsAfter?_append others ends]
  rfl

theorem scanWhole?_append (whole : IsWhole digits)
    (ends : ∀ c ∈ rest.head?, c.isDigit = false ∧ c ≠ '_') :
    scanWhole? (digits ++ rest) = some (digits, rest) := by
  rcases whole.head with rfl | notZero
  · rfl
  · rw [scanWhole?]
    · exact scanDigits?_append whole.ne_nil whole.all ends
    · intro tail text
      obtain ⟨first, more, rfl⟩ := List.exists_cons_of_ne_nil whole.ne_nil
      exact notZero (congrArg some (List.cons.inj text).1)

end Digits

theorem ends_point (rest : List Char) :
    ∀ c ∈ ('.' :: rest).head?, c.isDigit = false ∧ c ≠ '_' := by
  rintro c ⟨⟩
  decide

theorem ends_lineFeed (rest : List Char) :
    ∀ c ∈ ('\n' :: rest).head?, c.isDigit = false ∧ c ≠ '_' := by
  rintro c ⟨⟩
  decide

variable {whole fraction : List Char}

theorem scanDecimal?_fraction (negative : Bool) (isWhole : IsWhole whole) (nonempty : fraction ≠ [])
    (digits : ∀ c ∈ fraction, c.isDigit = true)
    (finite : (NumberText.decimal ⟨negative, whole, fraction, false, []⟩).code < Magnitude.infinity)
    (rest : List Char) :
    scanDecimal? negative (whole ++ '.' :: (fraction ++ '\n' :: rest)) =
      some (.ofFloat (NumberText.toFloat ⟨negative, whole, fraction, false, []⟩),
        '\n' :: rest) := by
  have inRange : ¬ Magnitude.infinity ≤
      (NumberText.decimal ⟨negative, whole, fraction, false, []⟩).code := Nat.not_le_of_gt finite
  have scanned_power : scanPower? ('\n' :: rest) = some (none, '\n' :: rest) := rfl
  simp only [scanDecimal?, scanWhole?_append isWhole (ends_point _), scanFraction?,
    scanDigits?_append nonempty digits (ends_lineFeed _), scanned_power, Option.bind_eq_bind,
    Option.bind_some, Option.map_some, decimalValue?, Option.getD_some, Option.getD_none, inRange]
  simp

theorem integer?_count {count : Nat} (small : count < 0x8000000000000000) :
    integer? count = some (.ofCount count) := by
  have lower : (-0x8000000000000000 : Int) ≤ count := by omega
  have upper : (count : Int) < 0x8000000000000000 := by omega
  exact if_pos ⟨lower, upper⟩

theorem decimalValue?_whole (small : digitsValue whole < 0x8000000000000000) :
    decimalValue? false whole none none = some (.ofCount (digitsValue whole)) := by
  rw [← integer?_count small, decimalValue?]
  exact congrArg integer? (if_neg Bool.false_ne_true)

theorem scanDecimal?_whole (isWhole : IsWhole whole)
    (small : digitsValue whole < 0x8000000000000000) (rest : List Char) :
    scanDecimal? false (whole ++ '\n' :: rest) =
      some (.ofCount (digitsValue whole), '\n' :: rest) := by
  have scanned_power : scanPower? ('\n' :: rest) = some (none, '\n' :: rest) := rfl
  have scanned_fraction : scanFraction? ('\n' :: rest) = some (none, '\n' :: rest) := rfl
  rw [scanDecimal?, scanWhole?_append isWhole (ends_lineFeed _), Option.bind_eq_bind,
    Option.bind_some]
  refine Option.bind_eq_some_iff.mpr ⟨_, scanned_fraction, ?_⟩
  refine Option.bind_eq_some_iff.mpr ⟨_, scanned_power, ?_⟩
  exact Option.bind_eq_some_iff.mpr ⟨_, decimalValue?_whole small, rfl⟩

end Toml

namespace Double

/-- A text of a finite double without a power of ten: its digits before and after the point, with
the double that is nearest to them. -/
structure Spells (text : String) (value : Float) (whole fraction : List Char) : Prop where
  text_eq : text.toList =
    NumberText.plainText (Binary64.ofFloat value).negative whole fraction
  isWhole : IsWhole whole
  digits : ∀ c ∈ fraction, c.isDigit = true
  code : (NumberText.decimal ⟨(Binary64.ofFloat value).negative, whole, fraction, false, []⟩).code =
    (Binary64.ofFloat value).code

theorem exists_spells_plain {value : Float} (finite : value.isFinite = true) :
    ∃ whole fraction, Spells (plain value) value whole fraction := by
  have binary_finite : (Binary64.ofFloat value).isFinite = true := by
    rw [Binary64.isFinite_ofFloat, finite]
  by_cases zero : (Binary64.ofFloat value).code = 0
  · refine ⟨['0'], [], ?_, ⟨List.cons_ne_nil _ _, List.forall_mem_singleton.mpr rfl, .inl rfl⟩,
      List.forall_mem_nil _, ?_⟩
    · simp only [plain, binary_finite, zero, if_true, signed, String.toList_ofList]
      cases (Binary64.ofFloat value).negative <;> rfl
    · rw [zero]
      rfl
  · have bounded : (Binary64.ofFloat value).code < Magnitude.infinity := by
      simpa [Binary64.isFinite] using binary_finite
    have positive : 0 < (Binary64.ofFloat value).code := Nat.pos_of_ne_zero zero
    obtain ⟨decimal, decimal_def⟩ :
        ∃ decimal, decimal = Decimal.shortest .larger (Binary64.ofFloat value).code := ⟨_, rfl⟩
    have reads : decimal.code = (Binary64.ofFloat value).code := by
      rw [decimal_def]
      exact Decimal.code_shortest .larger positive bounded
    have nonzero : decimal.digits ≠ 0 := Decimal.digits_ne_zero_of_code (by rwa [reads])
    refine ⟨decimal.wholeDigits, decimal.fractionDigits, ?_, Decimal.isWhole_wholeDigits nonzero,
      fun c member => Decimal.isDigit_of_mem_digits (List.mem_append_right _ member), ?_⟩
    · simp only [plain, binary_finite, if_true, if_neg zero, signed, String.toList_ofList,
        ← decimal_def, Decimal.positional_eq, NumberText.plainText]
      split <;> rfl
    · exact (congrArg Decimal.code (NumberText.decimal_ofDecimal _ _)).trans
        ((Decimal.code_written nonzero (by rwa [reads])).trans reads)

theorem mem_plainText_iff {negative : Bool} {whole fraction : List Char}
    (digits : ∀ c ∈ whole, c.isDigit = true) :
    '.' ∈ NumberText.plainText negative whole fraction ↔ fraction ≠ [] := by
  have noPoint : '.' ∉ whole := fun member => absurd (digits '.' member) (by decide)
  have sign : '.' ∉ (if negative = true then ['-'] else []) := by
    cases negative <;> simp
  by_cases empty : fraction = []
  · simp [NumberText.plainText, empty, sign, noPoint]
  · simp [NumberText.plainText, empty]

theorem code_point_zero (negative : Bool) {whole : List Char} :
    (NumberText.decimal ⟨negative, whole, ['0'], false, []⟩).code =
      (NumberText.decimal ⟨negative, whole, [], false, []⟩).code := by
  have value_eq : digitsValue (whole ++ ['0']) = 10 * digitsValue whole := by
    rw [digitsValue, Nat.ofDigitChars_append]
    rfl
  have pointed : (NumberText.decimal ⟨negative, whole, ['0'], false, []⟩) =
      ⟨10 * digitsValue whole, -1⟩ := by
    rw [← value_eq]
    rfl
  have unpointed : (NumberText.decimal ⟨negative, whole, [], false, []⟩) =
      ⟨digitsValue (whole ++ []), 0⟩ := rfl
  rw [pointed, unpointed, List.append_nil]
  by_cases zero : digitsValue whole = 0
  · rw [zero]
    rfl
  · have product_ne : 10 * digitsValue whole ≠ 0 := by omega
    have bound : (-1 : Int) ≤ 309 := by decide
    have zero_bound : (0 : Int) ≤ 309 := by decide
    rw [Decimal.code_of_le product_ne bound, Decimal.code_of_le zero zero_bound]
    exact Decimal.rounded_mul_ten _ _

theorem exists_spells_inToml {value : Float} (finite : value.isFinite = true) :
    ∃ whole fraction, Spells (inToml value) value whole fraction ∧ fraction ≠ [] := by
  obtain ⟨whole, fraction, spells⟩ := exists_spells_plain finite
  rw [inToml]
  simp only [Binary64.isNaN_eq_false finite, Binary64.isInf_eq_false finite, Bool.false_or,
    spells.text_eq, List.contains_iff_mem, mem_plainText_iff spells.isWhole.all]
  by_cases empty : fraction = []
  · subst empty
    refine ⟨whole, ['0'], ⟨?_, spells.isWhole, List.forall_mem_singleton.mpr rfl, ?_⟩,
      List.cons_ne_nil _ _⟩
    · simp [spells.text_eq, NumberText.plainText]
    · rw [code_point_zero, spells.code]
  · rw [if_pos empty]
    exact ⟨whole, fraction, spells, empty⟩

end Double

namespace Toml

/-! ## Values -/

section Moments

variable {text rest : List Char} {count low high value : Nat}

/-- Behind the digits of a field stands what stands behind all digits, or a digit. -/
theorem after?_eq_none {c : Char} (field : scanField? count low high text = some (value, rest))
    (notDigit : c.isDigit = false) (behind : (text.dropWhile Char.isDigit).head? ≠ some c) :
    after? c rest = none := by
  rw [scanField?] at field
  obtain ⟨isField, field⟩ := Option.ite_none_right_eq_some.mp field
  obtain ⟨_, field⟩ := Option.ite_none_right_eq_some.mp field
  obtain ⟨rfl, rfl⟩ := Prod.mk.inj (Option.some.inj field)
  simp only [Bool.and_eq_true, List.all_eq_true] at isField
  have parts : (text.take count ++ text.drop count).dropWhile Char.isDigit =
      (text.drop count).dropWhile Char.isDigit := List.dropWhile_append_of_pos isField.2
  rw [List.take_append_drop] at parts
  rw [parts] at behind
  cases remaining : text.drop count with
  | nil => rfl
  | cons first tail =>
      rw [after?, if_neg]
      rintro rfl
      exact behind (by simp [remaining, notDigit])

theorem scanField?_sign (positive : 0 < count) (tail : List Char) :
    scanField? count low high ('-' :: tail) = none := by
  obtain ⟨more, rfl⟩ : ∃ more, count = more + 1 := ⟨count - 1, by omega⟩
  rw [scanField?, if_neg]
  simp

/-- A number is no date and no time: no dash and no colon follows its first digits. -/
theorem scan?_moment_eq_none
    (noMoment : (∃ tail, text = '-' :: tail) ∨
      (text.dropWhile Char.isDigit).head? ≠ some '-' ∧
        (text.dropWhile Char.isDigit).head? ≠ some ':') :
    Moment.scan? text = none := by
  have noDate : Date.scan? text = none := by
    rw [Date.scan?]
    cases field : scanField? 4 0 9999 text with
    | none => rfl
    | some found =>
        rcases noMoment with ⟨tail, rfl⟩ | ⟨noDash, _⟩
        · rw [scanField?_sign (by decide)] at field
          contradiction
        · simp [after?_eq_none field rfl noDash]
  have noClock : Clock.scan? text = none := by
    rw [Clock.scan?]
    cases field : scanField? 2 0 23 text with
    | none => rfl
    | some found =>
        rcases noMoment with ⟨tail, rfl⟩ | ⟨_, noColon⟩
        · rw [scanField?_sign (by decide)] at field
          contradiction
        · simp [after?_eq_none field rfl noColon]
  rw [Moment.scan?, noDate, noClock]
  rfl

end Moments

theorem scanSign_append {whole : List Char} (isWhole : IsWhole whole) (negative : Bool)
    (rest : List Char) :
    NumberText.scanSign ((if negative then ['-'] else []) ++ (whole ++ rest)) =
      (negative, whole ++ rest) := by
  cases negative with
  | true => rfl
  | false =>
      obtain ⟨first, more, rfl⟩ := List.exists_cons_of_ne_nil isWhole.ne_nil
      exact NumberText.scanSign_digit
        (isDecimalDigit_of_isDigit (isWhole.all first List.mem_cons_self))

/-- A number whose digits are followed by no mark of a base is a decimal number. -/
theorem scanNumber?_eq {whole : List Char} (isWhole : IsWhole whole) (negative : Bool)
    {rest : List Char} (noMark : ∀ c ∈ rest.head?, c ∉ ['x', 'o', 'b']) :
    scanNumber? ((if negative then ['-'] else []) ++ (whole ++ rest)) =
      scanDecimal? negative (whole ++ rest) := by
  obtain ⟨first, more, rfl⟩ := List.exists_cons_of_ne_nil isWhole.ne_nil
  have digit : first.isDigit = true := isWhole.all first List.mem_cons_self
  have noBase (mark : Char) (marks : mark ∈ ['x', 'o', 'b']) (tail : List Char) :
      (if negative then ['-'] else []) ++ (first :: more ++ rest) ≠ '0' :: mark :: tail := by
    intro same
    cases negative with
    | true => exact absurd (List.cons.inj same).1 (by decide)
    | false =>
        obtain ⟨first_eq, others⟩ := List.cons.inj same
        rcases isWhole.head with alone | notZero
        · obtain rfl : more = [] := (List.cons.inj alone).2
          exact noMark mark (by rw [show rest = mark :: tail from others]; rfl) marks
        · exact notZero (congrArg some first_eq)
  have noWord (other : Char) (word : other.isDigit = false) (tail : List Char) :
      first :: more ++ rest ≠ other :: tail := by
    intro same
    rw [(List.cons.inj same).1, word] at digit
    contradiction
  unfold scanNumber?
  split
  next same => exact absurd same (noBase 'x' (by decide) _)
  next same => exact absurd same (noBase 'o' (by decide) _)
  next same => exact absurd same (noBase 'b' (by decide) _)
  next =>
    rw [scanSign_append isWhole]
    simp only
    split
    next same => exact absurd same (noWord 'i' rfl _)
    next same => exact absurd same (noWord 'n' rfl _)
    next => rfl

theorem scanValue?_of_isStart {first : Char} {tail : List Char}
    (start : NumberText.isStart first = true)
    (noMoment : Moment.scan? (first :: tail) = none) (fuel depth : Nat) :
    scanValue? (fuel + 1) depth (first :: tail) = scanNumber? (first :: tail) := by
  have notQuote : ¬ (first = '"' ∨ first = '\'') := by
    rintro (rfl | rfl)
    · contradiction
    · contradiction
  rw [scanValue?, if_neg notQuote, noMoment]
  · exact NumberText.ne_of_isStart start _ rfl
  · exact NumberText.ne_of_isStart start _ rfl
  · exact fun _ same _ => NumberText.ne_of_isStart start _ rfl same
  · exact fun _ same _ => NumberText.ne_of_isStart start _ rfl same

theorem scanValue?_number {whole : List Char} (isWhole : IsWhole whole) (negative : Bool)
    {rest : List Char} (follows : ∀ c ∈ rest.head?, c = '.' ∨ c = '\n') (fuel depth : Nat) :
    scanValue? (fuel + 1) depth ((if negative then ['-'] else []) ++ (whole ++ rest)) =
      scanDecimal? negative (whole ++ rest) := by
  have noMark : ∀ c ∈ rest.head?, c ∉ ['x', 'o', 'b'] := by
    intro c member
    rcases follows c member with rfl | rfl <;> decide
  have noDigit : ∀ c ∈ rest.head?, c.isDigit = false := by
    intro c member
    rcases follows c member with rfl | rfl <;> decide
  rw [← scanNumber?_eq isWhole negative noMark]
  cases negative with
  | true => exact scanValue?_of_isStart rfl (scan?_moment_eq_none (.inl ⟨_, rfl⟩)) fuel depth
  | false =>
      obtain ⟨first, more, rfl⟩ := List.exists_cons_of_ne_nil isWhole.ne_nil
      have digit : first.isDigit = true := isWhole.all first List.mem_cons_self
      have start : NumberText.isStart first = true := by simp [NumberText.isStart, digit]
      have behind : (first :: more ++ rest).dropWhile Char.isDigit = rest :=
        dropWhile_append_eq isWhole.all noDigit
      have notHead (c : Char) (other : c ≠ '.' ∧ c ≠ '\n') : rest.head? ≠ some c := by
        intro head
        rcases follows c head with same | same
        · exact other.1 same
        · exact other.2 same
      have noDash : ((first :: more ++ rest).dropWhile Char.isDigit).head? ≠ some '-' := by
        rw [behind]
        exact notHead '-' (by decide)
      have noColon : ((first :: more ++ rest).dropWhile Char.isDigit).head? ≠ some ':' := by
        rw [behind]
        exact notHead ':' (by decide)
      exact scanValue?_of_isStart start (scan?_moment_eq_none (.inr ⟨noDash, noColon⟩)) fuel depth

/-- A text that stands for a value when a line feed follows. -/
structure ReadsAs (text : String) (value : Json) : Prop where
  head : ∃ first tail, text.toList = first :: tail ∧ isSpace first = false
  scanned : ∀ fuel depth rest,
    scanValue? (fuel + 1) depth (text.toList ++ '\n' :: rest) = some (value, '\n' :: rest)

theorem isSpace_of_isStart {c : Char} (start : NumberText.isStart c = true) :
    isSpace c = false := by
  rw [isSpace]
  simp [NumberText.ne_of_isStart start ' ' rfl, NumberText.ne_of_isStart start '\t' rfl]

theorem head_of_isWhole {whole : List Char} (isWhole : IsWhole whole) (negative : Bool)
    (rest : List Char) :
    ∃ first tail, (if negative then ['-'] else []) ++ (whole ++ rest) = first :: tail ∧
      isSpace first = false := by
  obtain ⟨first, more, rfl⟩ := List.exists_cons_of_ne_nil isWhole.ne_nil
  have digit : first.isDigit = true := isWhole.all first List.mem_cons_self
  cases negative with
  | true => exact ⟨_, _, rfl, rfl⟩
  | false => exact ⟨_, _, rfl, isSpace_of_isStart (by simp [NumberText.isStart, digit])⟩

theorem readsAs_inToml {value : Float} (finite : value.isFinite = true) :
    ReadsAs (Double.inToml value) (.ofFloat value) := by
  obtain ⟨whole, fraction, spells, nonempty⟩ := Double.exists_spells_inToml finite
  have binary_finite : (Binary64.ofFloat value).isFinite = true := by
    rw [Binary64.isFinite_ofFloat, finite]
  have bounded : (Binary64.ofFloat value).code < Magnitude.infinity := by
    simpa [Binary64.isFinite] using binary_finite
  have value_eq : NumberText.toFloat
      ⟨(Binary64.ofFloat value).negative, whole, fraction, false, []⟩ = value := by
    rw [NumberText.toFloat, Decimal.toFloat, spells.code]
    exact Binary64.toFloat_ofFloat finite
  have text := spells.text_eq
  rw [NumberText.plainText, if_neg nonempty] at text
  constructor
  · rw [text]
    exact head_of_isWhole spells.isWhole _ _
  · intro fuel depth rest
    have point : ∀ c ∈ ('.' :: (fraction ++ '\n' :: rest)).head?, c = '.' ∨ c = '\n' := by
      rintro c ⟨⟩
      exact .inl rfl
    rw [text, List.append_assoc, List.append_assoc, List.cons_append,
      scanValue?_number spells.isWhole _ point,
      scanDecimal?_fraction _ spells.isWhole nonempty spells.digits (by rwa [spells.code]),
      value_eq]

theorem readsAs_toString {count : Nat} (small : count < 0x8000000000000000) :
    ReadsAs (toString count) (.ofCount count) := by
  have text : (toString count).toList = Nat.toDigits 10 count := Nat.toList_repr
  have value_eq : digitsValue (Nat.toDigits 10 count) = count := Nat.ofDigitChars_ten_toDigits
  have isWhole := isWhole_toDigits count
  constructor
  · rw [text, ← List.append_nil (Nat.toDigits 10 count)]
    exact head_of_isWhole isWhole false []
  · intro fuel depth rest
    have lineFeed : ∀ c ∈ ('\n' :: rest).head?, c = '.' ∨ c = '\n' := by
      rintro c ⟨⟩
      exact .inr rfl
    rw [text]
    refine (scanValue?_number isWhole false lineFeed fuel depth).trans ?_
    rw [scanDecimal?_whole isWhole (by rwa [value_eq]), value_eq]

/-- Whether a character stands for itself between quotes. -/
def isVerbatim (c : Char) : Bool :=
  isPlain c && c != '"' && c != '\\'

theorem scanQuoted?_append {text : List Char} (verbatim : ∀ c ∈ text, isVerbatim c = true)
    (seen rest : List Char) :
    scanQuoted? seen (text ++ '"' :: rest) = some (seen.reverse ++ text, rest) := by
  induction text generalizing seen with
  | nil => rw [List.nil_append, List.append_nil, scanQuoted?]
  | cons c text induction =>
      obtain ⟨itself, others⟩ := List.forall_mem_cons.mp verbatim
      obtain ⟨⟨plain, notQuote⟩, notBackslash⟩ : (isPlain c = true ∧ c ≠ '"') ∧ c ≠ '\\' := by
        simpa [isVerbatim] using itself
      rw [List.cons_append, scanQuoted?, if_pos plain, induction others]
      · simp
      · exact notQuote
      · exact notBackslash

theorem readsAs_quoted {text : String} (verbatim : ∀ c ∈ text.toList, isVerbatim c = true) :
    ReadsAs ("\"" ++ text ++ "\"") (.text text) := by
  have characters : ("\"" ++ text ++ "\"").toList = '"' :: (text.toList ++ ['"']) := by
    simp
  constructor
  · exact ⟨_, _, characters, rfl⟩
  · intro fuel depth rest
    have scanned : scanText? ('"' :: (text.toList ++ '"' :: '\n' :: rest)) =
        some (text.toList, '\n' :: rest) := by
      rw [scanText?]
      · exact scanQuoted?_append verbatim [] _
      · intro tail same
        cases held : text.toList with
        | nil =>
            rw [held] at same
            exact absurd (List.cons.inj (List.cons.inj same).2).1 (by decide)
        | cons first others =>
            rw [held] at same
            have member : first ∈ text.toList := held ▸ List.mem_cons_self
            have quote := verbatim first member
            rw [(List.cons.inj same).1] at quote
            contradiction
    rw [characters, List.cons_append, List.append_assoc, List.cons_append, List.nil_append,
      scanValue?, if_pos (.inl rfl), scanned]
    · simp only [Option.map_some, String.ofList_toList]
    · decide
    · decide
    · exact fun _ same => absurd same (by decide)
    · exact fun _ same => absurd same (by decide)

end Toml

end FlowCalibration
