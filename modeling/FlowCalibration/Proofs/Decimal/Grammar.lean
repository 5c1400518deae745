import FlowCalibration.Proofs.Decimal.Nearest
import FlowCalibration.Proofs.Decimal.Scanning
import FlowCalibration.Proofs.Text.Matching
import FlowCalibration.Proofs.Text.Trimming

/-!
# The grammar of numbers

A number is written with an optional sign, digits with at most one point, and perhaps a power of
ten.  The scan cuts the longest such text off the front: every number at the front of a text is
read on to the end of what is scanned, and what is scanned is a number.  Its value is the double
nearest to the number, if there is a finite one and all digits are ASCII digits.
-/

namespace FlowCalibration

namespace NumberText

/-- Text of an optional sign; `true` stands for a minus sign. -/
inductive WritesSign : Bool → List Char → Prop
  | unsigned : WritesSign false []
  | plus : WritesSign false ['+']
  | minus : WritesSign true ['-']

/-- Digits before and after a point, and their text.  Digits need no point, and a point needs digits
on one of its sides. -/
inductive WritesMantissa : List Char → List Char → List Char → Prop
  | whole {whole : List Char} (nonempty : whole ≠ [])
      (digits : ∀ c ∈ whole, isDecimalDigit c = true) : WritesMantissa whole [] whole
  | point {whole fraction : List Char} (nonempty : whole ≠ [] ∨ fraction ≠ [])
      (wholeDigits : ∀ c ∈ whole, isDecimalDigit c = true)
      (fractionDigits : ∀ c ∈ fraction, isDecimalDigit c = true) :
      WritesMantissa whole fraction (whole ++ '.' :: fraction)

/-- Sign and digits of an optional power of ten, and their text. -/
inductive WritesPower : Bool → List Char → List Char → Prop
  | absent : WritesPower false [] []
  | marked {mark : Char} {negative : Bool} {sign digits : List Char}
      (isMark : mark = 'e' ∨ mark = 'E') (signed : WritesSign negative sign)
      (nonempty : digits ≠ []) (digital : ∀ c ∈ digits, isDecimalDigit c = true) :
      WritesPower negative digits (mark :: (sign ++ digits))

/-- A text writes a number: its parts stand one behind the other. -/
def Writes (number : NumberText) (text : List Char) : Prop :=
  ∃ sign mantissa power, WritesSign number.negative sign ∧
    WritesMantissa number.whole number.fraction mantissa ∧
    WritesPower number.powerNegative number.power power ∧ text = sign ++ (mantissa ++ power)

/-- A text is a number. -/
def IsNumber (text : List Char) : Prop :=
  ∃ number : NumberText, number.Writes text

/-! ## Signs -/

theorem ne_sign_of_isDecimalDigit {c : Char} (digit : isDecimalDigit c = true) :
    c ≠ '+' ∧ c ≠ '-' :=
  ⟨ne_of_isDecimalDigit digit (by decide), ne_of_isDecimalDigit digit (by decide)⟩

theorem scanSign_append {negative : Bool} {sign rest : List Char}
    (written : WritesSign negative sign) (unsigned : ∀ c ∈ rest.head?, c ≠ '+' ∧ c ≠ '-') :
    scanSign (sign ++ rest) = (negative, rest) := by
  cases written with
  | plus => rfl
  | minus => rfl
  | unsigned =>
      cases rest with
      | nil => rfl
      | cons c rest =>
          obtain ⟨notPlus, notMinus⟩ := unsigned c rfl
          rw [List.nil_append, scanSign_cons, if_neg notPlus, if_neg notMinus]

theorem exists_writesSign (text : List Char) :
    ∃ sign, WritesSign (scanSign text).1 sign ∧ text = sign ++ (scanSign text).2 := by
  cases text with
  | nil => exact ⟨[], .unsigned, rfl⟩
  | cons c tail =>
      rw [scanSign_cons]
      split
      next plus => exact ⟨['+'], .plus, by rw [plus]; rfl⟩
      next =>
        split
        next minus => exact ⟨['-'], .minus, by rw [minus]; rfl⟩
        next => exact ⟨[], .unsigned, rfl⟩

/-! ## Digits with a point -/

variable {whole fraction mantissa : List Char}

theorem WritesMantissa.unsigned (written : WritesMantissa whole fraction mantissa)
    (rest : List Char) : ∀ c ∈ (mantissa ++ rest).head?, c ≠ '+' ∧ c ≠ '-' := by
  have first {c d : Char} {tail : List Char} (digital : ∀ c ∈ d :: tail, isDecimalDigit c = true)
      (head : some d = some c) : c ≠ '+' ∧ c ≠ '-' :=
    ne_sign_of_isDecimalDigit (Option.some.inj head ▸ digital d List.mem_cons_self)
  intro c head
  cases written with
  | whole nonempty digits =>
      obtain ⟨d, tail, rfl⟩ := List.exists_cons_of_ne_nil nonempty
      exact first digits head
  | point nonempty wholeDigits fractionDigits =>
      cases whole with
      | nil =>
          obtain rfl := Option.some.inj head
          decide
      | cons d tail => exact first wholeDigits head

theorem exists_writesMantissa {text rest : List Char}
    (scanned : scanMantissa text = some (whole, fraction, rest)) :
    ∃ mantissa, WritesMantissa whole fraction mantissa ∧ text = mantissa ++ rest := by
  have digits (text : List Char) : ∀ c ∈ text.takeWhile isDecimalDigit, isDecimalDigit c = true :=
    fun c member => List.mem_takeWhile_imp member
  have split := List.takeWhile_append_dropWhile (p := isDecimalDigit) (l := text)
  have whole_digits := digits text
  simp only [scanMantissa] at scanned
  split at scanned
  next tail nothing pointed =>
    rw [nothing, pointed] at split
    split at scanned
    · contradiction
    next some_digits =>
      simp only [Option.some.injEq, Prod.mk.injEq] at scanned
      obtain ⟨rfl, rfl, rfl⟩ := scanned
      refine ⟨_, .point (.inr some_digits) (List.forall_mem_nil _) (digits tail), ?_⟩
      rw [← split, List.nil_append, List.nil_append, List.cons_append,
        List.takeWhile_append_dropWhile]
  · contradiction
  next tail pointed some_digits =>
    simp only [Option.some.injEq, Prod.mk.injEq] at scanned
    obtain ⟨rfl, rfl, rfl⟩ := scanned
    refine ⟨_, .point (.inl some_digits) whole_digits (digits tail), ?_⟩
    rw [List.append_assoc, List.cons_append, List.takeWhile_append_dropWhile, ← pointed, split]
  next some_digits _ _ =>
    simp only [Option.some.injEq, Prod.mk.injEq] at scanned
    obtain ⟨rfl, rfl, rfl⟩ := scanned
    exact ⟨_, .whole some_digits whole_digits, split.symm⟩

/-- A mantissa at the front of a text is scanned, with whatever can be read as more of it. -/
theorem exists_scanMantissa_append (written : WritesMantissa whole fraction mantissa)
    (rest : List Char) :
    ∃ longer further left, scanMantissa (mantissa ++ rest) = some (longer, further, left) ∧
      left <:+ rest := by
  cases written with
  | point nonempty wholeDigits fractionDigits =>
      rw [List.append_assoc, List.cons_append,
        scanMantissa_point nonempty wholeDigits fractionDigits]
      exact ⟨_, _, _, rfl, List.dropWhile_suffix _⟩
  | whole nonempty digits =>
      obtain ⟨more, left, rfl, more_digits, ends⟩ := exists_run isDecimalDigit rest
      have longer_nonempty : whole ++ more ≠ [] := List.append_ne_nil_of_left_ne_nil nonempty more
      have longer_digits := List.forall_mem_append.mpr ⟨digits, more_digits⟩
      rw [← List.append_assoc]
      by_cases pointed : left.head? = some '.'
      · obtain ⟨tail, rfl⟩ := List.head?_eq_some_iff.mp pointed
        have none_behind : ∀ c ∈ ([] : List Char), isDecimalDigit c = true :=
          List.forall_mem_nil _
        refine ⟨_, _, _, scanMantissa_point (.inl longer_nonempty) longer_digits none_behind tail,
          ?_⟩
        exact (List.dropWhile_suffix _).trans ((List.suffix_cons _ tail).trans
          (List.suffix_append more _))
      · refine ⟨_, _, _, scanMantissa_whole longer_nonempty longer_digits ?_,
          List.suffix_append more left⟩
        exact fun c head => ⟨ends c head, fun point => pointed (point ▸ head)⟩

/-- A mantissa is scanned in whole in front of what cannot be read as more of it. -/
theorem scanMantissa_append {rest : List Char} (written : WritesMantissa whole fraction mantissa)
    (ends : ∀ c ∈ rest.head?, isDecimalDigit c = false ∧ c ≠ '.') :
    scanMantissa (mantissa ++ rest) = some (whole, fraction, rest) := by
  cases written with
  | whole nonempty digits => exact scanMantissa_whole nonempty digits ends
  | point nonempty wholeDigits fractionDigits =>
      have notDigit : ∀ c ∈ rest.head?, isDecimalDigit c = false := fun c head => (ends c head).1
      have taken : rest.takeWhile isDecimalDigit = [] :=
        takeWhile_append_eq (List.forall_mem_nil _) notDigit
      have left : rest.dropWhile isDecimalDigit = rest :=
        dropWhile_append_eq (List.forall_mem_nil _) notDigit
      rw [List.append_assoc, List.cons_append,
        scanMantissa_point nonempty wholeDigits fractionDigits, taken, left, List.append_nil]

/-! ## Powers of ten -/

section Power

variable {negative : Bool} {digits power : List Char}

theorem exists_writesPower (text : List Char) :
    ∃ power, WritesPower (scanPower text).1 (scanPower text).2.1 power ∧
      text = power ++ (scanPower text).2.2 := by
  cases text with
  | nil => exact ⟨[], .absent, rfl⟩
  | cons mark tail =>
      obtain ⟨sign, signed, tail_eq⟩ := exists_writesSign tail
      simp only [scanPower]
      split
      next isMark =>
        split
        next => exact ⟨[], .absent, rfl⟩
        next some_digits =>
          refine ⟨_, .marked isMark signed some_digits fun c member =>
            List.mem_takeWhile_imp member, ?_⟩
          rw [List.cons_append, List.append_assoc, List.takeWhile_append_dropWhile, ← tail_eq]
      next => exact ⟨[], .absent, rfl⟩

/-- A power of ten at the front of a text is scanned with all digits behind it. -/
theorem scanPower_append (written : WritesPower negative digits power) (nonempty : power ≠ [])
    (rest : List Char) :
    scanPower (power ++ rest) = (negative, digits ++ rest.takeWhile isDecimalDigit,
      rest.dropWhile isDecimalDigit) := by
  cases written with
  | absent => exact absurd rfl nonempty
  | @marked mark negative sign digits isMark signed some_digits digital =>
      obtain ⟨first, others, rfl⟩ := List.exists_cons_of_ne_nil some_digits
      have unsigned : ∀ c ∈ (first :: others ++ rest).head?, c ≠ '+' ∧ c ≠ '-' := by
        intro c head
        obtain rfl := Option.some.inj head
        exact ne_sign_of_isDecimalDigit (digital first List.mem_cons_self)
      have taken : (first :: others ++ rest).takeWhile isDecimalDigit =
          first :: others ++ rest.takeWhile isDecimalDigit :=
        List.takeWhile_append_of_pos digital
      have left : (first :: others ++ rest).dropWhile isDecimalDigit =
          rest.dropWhile isDecimalDigit := List.dropWhile_append_of_pos digital
      rw [List.cons_append, List.append_assoc, scanPower, if_pos isMark]
      simp only [scanSign_append signed unsigned, taken, left]
      rfl

/-- A power of ten cannot be read as more of the digits in front of it. -/
theorem WritesPower.ends (written : WritesPower negative digits power) :
    ∀ c ∈ power.head?, isDecimalDigit c = false ∧ c ≠ '.' := by
  intro c head
  cases written with
  | absent => contradiction
  | marked isMark =>
      obtain rfl := Option.some.inj head
      rcases isMark with rfl | rfl <;> decide

end Power

/-! ## Numbers -/

variable {number : NumberText} {text front rest : List Char}

theorem exists_writes (scanned : scan text = some (number, rest)) :
    ∃ front, number.Writes front ∧ text = front ++ rest := by
  obtain ⟨sign, signed, text_eq⟩ := exists_writesSign text
  simp only [scan] at scanned
  split at scanned
  · contradiction
  next whole fraction tail mantissa_scanned =>
    obtain ⟨mantissa, mantissa_written, unsigned_eq⟩ := exists_writesMantissa mantissa_scanned
    obtain ⟨power, power_written, tail_eq⟩ := exists_writesPower tail
    simp only [Option.some.injEq, Prod.mk.injEq] at scanned
    obtain ⟨rfl, rfl⟩ := scanned
    refine ⟨_, ⟨sign, mantissa, power, signed, mantissa_written, power_written, rfl⟩, ?_⟩
    rw [List.append_assoc, List.append_assoc, ← tail_eq, ← unsigned_eq, ← text_eq]

/-- A number at the front of a text is scanned, with whatever can be read as more of it. -/
theorem Writes.exists_scan_append (written : number.Writes front) (rest : List Char) :
    ∃ longer left, scan (front ++ rest) = some (longer, left) ∧ left <:+ rest := by
  obtain ⟨sign, mantissa, power, signed, mantissa_written, power_written, rfl⟩ := written
  have sign_eq := scanSign_append signed (mantissa_written.unsigned (power ++ rest))
  have text_eq : sign ++ (mantissa ++ power) ++ rest = sign ++ (mantissa ++ (power ++ rest)) := by
    simp only [List.append_assoc]
  rw [text_eq]
  by_cases absent : power = []
  · subst absent
    obtain ⟨whole, fraction, tail, mantissa_eq, tail_suffix⟩ :=
      exists_scanMantissa_append mantissa_written rest
    obtain ⟨further, -, tail_eq⟩ := exists_writesPower tail
    simp only [List.nil_append] at sign_eq ⊢
    simp only [scan, sign_eq, mantissa_eq]
    exact ⟨_, _, rfl, (tail_eq ▸ List.suffix_append further _ :).trans tail_suffix⟩
  · have ends : ∀ c ∈ (power ++ rest).head?, isDecimalDigit c = false ∧ c ≠ '.' := by
      rw [List.head?_append_of_ne_nil _ absent]
      exact power_written.ends
    simp only [scan, sign_eq, scanMantissa_append mantissa_written ends,
      scanPower_append power_written absent]
    exact ⟨_, _, rfl, List.dropWhile_suffix _⟩

theorem Writes.scan_eq (written : number.Writes front) : scan front = some (number, []) := by
  obtain ⟨sign, mantissa, power, signed, mantissa_written, power_written, rfl⟩ := written
  have sign_eq := scanSign_append signed (mantissa_written.unsigned power)
  have power_eq : scanPower power = (number.powerNegative, number.power, []) := by
    by_cases absent : power = []
    · subst absent
      generalize number.powerNegative = negative, number.power = digits at power_written
      cases power_written
      rfl
    · have scanned := scanPower_append power_written absent []
      rwa [List.append_nil, List.takeWhile_nil, List.append_nil] at scanned
  simp only [scan, sign_eq, scanMantissa_append mantissa_written power_written.ends, power_eq]

/-- What is scanned is the longest number at the front of a text, cut into its parts. -/
theorem scan_eq_some_iff :
    scan text = some (number, rest) ↔
      ∃ front, LongestFront IsNumber text front ∧ number.Writes front ∧ text = front ++ rest := by
  have longest {number : NumberText} {rest : List Char}
      (scanned : scan text = some (number, rest)) :
      ∃ front, LongestFront IsNumber text front ∧ number.Writes front ∧ text = front ++ rest := by
    obtain ⟨front, written, text_eq⟩ := exists_writes scanned
    refine ⟨front, ⟨⟨number, written⟩, ⟨rest, text_eq.symm⟩, ?_⟩, written, text_eq⟩
    rintro other ⟨_, other_written⟩ ⟨behind, other_eq⟩
    obtain ⟨_, left, other_scanned, left_suffix⟩ := other_written.exists_scan_append behind
    rw [other_eq, scanned] at other_scanned
    obtain ⟨-, rfl⟩ := Prod.mk.inj (Option.some.inj other_scanned)
    have lengths := congrArg List.length (other_eq.trans text_eq)
    rw [List.length_append, List.length_append] at lengths
    have := left_suffix.length_le
    omega
  refine ⟨longest, ?_⟩
  rintro ⟨front, front_longest, written, rfl⟩
  obtain ⟨other, left, scanned, -⟩ := written.exists_scan_append rest
  obtain ⟨other_front, other_longest, other_written, text_eq⟩ := longest scanned
  obtain rfl := front_longest.unique other_longest
  obtain rfl := List.append_cancel_left text_eq
  have same := written.scan_eq.symm.trans other_written.scan_eq
  rw [scanned, (Prod.mk.inj (Option.some.inj same)).1]

/-! ## Values -/

theorem WritesSign.filter_eq {negative : Bool} {sign : List Char}
    (written : WritesSign negative sign) : sign.filter isDecimalDigit = [] := by
  cases written <;> decide

theorem WritesMantissa.filter_eq (written : WritesMantissa whole fraction mantissa) :
    mantissa.filter isDecimalDigit = whole ++ fraction := by
  cases written with
  | whole nonempty digits => rw [List.filter_eq_self.mpr digits, List.append_nil]
  | point nonempty wholeDigits fractionDigits =>
      rw [List.filter_append, List.filter_cons_of_neg (by decide),
        List.filter_eq_self.mpr wholeDigits, List.filter_eq_self.mpr fractionDigits]

theorem WritesPower.filter_eq {negative : Bool} {digits power : List Char}
    (written : WritesPower negative digits power) : power.filter isDecimalDigit = digits := by
  cases written with
  | absent => rfl
  | @marked mark _ _ _ isMark signed nonempty digital =>
      have notDigit : ¬ isDecimalDigit mark = true := by
        rcases isMark with rfl | rfl <;> decide
      rw [List.filter_cons_of_neg notDigit, List.filter_append, signed.filter_eq,
        List.filter_eq_self.mpr digital, List.nil_append]

theorem Writes.filter_eq (written : number.Writes front) :
    front.filter isDecimalDigit = number.whole ++ (number.fraction ++ number.power) := by
  obtain ⟨sign, mantissa, power, signed, mantissa_written, power_written, rfl⟩ := written
  rw [List.filter_append, List.filter_append, signed.filter_eq, mantissa_written.filter_eq,
    power_written.filter_eq, List.nil_append, List.append_assoc]

/-- The digits of a number are ASCII digits when those in its text are. -/
theorem Writes.isAscii_iff (written : number.Writes front) :
    number.isAscii = true ↔ ∀ c ∈ front, isDecimalDigit c = true → c.isDigit = true := by
  have digits : (∀ c ∈ front.filter isDecimalDigit, c.isDigit = true) ↔
      ∀ c ∈ front, isDecimalDigit c = true → c.isDigit = true := by
    simp only [List.mem_filter, and_imp]
  rw [← digits, written.filter_eq, List.forall_mem_append, List.forall_mem_append, isAscii]
  simp only [Bool.and_eq_true, List.all_eq_true, and_assoc]

/-- The number that the digits stand for, without its sign. -/
def magnitude (number : NumberText) : ℚ :=
  (digitsValue number.whole + digitsValue number.fraction / 10 ^ number.fraction.length) *
    10 ^ (if number.powerNegative then -(digitsValue number.power : ℤ)
      else digitsValue number.power)

theorem value_decimal (number : NumberText) : number.decimal.value = number.magnitude := by
  have ten_ne : (10 : ℚ) ≠ 0 := by decide
  have digits_eq : (digitsValue (number.whole ++ number.fraction) : ℚ) =
      10 ^ number.fraction.length * digitsValue number.whole + digitsValue number.fraction := by
    rw [digitsValue, Nat.ofDigitChars_append, Nat.ofDigitChars_eq_ofDigitChars_zero]
    push_cast
    rfl
  rw [Decimal.value, decimal, magnitude, digits_eq, zpow_sub₀ ten_ne, zpow_natCast]
  field_simp

/-- A number has the value that is nearest to it, if that is finite and its digits are ASCII. -/
theorem value?_eq_some_iff {value : Float} :
    number.value? = some value ↔
      number.isAscii = true ∧ Double.IsNearest number.negative number.magnitude value := by
  rw [← value_decimal, Double.isNearest_iff_toFloat, value?, toFloat]
  simp [and_assoc]

/-- A text starts with a number behind its blanks: the number is the longest one there and is
written in ASCII digits. -/
def Leads (number : NumberText) (text : List Char) : Prop :=
  ∃ front, LongestFront IsNumber (trimLeft text) front ∧ number.Writes front ∧
    ∀ c ∈ front, isDecimalDigit c = true → c.isDigit = true

theorem leads_iff : number.Leads text ↔
    ∃ rest, scan (trimLeft text) = some (number, rest) ∧ number.isAscii = true := by
  constructor
  · rintro ⟨front, longest, written, ascii⟩
    obtain ⟨rest, text_eq⟩ := longest.atFront
    exact ⟨rest, scan_eq_some_iff.mpr ⟨front, longest, written, text_eq.symm⟩,
      written.isAscii_iff.mpr ascii⟩
  · rintro ⟨rest, scanned, ascii⟩
    obtain ⟨front, longest, written, -⟩ := scan_eq_some_iff.mp scanned
    exact ⟨front, longest, written, written.isAscii_iff.mp ascii⟩

end NumberText

variable {text : List Char}

theorem readNumber?_eq_some_iff {value : Float} :
    readNumber? text = some value ↔ ∃ number : NumberText, number.Leads text ∧
      Double.IsNearest number.negative number.magnitude value := by
  simp only [readNumber?, Option.bind_eq_some_iff, NumberText.value?_eq_some_iff, Prod.exists,
    NumberText.leads_iff]
  constructor
  · rintro ⟨number, rest, scanned, ascii, nearest⟩
    exact ⟨number, ⟨rest, scanned, ascii⟩, nearest⟩
  · rintro ⟨number, ⟨rest, scanned, ascii⟩, nearest⟩
    exact ⟨number, rest, scanned, ascii, nearest⟩

/-- Nothing is read where no number leads, and where the leading number is past the largest
double. -/
theorem readNumber?_eq_none_iff :
    readNumber? text = none ↔ ∀ number : NumberText, number.Leads text →
      ∃ code, Magnitude.infinity ≤ code ∧ Magnitude.IsNearest number.magnitude code := by
  constructor
  · intro nothing number leads
    obtain ⟨rest, scanned, ascii⟩ := NumberText.leads_iff.mp leads
    rw [readNumber?, scanned, Option.bind_some, NumberText.value?, ascii] at nothing
    rw [← NumberText.value_decimal, ← Decimal.infinity_le_code_iff]
    simpa using nothing
  · intro large
    rw [Option.eq_none_iff_forall_ne_some]
    intro value read
    obtain ⟨number, leads, nearest⟩ := readNumber?_eq_some_iff.mp read
    obtain ⟨code, code_large, code_nearest⟩ := large number leads
    have finite := nearest.finite
    rw [← Binary64.isFinite_ofFloat, Binary64.isFinite, decide_eq_true_eq,
      nearest.nearest.unique code_nearest] at finite
    omega

theorem readLenient?_eq (text : List Char) :
    readLenient? text =
      if text.all isBlank then none
      else readNumber? ((trim text).map fun c => if c = ',' then '.' else c) := by
  have trim_iff : trim text = [] ↔ text.all isBlank = true := by
    rw [trim_eq_nil_iff, List.all_eq_true]
  rw [readLenient?]
  split
  next nothing => rw [if_pos (trim_iff.mp nothing)]
  next something => rw [if_neg (mt trim_iff.mpr something)]

/-- Reading a number takes the longest number at the front of a text, behind blanks.  The value is
the double nearest to it, and there is none where no number leads, where the longest one has a digit
that is no ASCII digit, or where the number is past the largest double.  The lenient reading trims
the text, reads commas as points and finds nothing among blanks. -/
theorem readNumber?_longest (text : List Char) :
    (∀ value, readNumber? text = some value ↔ ∃ number : NumberText, number.Leads text ∧
      Double.IsNearest number.negative number.magnitude value) ∧
    (readNumber? text = none ↔ ∀ number : NumberText, number.Leads text →
      ∃ code, Magnitude.infinity ≤ code ∧ Magnitude.IsNearest number.magnitude code) ∧
    readLenient? text =
      if text.all isBlank then none
      else readNumber? ((trim text).map fun c => if c = ',' then '.' else c) :=
  ⟨fun _ => readNumber?_eq_some_iff, readNumber?_eq_none_iff, readLenient?_eq text⟩

example : readLenient? " -1,5e+mm".toList = some (-1.5) := by
  decide +kernel

end FlowCalibration
