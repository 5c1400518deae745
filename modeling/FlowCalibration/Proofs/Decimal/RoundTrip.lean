import FlowCalibration.Decimal.Text
import FlowCalibration.Proofs.Decimal.Bits
import FlowCalibration.Proofs.Decimal.Scanning
import FlowCalibration.Proofs.Decimal.Shortest

/-!
# Numbers of programs read back

The text that `Double.number` writes for a finite double is read as that double again, whatever
follows it, as long as it cannot be taken for more of the number.  Only the sign of zero is lost.
-/

namespace FlowCalibration

namespace Decimal

/-- Digits that the positional text has before the point. -/
def wholeDigits (decimal : Decimal) : List Char :=
  let digits := Nat.toDigits 10 decimal.digits
  let places := (-decimal.exponent).toNat
  if 0 ≤ decimal.exponent then digits ++ List.replicate decimal.exponent.toNat '0'
  else if places < digits.length then digits.take (digits.length - places)
  else ['0']

/-- Digits that the positional text has after the point. -/
def fractionDigits (decimal : Decimal) : List Char :=
  let digits := Nat.toDigits 10 decimal.digits
  let places := (-decimal.exponent).toNat
  if 0 ≤ decimal.exponent then []
  else if places < digits.length then digits.drop (digits.length - places)
  else List.replicate (places - digits.length) '0' ++ digits

theorem length_fractionDigits (decimal : Decimal) :
    decimal.fractionDigits.length = (-decimal.exponent).toNat := by
  simp only [fractionDigits]
  split
  next whole => simp; omega
  next fraction =>
    split
    · simp; omega
    · simp; omega

theorem positional_eq (decimal : Decimal) :
    decimal.positional = decimal.wholeDigits ++
      if decimal.fractionDigits = [] then [] else '.' :: decimal.fractionDigits := by
  have length_eq := decimal.length_fractionDigits
  by_cases whole : 0 ≤ decimal.exponent
  · simp [positional, wholeDigits, fractionDigits, whole]
  · have nonempty : decimal.fractionDigits ≠ [] := by
      intro empty
      rw [empty, List.length_nil] at length_eq
      omega
    have places_ne : (-decimal.exponent).toNat ≠ 0 := by omega
    rw [if_neg nonempty]
    simp only [positional, wholeDigits, fractionDigits, if_neg whole, pointed, if_neg places_ne]
    split <;> rfl

theorem wholeDigits_ne_nil (decimal : Decimal) : decimal.wholeDigits ≠ [] := by
  have length_pos : 0 < (Nat.toDigits 10 decimal.digits).length := Nat.length_toDigits_pos
  simp only [wholeDigits]
  split
  · simp
  · split
    · rw [← List.length_pos_iff]
      simp
      omega
    · simp

theorem isDigit_of_mem_digits {decimal : Decimal} {c : Char}
    (member : c ∈ decimal.wholeDigits ++ decimal.fractionDigits) : c.isDigit = true := by
  have zero : '0'.isDigit = true := by decide
  have digit {c : Char} (member : c ∈ Nat.toDigits 10 decimal.digits) : c.isDigit = true :=
    Nat.isDigit_of_mem_toDigits (by decide) (by decide) member
  simp only [wholeDigits, fractionDigits] at member
  split at member
  · simp only [List.append_nil, List.mem_append, List.mem_replicate] at member
    rcases member with member | ⟨_, rfl⟩
    · exact digit member
    · exact zero
  · split at member
    · rw [List.take_append_drop] at member
      exact digit member
    · simp only [List.mem_append, List.mem_replicate, List.mem_singleton] at member
      rcases member with rfl | ⟨_, rfl⟩ | member
      · exact zero
      · exact zero
      · exact digit member

/-- Value of the digits of the positional text, with the zeros of a whole number written out. -/
theorem digitsValue_digits (decimal : Decimal) :
    digitsValue (decimal.wholeDigits ++ decimal.fractionDigits) =
      decimal.digits * 10 ^ decimal.exponent.toNat := by
  simp only [wholeDigits, fractionDigits, digitsValue]
  split
  next whole =>
    rw [List.append_nil, Nat.ofDigitChars_append, Nat.ofDigitChars_toDigits (by decide) (by decide),
      Nat.ofDigitChars_replicate_zero, Nat.mul_comm]
  next fraction =>
    have exponent_eq : decimal.exponent.toNat = 0 := by omega
    rw [exponent_eq, Nat.pow_zero, Nat.mul_one]
    split
    · rw [List.take_append_drop, Nat.ofDigitChars_toDigits (by decide) (by decide)]
    · have zero : Nat.ofDigitChars 10 ['0'] 0 = 0 := by decide
      rw [Nat.ofDigitChars_append, Nat.ofDigitChars_append, zero,
        Nat.ofDigitChars_replicate_zero, Nat.mul_zero, Nat.ofDigitChars_ten_toDigits]

/-- The decimal that is read from the positional text. -/
def written (decimal : Decimal) : Decimal :=
  ⟨decimal.digits * 10 ^ decimal.exponent.toNat, -decimal.fractionDigits.length⟩

theorem code_written {decimal : Decimal} (nonzero : decimal.digits ≠ 0)
    (finite : decimal.code < Magnitude.infinity) : decimal.written.code = decimal.code := by
  obtain ⟨digits, exponent⟩ := decimal
  rw [written, length_fractionDigits]
  rcases Int.lt_or_le exponent 0 with fraction | whole
  · have zeros : exponent.toNat = 0 := by omega
    have places : -((-exponent).toNat : Int) = exponent := by omega
    simp only [zeros, Nat.pow_zero, Nat.mul_one, places]
  · obtain ⟨zeros, rfl⟩ := Int.eq_ofNat_of_zero_le whole
    have places : (-(zeros : Int)).toNat = 0 := by omega
    simp only [Int.toNat_natCast, places]
    exact code_whole nonzero finite

end Decimal

namespace NumberText

/-- The number that is scanned off the positional text of a decimal. -/
def ofDecimal (negative : Bool) (decimal : Decimal) : NumberText where
  negative := negative
  whole := decimal.wholeDigits
  fraction := decimal.fractionDigits
  powerNegative := false
  power := []

theorem isAscii_ofDecimal (negative : Bool) (decimal : Decimal) :
    (ofDecimal negative decimal).isAscii = true := by
  have digit (c : Char) (member : c ∈ decimal.wholeDigits ++ decimal.fractionDigits) :
      c.isDigit = true := Decimal.isDigit_of_mem_digits member
  simp only [isAscii, ofDecimal, List.all_nil, Bool.and_true, Bool.and_eq_true, List.all_eq_true]
  exact ⟨fun c member => digit c (List.mem_append_left _ member),
    fun c member => digit c (List.mem_append_right _ member)⟩

theorem decimal_ofDecimal (negative : Bool) (decimal : Decimal) :
    (ofDecimal negative decimal).decimal = decimal.written := by
  have power : digitsValue [] = 0 := rfl
  simp [NumberText.decimal, ofDecimal, Decimal.digitsValue_digits, Decimal.written, power]

theorem value?_ofDecimal {negative : Bool} {decimal : Decimal} (nonzero : decimal.digits ≠ 0)
    (finite : decimal.code < Magnitude.infinity) :
    (ofDecimal negative decimal).value? = some (decimal.toFloat negative) := by
  have code_eq := Decimal.code_written nonzero finite
  simp only [value?, isAscii_ofDecimal, decimal_ofDecimal, code_eq, finite, toFloat,
    Decimal.toFloat]
  rfl

theorem scan_positional (negative : Bool) (decimal : Decimal) {rest : List Char}
    (stops : Stops rest) :
    scan ((Double.signed negative decimal.positional).toList ++ rest) =
      some (ofDecimal negative decimal, rest) := by
  have digit (c : Char) (member : c ∈ decimal.wholeDigits ++ decimal.fractionDigits) :
      isDecimalDigit c = true :=
    isDecimalDigit_of_isDigit (Decimal.isDigit_of_mem_digits member)
  have text_eq : (Double.signed negative decimal.positional).toList =
      plainText negative decimal.wholeDigits decimal.fractionDigits := by
    rw [Double.signed, String.toList_ofList, Decimal.positional_eq, plainText]
    split <;> rfl
  rw [text_eq]
  exact scan_plainText negative decimal.wholeDigits_ne_nil
    (fun c member => digit c (List.mem_append_left _ member))
    (fun c member => digit c (List.mem_append_right _ member)) stops

end NumberText

namespace Double

/-- A value without the sign of zero. -/
def unsignedZero (value : Float) : Float :=
  if value == 0.0 then 0.0 else value

/-- The value that the text of a number stands for: zero for values that are not finite. -/
def shown (value : Float) : Float :=
  if value.isFinite then unsignedZero value else 0.0

theorem shown_of_isFinite {value : Float} (finite : value.isFinite = true) :
    shown value = unsignedZero value := by
  rw [shown, if_pos finite]

theorem number_cases (value : Float) :
    (number value = "0" ∧ shown value = 0.0) ∨
      ∃ decimal : Decimal, decimal.digits ≠ 0 ∧ decimal.code < Magnitude.infinity ∧
        number value = signed (Binary64.ofFloat value).negative decimal.positional ∧
        shown value = decimal.toFloat (Binary64.ofFloat value).negative := by
  by_cases finite : value.isFinite = true
  · rw [shown_of_isFinite finite, unsignedZero]
    by_cases zero : (Binary64.ofFloat value).code = 0
    · left
      simp [number, zero, (Binary64.beq_zero_iff value).mpr zero]
    · right
      have notZero : ¬ (value == 0.0) = true := mt (Binary64.beq_zero_iff value).mp zero
      have binary_finite : (Binary64.ofFloat value).isFinite = true := by
        rw [Binary64.isFinite_ofFloat, finite]
      have bounded : (Binary64.ofFloat value).code < Magnitude.infinity := by
        simpa [Binary64.isFinite] using binary_finite
      have positive : 0 < (Binary64.ofFloat value).code := Nat.pos_of_ne_zero zero
      have reads := Decimal.code_shortest .larger positive bounded
      refine ⟨Decimal.shortest .larger (Binary64.ofFloat value).code, ?_, ?_, ?_, ?_⟩
      · exact Decimal.digits_ne_zero_of_code (by rwa [reads])
      · rwa [reads]
      · simp [number, plain, binary_finite, zero]
      · rw [if_neg notZero, Decimal.toFloat, reads]
        exact (Binary64.toFloat_ofFloat finite).symm
  · left
    have binary_infinite : (Binary64.ofFloat value).isFinite = false := by
      rw [Binary64.isFinite_ofFloat]
      simpa using finite
    simp [number, shown, finite, binary_infinite]

/-- The characters of numbers in programs. -/
def isNumberChar (c : Char) : Bool :=
  c.isDigit || c == '-' || c == '.'

theorem isNumberChar_of_isDigit {c : Char} (digit : c.isDigit = true) : isNumberChar c = true := by
  simp [isNumberChar, digit]

theorem isBlank_of_isNumberChar {c : Char} (numeric : isNumberChar c = true) :
    isBlank c = false := by
  simp only [isNumberChar, Bool.or_eq_true, beq_iff_eq] at numeric
  rcases numeric with (digit | rfl) | rfl
  · simp only [Char.isDigit, Bool.and_eq_true, decide_eq_true_eq, UInt32.le_iff_toNat_le] at digit
    obtain ⟨lower, upper⟩ := digit
    have lower : 48 ≤ c.toNat := lower
    have upper : c.toNat ≤ 57 := upper
    simp [isBlank]
    omega
  · decide
  · decide

theorem ne_of_isNumberChar {c other : Char} (numeric : isNumberChar c = true)
    (notNumeric : isNumberChar other = false) : c ≠ other := by
  rintro rfl
  rw [numeric] at notNumeric
  exact Bool.noConfusion notNumeric

theorem isNumberChar_of_mem_number {value : Float} {c : Char}
    (member : c ∈ (number value).toList) : isNumberChar c = true := by
  have minus : isNumberChar '-' = true := by decide
  have point : isNumberChar '.' = true := by decide
  rcases number_cases value with ⟨text, _⟩ | ⟨decimal, _, _, text, _⟩
  · rw [text] at member
    obtain rfl : c = '0' := by simpa using member
    decide
  · have digit (member : c ∈ decimal.wholeDigits ++ decimal.fractionDigits) :
        isNumberChar c = true :=
      isNumberChar_of_isDigit (Decimal.isDigit_of_mem_digits member)
    have unsigned (member : c ∈ decimal.positional) : isNumberChar c = true := by
      rw [Decimal.positional_eq, List.mem_append] at member
      rcases member with whole | fraction
      · exact digit (List.mem_append_left _ whole)
      · split at fraction
        · contradiction
        · rcases List.mem_cons.mp fraction with rfl | fraction
          · exact point
          · exact digit (List.mem_append_right _ fraction)
    rw [text, signed, String.toList_ofList] at member
    split at member
    · rcases List.mem_cons.mp member with rfl | member
      · exact minus
      · exact unsigned member
    · exact unsigned member

theorem number_ne_nil (value : Float) : (number value).toList ≠ [] := by
  rcases number_cases value with ⟨text, _⟩ | ⟨decimal, _, _, text, _⟩
  · simp [text]
  · have whole := decimal.wholeDigits_ne_nil
    rw [text, signed, String.toList_ofList, Decimal.positional_eq]
    split <;> simp [whole]

end Double

theorem trimLeft_number (value : Float) (rest : List Char) :
    trimLeft ((Double.number value).toList ++ rest) = (Double.number value).toList ++ rest := by
  obtain ⟨first, others, text⟩ := List.exists_cons_of_ne_nil (Double.number_ne_nil value)
  have member : first ∈ (Double.number value).toList := by
    rw [text]
    exact List.mem_cons_self
  have notBlank : isBlank first = false :=
    Double.isBlank_of_isNumberChar (Double.isNumberChar_of_mem_number member)
  rw [text]
  simp [trimLeft, notBlank]

theorem readNumber?_number (value : Float) {rest : List Char} (stops : NumberText.Stops rest) :
    readNumber? ((Double.number value).toList ++ rest) = some (Double.shown value) := by
  rw [readNumber?, trimLeft_number]
  rcases Double.number_cases value with ⟨text, zero⟩ | ⟨decimal, nonzero, finite, text, value_eq⟩
  · have wholeDigits : ∀ c ∈ ['0'], isDecimalDigit c = true :=
      List.forall_mem_singleton.mpr rfl
    have fractionDigits : ∀ c ∈ ([] : List Char), isDecimalDigit c = true := by simp
    have scanned : NumberText.scan ("0".toList ++ rest) =
        some (⟨false, ['0'], [], false, []⟩, rest) :=
      NumberText.scan_plainText false (by simp) wholeDigits fractionDigits stops
    have value_eq : NumberText.value? ⟨false, ['0'], [], false, []⟩ = some 0.0 := by decide
    rw [text, zero, scanned]
    exact value_eq
  · rw [text, NumberText.scan_positional _ _ stops, value_eq]
    exact NumberText.value?_ofDecimal nonzero finite

/-- The text of a finite double is read as that double, up to the sign of zero. -/
theorem readNumber?_number_of_isFinite {value : Float} (finite : value.isFinite = true)
    {rest : List Char} (stops : NumberText.Stops rest) :
    readNumber? ((Double.number value).toList ++ rest) = some (Double.unsignedZero value) := by
  rw [readNumber?_number value stops, Double.shown_of_isFinite finite]

namespace Double

/-- A finite double other than negative zero. -/
def IsProper (value : Float) : Prop :=
  value.isFinite = true ∧ value ≠ -0.0

instance (value : Float) : Decidable (IsProper value) :=
  inferInstanceAs (Decidable (_ ∧ _))

theorem shown_of_isProper {value : Float} (proper : IsProper value) : shown value = value := by
  rw [shown_of_isFinite proper.1, unsignedZero]
  split
  next zero =>
    rcases (Binary64.beq_zero_iff_eq value).mp zero with rfl | rfl
    · rfl
    · exact absurd rfl proper.2
  next => rfl

theorem shown_eq_of_number_eq {left right : Float} (same : number left = number right) :
    shown left = shown right := by
  have left_read := readNumber?_number left NumberText.stops_nil
  rw [same, readNumber?_number right NumberText.stops_nil] at left_read
  exact (Option.some.inj left_read).symm

theorem number_injective {left right : Float} (left_proper : IsProper left)
    (right_proper : IsProper right) (same : number left = number right) : left = right := by
  rw [← shown_of_isProper left_proper, shown_eq_of_number_eq same, shown_of_isProper right_proper]

end Double

end FlowCalibration
