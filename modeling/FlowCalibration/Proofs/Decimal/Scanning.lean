import FlowCalibration.Decimal.Reading
import FlowCalibration.Proofs.Decimal.Bits

/-!
# Scanning plain numbers

A number without a power of ten is cut off the front of a text in whole, as long as what follows
cannot be read as more of it.  A number that has a value is finite.
-/

namespace FlowCalibration

theorem takeWhile_append_eq {α : Type} {keep : α → Bool} {front rest : List α}
    (kept : ∀ value ∈ front, keep value = true) (stops : ∀ value ∈ rest.head?, keep value = false) :
    (front ++ rest).takeWhile keep = front := by
  rw [List.takeWhile_append_of_pos kept]
  cases rest with
  | nil => simp
  | cons value rest =>
      have stop : keep value = false := stops value (by simp)
      simp [stop]

theorem dropWhile_append_eq {α : Type} {keep : α → Bool} {front rest : List α}
    (kept : ∀ value ∈ front, keep value = true) (stops : ∀ value ∈ rest.head?, keep value = false) :
    (front ++ rest).dropWhile keep = rest := by
  rw [List.dropWhile_append_of_pos kept]
  cases rest with
  | nil => rfl
  | cons value rest =>
      have stop : keep value = false := stops value (by simp)
      simp [stop]

theorem takeWhile_append_of_stops {α : Type} {keep : α → Bool} {front rest : List α}
    (stops : ∀ value ∈ rest.head?, keep value = false) :
    (front ++ rest).takeWhile keep = front.takeWhile keep := by
  induction front with
  | nil => exact takeWhile_append_eq (List.forall_mem_nil _) stops
  | cons value front induction =>
      rw [List.cons_append, List.takeWhile_cons, List.takeWhile_cons, induction]

theorem dropWhile_append_of_stops {α : Type} {keep : α → Bool} {front rest : List α}
    (stops : ∀ value ∈ rest.head?, keep value = false) :
    (front ++ rest).dropWhile keep = front.dropWhile keep ++ rest := by
  induction front with
  | nil => exact dropWhile_append_eq (List.forall_mem_nil _) stops
  | cons value front induction =>
      rw [List.cons_append, List.dropWhile_cons, List.dropWhile_cons, induction]
      split <;> rfl

theorem exists_run {α : Type} (keep : α → Bool) (text : List α) :
    ∃ run rest, text = run ++ rest ∧ (∀ value ∈ run, keep value = true) ∧
      ∀ value ∈ rest.head?, keep value = false := by
  refine ⟨text.takeWhile keep, text.dropWhile keep, List.takeWhile_append_dropWhile.symm,
    fun _ member => List.mem_takeWhile_imp member, fun value head => ?_⟩
  have stops := List.head?_dropWhile_not keep text
  rw [head] at stops
  simpa using stops

theorem head_toDigits {value : Nat} (positive : 0 < value) :
    ∃ first more, Nat.toDigits 10 value = first :: more ∧ first ≠ '0' := by
  induction value using Nat.strongRecOn with
  | ind value induction =>
      by_cases small : value < 10
      · refine ⟨value.digitChar, [], Nat.toDigits_of_lt_base small, ?_⟩
        intro zero
        have digit := Nat.toNat_digitChar_sub_48_of_lt_ten small
        rw [zero] at digit
        exact absurd digit.symm (Nat.ne_of_gt positive)
      · obtain ⟨first, more, digits, notZero⟩ := induction (value / 10) (by omega) (by omega)
        refine ⟨first, more ++ [(value % 10).digitChar], ?_, notZero⟩
        rw [Nat.toDigits_of_base_le (by decide) (by omega), digits, List.cons_append]

namespace NumberText

/-- Whether a number without a plus sign may start with a character. -/
def isStart (c : Char) : Bool :=
  c == '-' || c.isDigit

theorem ne_of_isStart {c : Char} (start : isStart c = true) (other : Char)
    (noStart : isStart other = false) : c ≠ other := by
  rintro rfl
  rw [start] at noStart
  contradiction

/-- Text of a number without a power of ten. -/
def plainText (negative : Bool) (whole fraction : List Char) : List Char :=
  (if negative then ['-'] else []) ++ (whole ++ if fraction = [] then [] else '.' :: fraction)

/-- The characters of a plain text are its digits, the point and the sign. -/
theorem mem_plainText_cases {negative : Bool} {whole fraction : List Char} {c : Char}
    (member : c ∈ plainText negative whole fraction) :
    c ∈ whole ++ fraction ∨ c = '.' ∨ negative = true ∧ c = '-' := by
  rcases List.mem_append.mp member with sign | unsigned
  · split at sign
    next signed => exact .inr (.inr ⟨signed, List.mem_singleton.mp sign⟩)
    next => contradiction
  · rcases List.mem_append.mp unsigned with whole_mem | behind
    · exact .inl (List.mem_append_left _ whole_mem)
    · split at behind
      next => contradiction
      next =>
        rcases List.mem_cons.mp behind with point | fraction_mem
        · exact .inr (.inl point)
        · exact .inl (List.mem_append_right _ fraction_mem)

/-- What may follow a number without being read as a part of it. -/
def Stops (rest : List Char) : Prop :=
  ∀ c ∈ rest.head?, isDecimalDigit c = false ∧ c ≠ '.' ∧ c ≠ 'e' ∧ c ≠ 'E'

theorem stops_nil : Stops [] := by
  simp [Stops]

theorem Stops.notDigit {rest : List Char} (stops : Stops rest) :
    ∀ c ∈ rest.head?, isDecimalDigit c = false :=
  fun c member => (stops c member).1

theorem Stops.notAsciiDigit {rest : List Char} (stops : Stops rest) :
    ∀ c ∈ rest.head?, c.isDigit = false := by
  intro c member
  by_contra digit
  have decimal : isDecimalDigit c = true := isDecimalDigit_of_isDigit (by simpa using digit)
  exact absurd decimal (by simp [stops.notDigit c member])

theorem ne_of_isDecimalDigit {c other : Char} (digit : isDecimalDigit c = true)
    (notDigit : isDecimalDigit other = false) : c ≠ other := by
  rintro rfl
  rw [digit] at notDigit
  exact Bool.noConfusion notDigit

theorem scanPower_of_stops {rest : List Char} (stops : Stops rest) :
    scanPower rest = (false, [], rest) := by
  cases rest with
  | nil => rfl
  | cons mark tail =>
      obtain ⟨_, _, lower, upper⟩ := stops mark (by simp)
      simp [scanPower, lower, upper]

theorem scanMantissa_whole {whole rest : List Char} (nonempty : whole ≠ [])
    (digits : ∀ c ∈ whole, isDecimalDigit c = true)
    (ends : ∀ c ∈ rest.head?, isDecimalDigit c = false ∧ c ≠ '.') :
    scanMantissa (whole ++ rest) = some (whole, [], rest) := by
  have notPoint : ∀ tail, rest ≠ '.' :: tail := by
    rintro tail rfl
    exact (ends '.' (by simp)).2 rfl
  have notDigit : ∀ c ∈ rest.head?, isDecimalDigit c = false := fun c head => (ends c head).1
  obtain ⟨first, others, rfl⟩ := List.exists_cons_of_ne_nil nonempty
  simp only [scanMantissa, takeWhile_append_eq digits notDigit,
    dropWhile_append_eq digits notDigit]

/-- A point that has digits on one of its sides is read with all digits behind it. -/
theorem scanMantissa_point {whole fraction : List Char} (nonempty : whole ≠ [] ∨ fraction ≠ [])
    (wholeDigits : ∀ c ∈ whole, isDecimalDigit c = true)
    (fractionDigits : ∀ c ∈ fraction, isDecimalDigit c = true) (rest : List Char) :
    scanMantissa (whole ++ '.' :: (fraction ++ rest)) =
      some (whole, fraction ++ rest.takeWhile isDecimalDigit,
        rest.dropWhile isDecimalDigit) := by
  have point : ∀ c ∈ ('.' :: (fraction ++ rest)).head?, isDecimalDigit c = false := by
    simp only [List.head?_cons, Option.mem_def, Option.some.injEq]
    rintro c rfl
    decide
  have taken : (fraction ++ rest).takeWhile isDecimalDigit =
      fraction ++ rest.takeWhile isDecimalDigit := List.takeWhile_append_of_pos fractionDigits
  have left : (fraction ++ rest).dropWhile isDecimalDigit = rest.dropWhile isDecimalDigit :=
    List.dropWhile_append_of_pos fractionDigits
  simp only [scanMantissa, takeWhile_append_eq wholeDigits point,
    dropWhile_append_eq wholeDigits point]
  cases whole with
  | cons first others => simp only [taken, left]
  | nil =>
      obtain ⟨first, others, rfl⟩ := List.exists_cons_of_ne_nil (nonempty.resolve_left (· rfl))
      simp only [taken, left]
      rfl

theorem scanSign_cons (c : Char) (tail : List Char) :
    scanSign (c :: tail) =
      if c = '+' then (false, tail) else if c = '-' then (true, tail) else (false, c :: tail) := by
  split
  next plus =>
    subst plus
    rfl
  next notPlus =>
    split
    next minus =>
      subst minus
      rfl
    next notMinus =>
      rw [scanSign]
      · rintro others same
        exact notPlus (List.cons.inj same).1
      · rintro others same
        exact notMinus (List.cons.inj same).1

theorem scanSign_digit {c : Char} {tail : List Char} (digit : isDecimalDigit c = true) :
    scanSign (c :: tail) = (false, c :: tail) := by
  have notPlus : c ≠ '+' := ne_of_isDecimalDigit digit (by decide)
  have notMinus : c ≠ '-' := ne_of_isDecimalDigit digit (by decide)
  rw [scanSign_cons, if_neg notPlus, if_neg notMinus]

theorem scan_plainText (negative : Bool) {whole fraction rest : List Char}
    (nonempty : whole ≠ []) (wholeDigits : ∀ c ∈ whole, isDecimalDigit c = true)
    (fractionDigits : ∀ c ∈ fraction, isDecimalDigit c = true) (stops : Stops rest) :
    scan (plainText negative whole fraction ++ rest) =
      some ({ negative, whole, fraction, powerNegative := false, power := [] }, rest) := by
  have mantissa : scanMantissa ((whole ++ if fraction = [] then [] else '.' :: fraction) ++ rest) =
      some (whole, fraction, rest) := by
    split
    next empty =>
      rw [List.append_nil, empty]
      exact scanMantissa_whole nonempty wholeDigits fun c head =>
        ⟨(stops c head).1, (stops c head).2.1⟩
    next =>
      have taken : rest.takeWhile isDecimalDigit = [] :=
        takeWhile_append_eq (List.forall_mem_nil _) stops.notDigit
      have left : rest.dropWhile isDecimalDigit = rest :=
        dropWhile_append_eq (List.forall_mem_nil _) stops.notDigit
      rw [List.append_assoc, List.cons_append,
        scanMantissa_point (.inl nonempty) wholeDigits fractionDigits, taken, left,
        List.append_nil]
  have sign : scanSign (plainText negative whole fraction ++ rest) =
      (negative, (whole ++ if fraction = [] then [] else '.' :: fraction) ++ rest) := by
    cases negative with
    | true => rfl
    | false =>
        obtain ⟨first, others, rfl⟩ := List.exists_cons_of_ne_nil nonempty
        exact scanSign_digit (wholeDigits first List.mem_cons_self)
  simp only [scan, sign, mantissa, scanPower_of_stops stops]

end NumberText

theorem isFinite_of_readNumber? {text : List Char} {value : Float}
    (read : readNumber? text = some value) : value.isFinite = true := by
  obtain ⟨⟨number, rest⟩, _, value_eq⟩ := Option.bind_eq_some_iff.mp read
  rw [NumberText.value?] at value_eq
  split at value_eq
  next finite =>
    rw [Bool.and_eq_true, decide_eq_true_eq] at finite
    obtain rfl := Option.some.inj value_eq
    exact Binary64.isFinite_toFloat finite.2
  next => contradiction

end FlowCalibration
