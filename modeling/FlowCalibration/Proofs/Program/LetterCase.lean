import FlowCalibration.Program.Line
import FlowCalibration.Proofs.Decimal.Scanning
import FlowCalibration.Proofs.Text.Case

/-!
# Reading lines in either case

A mnemonic is upper-cased before it is looked up, so is the letter of a word, and the mark of a
power of ten may be written in either case.  So what a word means does not depend on the case of its
ASCII letters, and neither does what a line means, except for the message that it shows.
-/

namespace FlowCalibration

/-! ## Numbers -/

namespace NumberText

/-- The mark of a power of ten is one in either case. -/
theorem toLower_eq_e_iff (c : Char) :
    (c.toLower = 'e' ∨ c.toLower = 'E') ↔ (c = 'e' ∨ c = 'E') := by
  rcases toLower_cases c with same | ⟨lower, upper, shifted⟩
  · rw [same]
  · simp only [← Char.toNat_inj, shifted]
    have small : 'e'.toNat = 101 := rfl
    have capital : 'E'.toNat = 69 := rfl
    omega

theorem takeWhile_digits (text : List Char) :
    (text.map Char.toLower).takeWhile isDecimalDigit = text.takeWhile isDecimalDigit := by
  have kept : isDecimalDigit ∘ Char.toLower = isDecimalDigit := funext isDecimalDigit_toLower
  have same : ∀ c ∈ text.takeWhile isDecimalDigit, c.toLower = id c := fun c member =>
    toLower_of_isDecimalDigit (List.mem_takeWhile_imp member)
  rw [List.takeWhile_map, kept, List.map_congr_left same, List.map_id]

theorem dropWhile_digits (text : List Char) :
    (text.map Char.toLower).dropWhile isDecimalDigit =
      (text.dropWhile isDecimalDigit).map Char.toLower := by
  have kept : isDecimalDigit ∘ Char.toLower = isDecimalDigit := funext isDecimalDigit_toLower
  rw [List.dropWhile_map, kept]

theorem scanSign_map_toLower (text : List Char) :
    scanSign (text.map Char.toLower) = ((scanSign text).1, (scanSign text).2.map Char.toLower) := by
  cases text with
  | nil => rfl
  | cons c tail =>
      have plus : c.toLower = '+' ↔ c = '+' := toLower_eq_iff (by decide) (by decide)
      have minus : c.toLower = '-' ↔ c = '-' := toLower_eq_iff (by decide) (by decide)
      simp only [List.map_cons, scanSign_cons, plus, minus]
      split
      · rfl
      · split <;> rfl

theorem scanMantissa_map_toLower (text : List Char) :
    scanMantissa (text.map Char.toLower) =
      (scanMantissa text).map fun (whole, fraction, rest) =>
        (whole, fraction, rest.map Char.toLower) := by
  simp only [scanMantissa, takeWhile_digits, dropWhile_digits]
  generalize text.takeWhile isDecimalDigit = whole
  cases text.dropWhile isDecimalDigit with
  | nil => cases whole <;> rfl
  | cons c tail =>
      by_cases point : c = '.'
      · have kept : '.'.toLower = '.' := by decide
        subst point
        cases whole with
        | nil =>
            simp only [List.map_cons, kept, takeWhile_digits, dropWhile_digits]
            cases tail.takeWhile isDecimalDigit <;> simp only [Option.map_none, Option.map_some]
        | cons digit whole =>
            simp only [List.map_cons, kept, takeWhile_digits, dropWhile_digits, Option.map_some]
      · have moved : c.toLower ≠ '.' := mt (toLower_eq_iff (by decide) (by decide)).mp point
        cases whole <;> simp [point, moved]

theorem scanPower_map_toLower (text : List Char) :
    scanPower (text.map Char.toLower) =
      ((scanPower text).1, (scanPower text).2.1, (scanPower text).2.2.map Char.toLower) := by
  cases text with
  | nil => rfl
  | cons mark tail =>
      simp only [List.map_cons, scanPower, toLower_eq_e_iff, scanSign_map_toLower,
        takeWhile_digits, dropWhile_digits]
      split
      · cases (scanSign tail).2.takeWhile isDecimalDigit <;> rfl
      · rfl

theorem scan_map_toLower (text : List Char) :
    scan (text.map Char.toLower) =
      (scan text).map fun (number, rest) => (number, rest.map Char.toLower) := by
  simp only [scan, scanSign_map_toLower, scanMantissa_map_toLower]
  cases scanMantissa (scanSign text).2 with
  | none => rfl
  | some parts => simp only [Option.map_some, scanPower_map_toLower]

end NumberText

theorem readNumber?_map_toLower (text : List Char) :
    readNumber? (text.map Char.toLower) = readNumber? text := by
  have kept : isBlank ∘ Char.toLower = isBlank := funext isBlank_toLower
  rw [readNumber?, trimLeft, List.dropWhile_map, kept, NumberText.scan_map_toLower, readNumber?,
    trimLeft]
  cases NumberText.scan (text.dropWhile isBlank) <;> rfl

/-! ## Lines -/

namespace ProgramLine

theorem wordOf?_map_toLower (token : List Char) :
    wordOf? (token.map Char.toLower) = wordOf? token := by
  cases token with
  | nil => rfl
  | cons letter digits =>
      rw [List.map_cons, wordOf?, wordOf?, Char.toUpper_toLower_eq_toUpper, readNumber?_map_toLower]

theorem stripComment_map_toLower (text : List Char) :
    stripComment (text.map Char.toLower) = (stripComment text).map Char.toLower := by
  have kept (other : Char) (notCapital : ¬ (65 ≤ other.toNat ∧ other.toNat ≤ 90))
      (notSmall : ¬ (97 ≤ other.toNat ∧ other.toNat ≤ 122)) :
      (· != other) ∘ Char.toLower = (· != other) := by
    funext c
    have same := toLower_eq_iff (c := c) notCapital notSmall
    simp only [Function.comp_apply, bne, Bool.beq_eq_decide_eq, same]
  have semicolon := kept ';' (by decide) (by decide)
  have lineFeed := kept '\n' (by decide) (by decide)
  simp only [stripComment, List.takeWhile_map, List.dropWhile_map, List.map_append, semicolon,
    lineFeed]

end ProgramLine

end FlowCalibration
