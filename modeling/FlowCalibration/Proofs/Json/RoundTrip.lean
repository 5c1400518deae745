import FlowCalibration.Json.Document
import FlowCalibration.Json.Text
import FlowCalibration.Proofs.Decimal.Scanning

/-!
# JSON texts read back

A value that is written with one line per member is read as it was, as long as the text of each of
its numbers is read as that number.  The scanners go over the text piece by piece: a number ends
where nothing follows that could be more of it, an escape is one piece, and the blanks in front of a
line are skipped.  The length of the text left to read bounds the nested calls that it needs.
-/

namespace FlowCalibration

namespace JsonDocument

/-! ## Numbers -/

namespace NumberParts

variable {text left rest : List Char}

theorem scanFraction?_append (stops : NumberText.Stops rest) {fraction : List Char}
    (scanned : scanFraction? text = some (fraction, left)) :
    scanFraction? (text ++ rest) = some (fraction, left ++ rest) := by
  cases text with
  | nil =>
      obtain ⟨rfl, rfl⟩ := Prod.mk.inj (Option.some.inj scanned)
      have notPoint (tail : List Char) : rest ≠ '.' :: tail := by
        rintro rfl
        exact (stops '.' rfl).2.1 rfl
      rw [List.nil_append, scanFraction?]
      exact notPoint
  | cons first tail =>
      rw [List.cons_append]
      by_cases point : first = '.'
      · subst point
        rw [scanFraction?] at scanned ⊢
        rw [takeWhile_append_of_stops stops.notAsciiDigit,
          dropWhile_append_of_stops stops.notAsciiDigit]
        split at scanned
        next => contradiction
        next nonempty =>
          obtain ⟨rfl, rfl⟩ := Prod.mk.inj (Option.some.inj scanned)
          rw [if_neg nonempty]
      · rw [scanFraction?] at scanned ⊢
        · obtain ⟨rfl, rfl⟩ := Prod.mk.inj (Option.some.inj scanned)
          rfl
        · rintro _ ⟨⟩
          exact point rfl
        · rintro _ ⟨⟩
          exact point rfl

theorem scanSign_append (nonempty : text ≠ []) :
    NumberText.scanSign (text ++ rest) =
      ((NumberText.scanSign text).1, (NumberText.scanSign text).2 ++ rest) := by
  obtain ⟨first, tail, rfl⟩ := List.exists_cons_of_ne_nil nonempty
  rw [List.cons_append]
  unfold NumberText.scanSign
  split <;> simp_all

theorem scanPower?_append (stops : NumberText.Stops rest) {power : Option (Bool × List Char)}
    (scanned : scanPower? text = some (power, left)) :
    scanPower? (text ++ rest) = some (power, left ++ rest) := by
  cases text with
  | nil =>
      obtain ⟨rfl, rfl⟩ := Prod.mk.inj (Option.some.inj scanned)
      cases rest with
      | nil => rfl
      | cons mark tail =>
          obtain ⟨_, _, lower, upper⟩ := stops mark rfl
          simp [scanPower?, lower, upper]
  | cons mark tail =>
      rw [List.cons_append]
      rw [scanPower?] at scanned ⊢
      split
      next marked =>
        rw [if_pos marked] at scanned
        cases tail with
        | nil => contradiction
        | cons first tail =>
            rw [scanSign_append (List.cons_ne_nil _ _)]
            simp only at scanned ⊢
            rw [takeWhile_append_of_stops stops.notAsciiDigit,
              dropWhile_append_of_stops stops.notAsciiDigit]
            split at scanned
            next => contradiction
            next nonempty =>
              obtain ⟨rfl, rfl⟩ := Prod.mk.inj (Option.some.inj scanned)
              rw [if_neg nonempty]
      next unmarked =>
        rw [if_neg unmarked] at scanned
        obtain ⟨rfl, rfl⟩ := Prod.mk.inj (Option.some.inj scanned)
        rfl

theorem scanMinus_append (nonempty : text ≠ []) :
    scanMinus (text ++ rest) = ((scanMinus text).1, (scanMinus text).2 ++ rest) := by
  obtain ⟨first, tail, rfl⟩ := List.exists_cons_of_ne_nil nonempty
  rw [List.cons_append]
  unfold scanMinus
  split <;> simp_all

/-- A number is read in whole, whatever follows that cannot be read as more of it. -/
theorem scan?_append (stops : NumberText.Stops rest) {parts : NumberParts}
    (scanned : scan? text = some (parts, left)) :
    scan? (text ++ rest) = some (parts, left ++ rest) := by
  have nonempty : text ≠ [] := by
    rintro rfl
    contradiction
  rw [scan?] at scanned ⊢
  rw [scanMinus_append nonempty]
  simp only [Option.bind_eq_bind, Option.bind_eq_some_iff, Option.guard_eq_some'] at scanned ⊢
  obtain ⟨_, whole, ⟨fraction, behind⟩, found, ⟨power, _⟩, found_power, scanned⟩ := scanned
  obtain ⟨rfl, rfl⟩ := Prod.mk.inj (Option.some.inj scanned)
  rw [takeWhile_append_of_stops stops.notAsciiDigit,
    dropWhile_append_of_stops stops.notAsciiDigit]
  exact ⟨(), whole, _, scanFraction?_append stops found, _,
    scanPower?_append stops found_power, rfl⟩

theorem head_of_scan? {parts : NumberParts} (scanned : scan? text = some (parts, left)) :
    ∃ first tail, text = first :: tail ∧ NumberText.isStart first = true := by
  cases text with
  | nil => contradiction
  | cons first tail =>
      refine ⟨first, tail, rfl, ?_⟩
      by_contra noStart
      rw [Bool.not_eq_true, NumberText.isStart, Bool.or_eq_false_iff] at noStart
      have unsigned : scanMinus (first :: tail) = (false, first :: tail) := by
        rw [scanMinus]
        rintro _ ⟨⟩
        exact absurd noStart.1 (by decide)
      rw [scan?, unsigned] at scanned
      simp [noStart.2, isWhole] at scanned

/-- Digits of a number that fits a word are all gathered. -/
theorem gather_of_le {digits : List Char} {significand : Nat}
    (fits : Nat.ofDigitChars 10 digits significand ≤ wordMax) :
    gather significand digits = (Nat.ofDigitChars 10 digits significand, digits.length) := by
  induction digits generalizing significand with
  | nil => rfl
  | cons digit digits induction =>
      rw [Nat.ofDigitChars_cons, Nat.mul_comm] at fits ⊢
      have next_fits : significand * 10 + (digit.toNat - '0'.toNat) ≤ wordMax := by
        rw [Nat.ofDigitChars_eq_ofDigitChars_zero] at fits
        exact Nat.le_trans (Nat.le_mul_of_pos_left _ (Nat.pow_pos (by decide)))
          (Nat.le_trans (Nat.le_add_right _ _) fits)
      simp only [gather, if_pos next_fits, induction fits, List.length_cons]

theorem scan?_toDigits (count : Nat) :
    scan? (Nat.toDigits 10 count) = some (⟨false, Nat.toDigits 10 count, [], none⟩, []) := by
  have digits (c : Char) (member : c ∈ Nat.toDigits 10 count) : c.isDigit = true :=
    Nat.isDigit_of_mem_toDigits (by decide) (by decide) member
  have whole : isWhole (Nat.toDigits 10 count) = true := by
    rcases Nat.eq_zero_or_pos count with rfl | positive
    · rfl
    · obtain ⟨first, more, text, notZero⟩ := head_toDigits positive
      rw [text, isWhole, bne_iff_ne.mpr notZero]
      rfl
  have unsigned : scanMinus (Nat.toDigits 10 count) = (false, Nat.toDigits 10 count) := by
    rw [scanMinus]
    intro tail text
    exact absurd (digits '-' (text ▸ List.mem_cons_self)) (by decide)
  have all : (Nat.toDigits 10 count).takeWhile Char.isDigit = Nat.toDigits 10 count :=
    List.takeWhile_eq_self_iff.mpr digits
  have none_left : (Nat.toDigits 10 count).dropWhile Char.isDigit = [] :=
    List.dropWhile_eq_nil_iff.mpr digits
  simp only [scan?, unsigned, all, none_left, whole]
  rfl

end NumberParts

/-! ## Texts -/

namespace Piece

/-- The piece as which a character is written. -/
def ofChar (c : Char) : Piece :=
  if c.toNat < 0x20 ∧ c ∉ ['\x08', '\x0c', '\n', '\r', '\t'] then unit c.toNat else char c

theorem scanAfter?_escaped (c : Char) (seen : List Piece) (rest : List Char) :
    scanAfter? seen (Json.escaped c ++ rest) = scanAfter? (ofChar c :: seen) rest := by
  unfold Json.escaped
  split
  iterate 7 rfl
  next quote backslash b f n r t =>
    split
    next control =>
      have small : c.toNat / 16 < 16 ∧ c.toNat % 16 < 16 := by omega
      have read : hexNumber? ['0', '0', hexDigit (c.toNat / 16), hexDigit (c.toNat % 16)] =
          some c.toNat := by
        have zero : hexValue? '0' = some 0 := by decide
        simp [hexNumber?, hexValue?_hexDigit, small, zero]
        omega
      have unit_eq : ofChar c = unit c.toNat := by
        rw [ofChar, if_pos]
        simp_all
      simp only [List.cons_append, List.nil_append, scanAfter?, read, unit_eq]
    next printable =>
      have char_eq : ofChar c = char c := by
        rw [ofChar, if_neg]
        exact fun special => printable special.1
      rw [char_eq, List.cons_append, List.nil_append, scanAfter?]
      all_goals simp_all

theorem scanAfter?_quoted (characters : List Char) (seen : List Piece) (rest : List Char) :
    scanAfter? seen (characters.flatMap Json.escaped ++ '"' :: rest) =
      some (seen.reverse ++ characters.map ofChar, rest) := by
  induction characters generalizing seen with
  | nil => simp [scanAfter?]
  | cons c characters induction =>
      rw [List.flatMap_cons, List.append_assoc, scanAfter?_escaped, induction]
      simp

theorem charactersAfter?_ofChar (c : Char) (seen : List Char) (pieces : List Piece) :
    charactersAfter? seen (ofChar c :: pieces) = charactersAfter? (c :: seen) pieces := by
  rw [ofChar]
  split
  next control =>
    have low : c.toNat < 0xd800 ∨ 0xdfff < c.toNat := by omega
    rw [charactersAfter?.eq_def]
    simp only [if_pos low, Char.ofNat_toNat]
  next => rw [charactersAfter?]

theorem charactersAfter?_map_ofChar (characters seen : List Char) :
    charactersAfter? seen (characters.map ofChar) = some (seen.reverse ++ characters) := by
  induction characters generalizing seen with
  | nil => simp [charactersAfter?]
  | cons c characters induction =>
      rw [List.map_cons, charactersAfter?_ofChar, induction]
      simp

theorem scan?_quoted (text : String) (rest : List Char) :
    ∃ tail pieces, Json.quoted text ++ rest = '"' :: tail ∧ scan? tail = some (pieces, rest) ∧
      text? pieces = some text := by
  refine ⟨text.toList.flatMap Json.escaped ++ '"' :: rest, text.toList.map ofChar, ?_,
    scanAfter?_quoted text.toList [] rest, ?_⟩
  · simp [Json.quoted]
  · rw [text?, characters?, charactersAfter?_map_ofChar]
    exact congrArg some String.ofList_toList

end Piece

/-! ## Blanks -/

theorem isSpace_of_isStart {c : Char} (start : NumberText.isStart c = true) :
    isSpace c = false := by
  rw [isSpace]
  simp [NumberText.ne_of_isStart start ' ' rfl,
    NumberText.ne_of_isStart start '\t' rfl,
    NumberText.ne_of_isStart start '\n' rfl,
    NumberText.ne_of_isStart start '\r' rfl]

theorem skip_cons {first : Char} (notBlank : isSpace first = false) (tail : List Char) :
    skip (first :: tail) = first :: tail := by
  rw [skip, List.dropWhile_cons, notBlank]
  rfl

end JsonDocument

/-! ## Numbers that are read back -/

namespace JsonNumber

/-- The text of a number is read as that number. -/
def ReadsBack (number : JsonNumber) : Prop :=
  (JsonDocument.NumberParts.scan? (Json.numberText number)).map
    (fun (parts, rest) => (parts.value?, rest)) = some (some number, [])

instance : DecidablePred ReadsBack :=
  fun _ => inferInstanceAs (Decidable (_ = _))

theorem ReadsBack.exists_parts {number : JsonNumber} (readsBack : number.ReadsBack) :
    ∃ parts, JsonDocument.NumberParts.scan? (Json.numberText number) = some (parts, []) ∧
      parts.value? = some number := by
  obtain ⟨⟨parts, rest⟩, scanned, read⟩ := Option.map_eq_some_iff.mp readsBack
  obtain ⟨value, rfl⟩ := Prod.mk.inj read
  exact ⟨parts, scanned, value⟩

theorem readsBack_count {count : Nat} (fits : count ≤ JsonDocument.wordMax) :
    (integer count).ReadsBack := by
  have text : Json.numberText (integer count) = Nat.toDigits 10 count := by
    rw [Json.numberText]
    exact Nat.toList_repr
  have gathered : JsonDocument.NumberParts.gather 0 (Nat.toDigits 10 count) =
      (count, (Nat.toDigits 10 count).length) := by
    rw [JsonDocument.NumberParts.gather_of_le]
    · rw [Nat.ofDigitChars_ten_toDigits]
    · rwa [Nat.ofDigitChars_ten_toDigits]
  rw [ReadsBack, text, JsonDocument.NumberParts.scan?_toDigits, Option.map_some]
  simp [JsonDocument.NumberParts.value?, gathered, JsonDocument.NumberParts.gather]

/-- The reader rounds twice, so not every double is read back from its digits. -/
example : ¬ (real 11539.918103398033).ReadsBack := by
  decide +kernel

end JsonNumber

namespace Json

mutual

/-- The numbers in a value. -/
def numbers : Json → List JsonNumber
  | number value => [value]
  | array elements => numbersOfElements elements
  | object members => numbersOfMembers members
  | _ => []

/-- The numbers in the elements of an array. -/
def numbersOfElements : List Json → List JsonNumber
  | [] => []
  | element :: tail => numbers element ++ numbersOfElements tail

/-- The numbers in the members of an object. -/
def numbersOfMembers : List (String × Json) → List JsonNumber
  | [] => []
  | (_, value) :: tail => numbers value ++ numbersOfMembers tail

end

theorem mem_numbersOfMembers {members : List (String × Json)} {number : JsonNumber} :
    number ∈ numbersOfMembers members ↔ ∃ pair ∈ members, number ∈ pair.2.numbers := by
  induction members with
  | nil => simp [numbersOfMembers]
  | cons pair members induction => simp [numbersOfMembers, induction]

theorem indentedElements_cons (level : Nat) (element : Json) (elements : List Json) :
    ∃ behind, indentedElements level (element :: elements) =
      newLine level ++ (indented level element ++ behind) := by
  cases elements with
  | nil => exact ⟨[], by simp [indentedElements]⟩
  | cons next tail => exact ⟨_, by rw [indentedElements, List.append_assoc]; exact nofun⟩

theorem indentedMembers_cons (level : Nat) (key : String) (value : Json)
    (members : List (String × Json)) :
    ∃ behind, indentedMembers level ((key, value) :: members) =
      newLine level ++ (quoted key ++ behind) := by
  cases members with
  | nil => exact ⟨_, by rw [indentedMembers, List.append_assoc]⟩
  | cons next tail => exact ⟨_, by rw [indentedMembers, List.append_assoc]; exact nofun⟩

theorem head_indented {json : Json} (readable : ∀ number ∈ json.numbers, number.ReadsBack)
    (level : Nat) :
    ∃ first tail, json.indented level = first :: tail ∧ JsonDocument.isSpace first = false ∧
      first ≠ ']' := by
  cases json with
  | null => exact ⟨_, _, rfl, rfl, by decide⟩
  | boolean value => cases value <;> exact ⟨_, _, rfl, rfl, by decide⟩
  | number value =>
      obtain ⟨parts, scanned, _⟩ := (readable value (by simp [numbers])).exists_parts
      obtain ⟨first, tail, text, start⟩ := JsonDocument.NumberParts.head_of_scan? scanned
      refine ⟨first, tail, by rw [indented, text], ?_, ?_⟩
      · exact JsonDocument.isSpace_of_isStart start
      · exact NumberText.ne_of_isStart start _ rfl
  | text value => exact ⟨_, _, rfl, rfl, by decide⟩
  | array elements => cases elements <;> exact ⟨_, _, rfl, rfl, by decide⟩
  | object members => cases members <;> exact ⟨_, _, rfl, rfl, by decide⟩

end Json

namespace JsonDocument

theorem skip_newLine (level : Nat) (text : List Char) :
    skip (Json.newLine level ++ text) = skip text := by
  have blank : ∀ c ∈ Json.newLine level, isSpace c = true := by
    intro c member
    rcases List.mem_cons.mp member with rfl | member
    · rfl
    · rw [List.eq_of_mem_replicate member]
      rfl
  exact List.dropWhile_append_of_pos blank

theorem scanValue?_congr {text other : List Char} (same : skip text = skip other) (fuel : Nat) :
    scanValue? fuel text = scanValue? fuel other := by
  cases fuel with
  | zero => rfl
  | succ fuel => rw [scanValue?, scanValue?, same]

theorem scanValue?_number {text rest : List Char} {parts : NumberParts}
    (scanned : NumberParts.scan? text = some (parts, rest)) (fuel : Nat) :
    scanValue? (fuel + 1) text = some (.number parts.value?, rest) := by
  obtain ⟨first, tail, rfl, start⟩ := NumberParts.head_of_scan? scanned
  rw [scanValue?, skip_cons (isSpace_of_isStart start)]
  split
  next same => exact absurd same (List.cons_ne_nil _ _)
  iterate 6 next same => exact absurd (List.cons.inj same).1 (NumberText.ne_of_isStart start _ rfl)
  next => rw [scanned]; rfl

theorem stops_newLine (level : Nat) (rest : List Char) :
    NumberText.Stops (Json.newLine level ++ rest) := by
  rintro c ⟨⟩
  decide

theorem stops_comma (rest : List Char) : NumberText.Stops (',' :: rest) := by
  rintro c ⟨⟩
  decide

theorem skip_comma (rest : List Char) : skip (',' :: rest) = ',' :: rest :=
  skip_cons rfl rest

theorem skip_colon (rest : List Char) : skip (':' :: rest) = ':' :: rest :=
  skip_cons rfl rest

section Steps

variable {fuel : Nat} {text tail rest behind : List Char} {document : JsonDocument}

theorem skip_ne_closing {first closing : Char} (head : (skip tail).head? = some first)
    (notClosing : first ≠ closing) (rest : List Char) : skip tail ≠ closing :: rest := by
  intro same
  rw [same] at head
  exact notClosing (Option.some.inj head).symm

theorem scanValue?_array {documents : List JsonDocument} {first : Char}
    (head : (skip tail).head? = some first) (notClosing : first ≠ ']')
    (scanned : scanElements? fuel tail = some (documents, rest)) :
    scanValue? (fuel + 1) ('[' :: tail) = some (.array documents, rest) := by
  rw [scanValue?, skip_cons rfl]
  simp only [scanned, Option.map_some]
  split
  next same => exact absurd same (skip_ne_closing head notClosing _)
  next => rfl

theorem scanValue?_object {members : List (Option String × JsonDocument)} {first : Char}
    (head : (skip tail).head? = some first) (notClosing : first ≠ '\x7d')
    (scanned : scanMembers? fuel tail = some (members, rest)) :
    scanValue? (fuel + 1) ('\x7b' :: tail) = some (.object members, rest) := by
  rw [scanValue?, skip_cons rfl]
  simp only [scanned, Option.map_some]
  split
  next same => exact absurd same (skip_ne_closing head notClosing _)
  next => rfl

theorem scanElements?_last (scanned : scanValue? fuel text = some (document, behind))
    (closed : skip behind = ']' :: rest) :
    scanElements? (fuel + 1) text = some ([document], rest) := by
  rw [scanElements?, scanned]
  simp only [closed]

theorem scanElements?_more {documents : List JsonDocument}
    (scanned : scanValue? fuel text = some (document, ',' :: behind))
    (others : scanElements? fuel behind = some (documents, rest)) :
    scanElements? (fuel + 1) text = some (document :: documents, rest) := by
  rw [scanElements?, scanned]
  simp only [skip_comma, others, Option.map_some]

theorem scanMembers?_last {key : String} (front : skip text = Json.quoted key ++ ':' :: tail)
    (scanned : scanValue? fuel tail = some (document, behind))
    (closed : skip behind = '\x7d' :: rest) :
    scanMembers? (fuel + 1) text = some ([(some key, document)], rest) := by
  obtain ⟨inner, pieces, text_eq, quoted, read⟩ := Piece.scan?_quoted key (':' :: tail)
  rw [scanMembers?, front, text_eq]
  simp only [quoted, skip_colon, scanned, closed, read]

theorem scanMembers?_more {key : String} {members : List (Option String × JsonDocument)}
    (front : skip text = Json.quoted key ++ ':' :: tail)
    (scanned : scanValue? fuel tail = some (document, ',' :: behind))
    (others : scanMembers? fuel behind = some (members, rest)) :
    scanMembers? (fuel + 1) text = some ((some key, document) :: members, rest) := by
  obtain ⟨inner, pieces, text_eq, quoted, read⟩ := Piece.scan?_quoted key (':' :: tail)
  rw [scanMembers?, front, text_eq]
  simp only [quoted, skip_colon, skip_comma, scanned, others,
    read, Option.map_some]

end Steps

/-! ## Values -/

theorem skip_quoted (key : String) (rest : List Char) :
    skip (Json.quoted key ++ rest) = Json.quoted key ++ rest :=
  skip_cons rfl _

theorem length_newLine_pos (level : Nat) : 0 < (Json.newLine level).length :=
  Nat.succ_pos _

/-- A value on a line of its own is found behind the blanks. -/
theorem scanValue?_newLine (fuel level : Nat) (text : List Char) :
    scanValue? fuel (Json.newLine level ++ text) = scanValue? fuel text :=
  scanValue?_congr (skip_newLine level text) fuel

theorem skip_blank (text : List Char) : skip (' ' :: text) = skip text :=
  rfl

mutual

theorem scanValue?_indented (json : Json) (level : Nat) {fuel : Nat} {rest : List Char}
    (readable : ∀ number ∈ json.numbers, number.ReadsBack)
    (fueled : (json.indented level).length ≤ fuel) (stops : NumberText.Stops rest) :
    scanValue? fuel (json.indented level ++ rest) = some (ofJson json, rest) := by
  obtain ⟨first, tail, head, _, _⟩ := Json.head_indented readable level
  obtain ⟨fuel, rfl⟩ : ∃ more, fuel = more + 1 := by
    refine ⟨fuel - 1, ?_⟩
    rw [head, List.length_cons] at fueled
    omega
  match json with
  | .null => rfl
  | .boolean true => rfl
  | .boolean false => rfl
  | .number value =>
      obtain ⟨parts, scanned, read⟩ := (readable value (by simp [Json.numbers])).exists_parts
      rw [Json.indented, scanValue?_number (NumberParts.scan?_append stops scanned), read]
      rfl
  | .text value =>
      obtain ⟨tail, pieces, text_eq, scanned, read⟩ := Piece.scan?_quoted value rest
      rw [Json.indented, text_eq, scanValue?, skip_cons rfl]
      simp only [scanned, read, Option.map_some, ofJson]
  | .array [] => rfl
  | .array (element :: elements) =>
      simp only [Json.indented, List.length_cons, List.length_append] at fueled
      simp only [Json.indented, List.cons_append, List.append_assoc, List.nil_append]
      obtain ⟨first, tail, head, notBlank, notClosing⟩ := Json.head_indented
        (fun number member => readable number (List.mem_append_left _ member)) (level + 1)
      refine scanValue?_array ?_ notClosing
        (scanElements?_indented (element :: elements) (level + 1) readable (List.cons_ne_nil _ _)
          (by omega) level)
      obtain ⟨behind, line⟩ := Json.indentedElements_cons (level + 1) element elements
      rw [line, head, List.append_assoc, skip_newLine, List.append_assoc, List.cons_append,
        skip_cons notBlank]
      rfl
  | .object [] => rfl
  | .object ((key, value) :: members) =>
      simp only [Json.indented, List.length_cons, List.length_append] at fueled
      simp only [Json.indented, List.cons_append, List.append_assoc, List.nil_append]
      have notClosing : '"' ≠ '\x7d' := by decide
      refine scanValue?_object ?_ notClosing
        (scanMembers?_indented ((key, value) :: members) (level + 1) readable (List.cons_ne_nil _ _)
          (by omega) level)
      obtain ⟨behind, line⟩ := Json.indentedMembers_cons (level + 1) key value members
      rw [line, List.append_assoc, skip_newLine, List.append_assoc, skip_quoted]
      rfl

theorem scanElements?_indented (elements : List Json) (level : Nat) {fuel : Nat}
    {rest : List Char}
    (readable : ∀ number ∈ Json.numbersOfElements elements, number.ReadsBack)
    (nonempty : elements ≠ [])
    (fueled : (Json.indentedElements level elements).length ≤ fuel) (below : Nat) :
    scanElements? fuel
        (Json.indentedElements level elements ++ (Json.newLine below ++ ']' :: rest)) =
      some (ofElements elements, rest) := by
  have line := length_newLine_pos level
  match elements with
  | [element] =>
      simp only [Json.indentedElements, List.length_append] at fueled
      obtain ⟨fuel, rfl⟩ : ∃ more, fuel = more + 1 := ⟨fuel - 1, by omega⟩
      simp only [Json.indentedElements, List.append_assoc]
      have closed : skip (Json.newLine below ++ ']' :: rest) = ']' :: rest := skip_newLine below _
      refine scanElements?_last ?_ closed
      rw [scanValue?_newLine]
      exact scanValue?_indented element level
        (fun number member => readable number (List.mem_append_left _ member)) (by omega)
        (stops_newLine below _)
  | element :: next :: tail =>
      simp only [Json.indentedElements, List.length_append, List.length_cons] at fueled
      obtain ⟨fuel, rfl⟩ : ∃ more, fuel = more + 1 := ⟨fuel - 1, by omega⟩
      simp only [Json.indentedElements, List.append_assoc, List.cons_append]
      refine scanElements?_more ?_ (scanElements?_indented (next :: tail) level
        (fun number member => readable number (List.mem_append_right _ member))
        (List.cons_ne_nil _ _) (by omega) below)
      rw [scanValue?_newLine]
      exact scanValue?_indented element level
        (fun number member => readable number (List.mem_append_left _ member)) (by omega)
        (stops_comma _)

theorem scanMembers?_indented (members : List (String × Json)) (level : Nat) {fuel : Nat}
    {rest : List Char}
    (readable : ∀ number ∈ Json.numbersOfMembers members, number.ReadsBack)
    (nonempty : members ≠ [])
    (fueled : (Json.indentedMembers level members).length ≤ fuel) (below : Nat) :
    scanMembers? fuel
        (Json.indentedMembers level members ++ (Json.newLine below ++ '\x7d' :: rest)) =
      some (ofMembers members, rest) := by
  have line := length_newLine_pos level
  match members with
  | [(key, value)] =>
      simp only [Json.indentedMembers, List.length_append, List.length_cons] at fueled
      obtain ⟨fuel, rfl⟩ : ∃ more, fuel = more + 1 := ⟨fuel - 1, by omega⟩
      simp only [Json.indentedMembers, List.append_assoc, List.cons_append]
      have closed : skip (Json.newLine below ++ '\x7d' :: rest) = '\x7d' :: rest :=
        skip_newLine below _
      refine scanMembers?_last ((skip_newLine level _).trans (skip_quoted key _)) ?_ closed
      rw [scanValue?_congr (skip_blank _)]
      exact scanValue?_indented value level
        (fun number member => readable number (List.mem_append_left _ member)) (by omega)
        (stops_newLine below _)
  | (key, value) :: next :: tail =>
      simp only [Json.indentedMembers, List.length_append, List.length_cons] at fueled
      obtain ⟨fuel, rfl⟩ : ∃ more, fuel = more + 1 := ⟨fuel - 1, by omega⟩
      simp only [Json.indentedMembers, List.append_assoc, List.cons_append]
      refine scanMembers?_more ((skip_newLine level _).trans (skip_quoted key _)) ?_
        (scanMembers?_indented (next :: tail) level
          (fun number member => readable number (List.mem_append_right _ member))
          (List.cons_ne_nil _ _) (by omega) below)
      rw [scanValue?_congr (skip_blank _)]
      exact scanValue?_indented value level
        (fun number member => readable number (List.mem_append_left _ member)) (by omega)
        (stops_comma _)

end

/-- A value that is written with its members on lines of their own is read as it was. -/
theorem parse?_toIndentedText {json : Json}
    (readable : ∀ number ∈ json.numbers, number.ReadsBack) :
    parse? json.toIndentedText = some (ofJson json) := by
  have characters : json.toIndentedText.toList = json.indented 0 := String.toList_ofList
  have scanned := scanValue?_indented json 0 readable
    (Nat.le_trans (Nat.le_mul_of_pos_left _ (by decide : 0 < 2)) (Nat.le_add_right _ 2))
    NumberText.stops_nil
  rw [List.append_nil] at scanned
  simp only [parse?, characters, scanned]
  rfl

/-! ## Objects of leaves -/

theorem membersWithin?_ofMembers {depth : Nat} {members : List (String × Json)}
    (leaves : ∀ pair ∈ members, toJsonWithin? depth (ofJson pair.2) = some pair.2) :
    membersWithin? depth (ofMembers members) = some members := by
  induction members with
  | nil => rfl
  | cons pair members induction =>
      obtain ⟨leaf, others⟩ := List.forall_mem_cons.mp leaves
      simp only [ofMembers, membersWithin?, leaf, induction others]

/-- An object without arrays and objects in it is read as the table of its members. -/
theorem toJson?_object {members : List (String × Json)}
    (leaves : ∀ pair ∈ members, ∀ depth, toJsonWithin? depth (ofJson pair.2) = some pair.2) :
    toJson? (ofJson (.object members)) = some (.object (KeyTable.ofList members)) := by
  have within := membersWithin?_ofMembers fun pair member => leaves pair member 126
  have deep : depthMax = 126 + 1 := rfl
  rw [toJson?, ofJson, deep, toJsonWithin?, within]
  rfl

end JsonDocument

end FlowCalibration
