import FlowCalibration.Proofs.Preview.Labels
import FlowCalibration.Proofs.Text.Matching

/-!
# The patterns of labels

A flow is a number with its unit behind it, and a feed rate also has an `F` in front.  Blanks may
stand between the parts, and letters are compared up to case folding.  At each place of a text a
pattern picks at most one number, so that the two searches give the numbers of the first places, and
a message has a label exactly when one of the patterns occurs in it.
-/

namespace FlowCalibration

namespace Label

open Double (isNumberChar)
open NumberText (plainText)

/-- Simple case folding as far as its result is an ASCII character.  Besides the capitals the long
s and the Kelvin sign fold to a letter. -/
def simpleFold (c : Char) : Char :=
  if c.toNat = longS then 's' else lowerToAscii c

/-- A number without a sign: digits, and perhaps a point with digits behind it. -/
def IsUnsigned (text : List Char) : Prop :=
  ∃ whole fraction, whole ≠ [] ∧ (∀ c ∈ whole ++ fraction, c.isDigit = true) ∧
    text = plainText false whole fraction

/-- A number at the front of a text with a unit behind it, perhaps after blanks. -/
def MeasureAt (unit text number : List Char) : Prop :=
  IsUnsigned number ∧ ∃ gap spelled rest, text = number ++ (gap ++ (spelled ++ rest)) ∧
    (∀ c ∈ gap, isBlank c = true) ∧ spelled.map simpleFold = unit

/-- The number of a flow at the front of a text. -/
def FlowAt (text number : List Char) : Prop :=
  MeasureAt "mm3/s".toList text number

/-- The number of a feed rate at the front of a text. -/
def FeedAt (text number : List Char) : Prop :=
  ∃ letter gap rest, text = letter :: (gap ++ rest) ∧ simpleFold letter = 'f' ∧
    (∀ c ∈ gap, isBlank c = true) ∧ MeasureAt "mm/min".toList rest number

/-- What a label shows of a message: the flow and the feed rate that are found first. -/
inductive Shows (message : List Char) : String → Prop
  | flow {number : List Char} (first : PicksFirst FlowAt message number)
      (noFeed : ¬ Occurs FeedAt message) : Shows message ("F " ++ String.ofList number)
  | feed {number : List Char} (noFlow : ¬ Occurs FlowAt message)
      (first : PicksFirst FeedAt message number) : Shows message ("FR " ++ String.ofList number)
  | both {number rate : List Char} (flow : PicksFirst FlowAt message number)
      (feed : PicksFirst FeedAt message rate) :
      Shows message ("F " ++ String.ofList number ++ " - " ++ ("FR " ++ String.ofList rate))

/-! ## Letters -/

/-- Letters are compared up to case folding.  No other character folds to an ASCII character than to
an `s` or a `k`, and no unit has a `k`. -/
theorem sameLetter_iff {letter : Char} (ascii : letter.toNat < 0x80) (notK : letter ≠ 'k')
    (c : Char) : sameLetter letter c = true ↔ simpleFold c = letter := by
  have beyond {d : Char} (large : 0x80 ≤ d.toNat) : d.toLower = d := by
    rcases toLower_cases d with same | ⟨-, upper, -⟩
    · exact same
    · omega
  have different {d : Char} (large : 0x80 ≤ d.toNat) : d ≠ letter := by
    rintro rfl
    omega
  rw [sameLetter, simpleFold, lowerToAscii]
  by_cases isLongS : c.toNat = longS
  · have large : 0x80 ≤ c.toNat := by rw [isLongS]; decide
    simp only [isLongS, beyond large, beq_eq_false_iff_ne.mpr (different large), Bool.false_or,
      beq_self_eq_true, Bool.and_true, beq_iff_eq, if_true]
    exact eq_comm
  · by_cases isKelvin : c.toNat = kelvinSign
    · have large : 0x80 ≤ c.toNat := by rw [isKelvin]; decide
      have notLongS : kelvinSign ≠ longS := by decide
      simp [isKelvin, notLongS, beyond large, different large, notK.symm]
    · simp [isLongS, isKelvin]

/-- Whether the comparison knows all variants of the characters of a unit. -/
def isPlainUnit (unit : List Char) : Bool :=
  unit.all fun letter => letter.toNat < 0x80 && letter != 'k'

theorem afterUnit?_eq_some_iff {unit text rest : List Char} (plain : isPlainUnit unit = true) :
    afterUnit? unit text = some rest ↔
      ∃ spelled, text = spelled ++ rest ∧ spelled.map simpleFold = unit := by
  induction unit generalizing text with
  | nil => simp [afterUnit?]
  | cons letter unit induction =>
      simp only [isPlainUnit, List.all_cons, Bool.and_eq_true, decide_eq_true_eq,
        bne_iff_ne] at plain
      obtain ⟨⟨ascii, notK⟩, plain_tail⟩ := plain
      cases text with
      | nil => simp [afterUnit?, List.map_eq_cons_iff]
      | cons c text =>
          rw [afterUnit?, Option.ite_none_right_eq_some, sameLetter_iff ascii notK,
            induction plain_tail]
          constructor
          · rintro ⟨folds, spelled, rfl, spelled_folds⟩
            exact ⟨c :: spelled, rfl, by rw [List.map_cons, folds, spelled_folds]⟩
          · rintro ⟨spelled, text_eq, spelled_folds⟩
            obtain ⟨d, spelled, rfl, folds, tail_folds⟩ := List.map_eq_cons_iff.mp spelled_folds
            obtain ⟨rfl, rfl⟩ := List.cons.inj text_eq
            exact ⟨folds, spelled, rfl, tail_folds⟩

theorem ends_of_isBlank {c : Char} (blank : isBlank c = true) : c.isDigit = false ∧ c ≠ '.' := by
  have foreign : ¬ isNumberChar c = true := by
    intro numeric
    rw [Double.isBlank_of_isNumberChar numeric] at blank
    contradiction
  simp only [isNumberChar, Bool.or_eq_true, beq_iff_eq, not_or, Bool.not_eq_true] at foreign
  exact ⟨foreign.1.1, foreign.2⟩

/-- A number ends in front of a gap when it ends in front of what is behind the gap. -/
theorem ends_of_gap {gap rest : List Char} (blank : ∀ c ∈ gap, isBlank c = true)
    (ends : ∀ c ∈ rest.head?, c.isDigit = false ∧ c ≠ '.') :
    ∀ c ∈ (gap ++ rest).head?, c.isDigit = false ∧ c ≠ '.' := by
  intro c head
  cases gap with
  | nil => exact ends c head
  | cons d gap =>
      obtain rfl := Option.some.inj head
      exact ends_of_isBlank (blank d List.mem_cons_self)

/-- What folds to the first letter of a unit is no part of a number and no blank. -/
theorem ends_of_simpleFold {c : Char} (folds : simpleFold c = 'm') :
    isBlank c = false ∧ c.isDigit = false ∧ c ≠ '.' := by
  have same : sameLetter 'm' c = true := (sameLetter_iff (by decide) (by decide) c).mpr folds
  have lower : c.toLower = 'm' := by simpa [sameLetter] using same
  rcases toLower_cases c with kept | ⟨-, -, shifted⟩
  · rw [← kept, lower]
    decide
  · have capital : c = 'M' := by
      have code : 'm'.toNat = c.toNat + 32 := by rw [← lower, shifted]
      exact Char.toNat_inj.mp (Nat.add_right_cancel code.symm)
    rw [capital]
    decide

/-! ## Numbers with units -/

theorem IsUnsigned.isBlank_head? {number : List Char} (unsigned : IsUnsigned number)
    (rest : List Char) : ∀ c ∈ (number ++ rest).head?, isBlank c = false := by
  obtain ⟨whole, fraction, nonempty, digits, rfl⟩ := unsigned
  obtain ⟨first, others, rfl⟩ := List.exists_cons_of_ne_nil nonempty
  intro c head
  obtain rfl := Option.some.inj head
  exact Double.isBlank_of_isNumberChar
    (Double.isNumberChar_of_isDigit (digits first List.mem_cons_self))

theorem isUnsigned_of_number? {text number rest : List Char}
    (found : number? text = some (number, rest)) : IsUnsigned number ∧ text = number ++ rest := by
  have digits (text : List Char) : ∀ c ∈ text.takeWhile Char.isDigit, c.isDigit = true :=
    fun c member => List.mem_takeWhile_imp member
  have split (text : List Char) :
      text.takeWhile Char.isDigit ++ text.dropWhile Char.isDigit = text :=
    List.takeWhile_append_dropWhile
  have whole_only {whole : List Char} (nonempty : whole ≠ [])
      (whole_digits : ∀ c ∈ whole, c.isDigit = true) : IsUnsigned whole :=
    ⟨whole, [], nonempty, by simpa using whole_digits, by simp [plainText]⟩
  rw [number?] at found
  split at found
  · contradiction
  next tail pointed some_digits =>
    split at found
    next =>
      obtain ⟨rfl, rfl⟩ := Prod.mk.inj (Option.some.inj found)
      exact ⟨whole_only some_digits (digits text), by rw [← pointed, split]⟩
    next some_fraction =>
      obtain ⟨rfl, rfl⟩ := Prod.mk.inj (Option.some.inj found)
      refine ⟨⟨_, _, some_digits, List.forall_mem_append.mpr ⟨digits text, digits tail⟩, ?_⟩, ?_⟩
      · rw [plainText, if_neg some_fraction]
        rfl
      · rw [List.append_assoc, List.cons_append, split, ← pointed, split]
  next some_digits _ =>
    obtain ⟨rfl, rfl⟩ := Prod.mk.inj (Option.some.inj found)
    exact ⟨whole_only some_digits (digits text), (split text).symm⟩

variable {unit text number : List Char}

/-- A number and its unit are found at the front of a text where they stand. -/
theorem measure?_eq_some_iff (starts : unit.head? = some 'm') (plain : isPlainUnit unit = true) :
    measure? unit text = some number ↔ MeasureAt unit text number := by
  constructor
  · intro found
    rw [measure?] at found
    split at found
    next cut rest number_eq =>
      obtain ⟨left, unit_eq, rfl⟩ := Option.map_eq_some_iff.mp found
      obtain ⟨unsigned, rfl⟩ := isUnsigned_of_number? number_eq
      obtain ⟨spelled, trimmed, folds⟩ := (afterUnit?_eq_some_iff plain).mp unit_eq
      refine ⟨unsigned, rest.takeWhile isBlank, spelled, left, ?_,
        fun c member => List.mem_takeWhile_imp member, folds⟩
      rw [← trimmed, trimLeft, List.takeWhile_append_dropWhile]
    next => contradiction
  · rintro ⟨⟨whole, fraction, nonempty, digits, rfl⟩, gap, spelled, rest, rfl, blank, folds⟩
    have unit_eq : afterUnit? unit (spelled ++ rest) = some rest :=
      (afterUnit?_eq_some_iff plain).mpr ⟨spelled, rfl, folds⟩
    obtain ⟨tail, rfl⟩ := List.head?_eq_some_iff.mp starts
    obtain ⟨c, more, rfl, first_folds, -⟩ := List.map_eq_cons_iff.mp folds
    obtain ⟨notBlank, first_ends⟩ := ends_of_simpleFold first_folds
    have ends : ∀ d ∈ (gap ++ (c :: more ++ rest)).head?, d.isDigit = false ∧ d ≠ '.' :=
      ends_of_gap blank fun d head => Option.some.inj head ▸ first_ends
    have trimmed : trimLeft (gap ++ (c :: more ++ rest)) = c :: more ++ rest :=
      dropWhile_append_eq blank fun d head => Option.some.inj head ▸ notBlank
    rw [measure?, number?_plainText nonempty digits ends]
    simp only [trimmed, unit_eq, Option.map_some]

theorem MeasureAt.isBlank_head? (measure : MeasureAt unit text number) :
    ∀ c ∈ text.head?, isBlank c = false := by
  obtain ⟨unsigned, gap, spelled, rest, rfl, -⟩ := measure
  exact unsigned.isBlank_head? _

theorem flowAt_iff (text number : List Char) :
    measure? "mm3/s".toList text = some number ↔ FlowAt text number :=
  measure?_eq_some_iff (by decide) (by decide)

/-- The feed rate at the front of a text. -/
def feedHere? : List Char → Option (List Char)
  | [] => none
  | c :: tail => if sameLetter 'f' c then measure? "mm/min".toList (trimLeft tail) else none

theorem feedAt_iff (text number : List Char) :
    feedHere? text = some number ↔ FeedAt text number := by
  have measured (rest : List Char) : measure? "mm/min".toList rest = some number ↔
      MeasureAt "mm/min".toList rest number := measure?_eq_some_iff (by decide) (by decide)
  cases text with
  | nil =>
      refine iff_of_false nofun ?_
      rintro ⟨letter, gap, rest, text_eq, -⟩
      contradiction
  | cons c tail =>
      rw [feedHere?, Option.ite_none_right_eq_some, sameLetter_iff (by decide) (by decide),
        measured]
      constructor
      · rintro ⟨folds, measure⟩
        refine ⟨c, tail.takeWhile isBlank, trimLeft tail, ?_, folds,
          fun d member => List.mem_takeWhile_imp member, measure⟩
        rw [trimLeft, List.takeWhile_append_dropWhile]
      · rintro ⟨letter, gap, rest, text_eq, folds, blank, measure⟩
        obtain ⟨rfl, rfl⟩ := List.cons.inj text_eq
        refine ⟨folds, ?_⟩
        rwa [trimLeft, dropWhile_append_eq blank measure.isBlank_head?]

/-! ## The first places -/

theorem flow?_cons (c : Char) (tail : List Char) :
    flow? (c :: tail) = (measure? "mm3/s".toList (c :: tail)).or (flow? tail) := by
  rw [flow?]
  cases measure? "mm3/s".toList (c :: tail) <;> rfl

theorem feed?_cons (c : Char) (tail : List Char) :
    feed? (c :: tail) = (feedHere? (c :: tail)).or (feed? tail) := by
  rw [feed?, feedHere?]
  generalize (if sameLetter 'f' c = true then _ else none) = here
  cases here <;> rfl

/-- The flow that is found is that of the first place. -/
theorem flow?_eq_some_iff : flow? text = some number ↔ PicksFirst FlowAt text number :=
  search_eq_some_iff flow? flowAt_iff rfl flow?_cons

theorem flow?_eq_none_iff : flow? text = none ↔ ¬ Occurs FlowAt text :=
  search_eq_none_iff flow? flowAt_iff rfl flow?_cons

/-- The feed rate that is found is that of the first place. -/
theorem feed?_eq_some_iff : feed? text = some number ↔ PicksFirst FeedAt text number :=
  search_eq_some_iff feed? feedAt_iff rfl feed?_cons

theorem feed?_eq_none_iff : feed? text = none ↔ ¬ Occurs FeedAt text :=
  search_eq_none_iff feed? feedAt_iff rfl feed?_cons

/-! ## Labels -/

section Message

variable {message label : String}

theorem ofMessage?_eq_none_iff :
    ofMessage? message = none ↔
      ¬ (Occurs FlowAt message.toList ∨ Occurs FeedAt message.toList) := by
  rw [not_or, ← flow?_eq_none_iff, ← feed?_eq_none_iff, ofMessage?]
  cases flow? message.toList <;> cases feed? message.toList <;> simp

theorem ofMessage?_eq_some_iff :
    ofMessage? message = some label ↔ Shows message.toList label := by
  constructor
  · intro shown
    rw [ofMessage?] at shown
    cases flow : flow? message.toList with
    | some number =>
        cases feed : feed? message.toList with
        | some rate =>
            simp only [flow, feed, Option.map_some, Option.some.injEq] at shown
            exact shown ▸ .both (flow?_eq_some_iff.mp flow) (feed?_eq_some_iff.mp feed)
        | none =>
            simp only [flow, feed, Option.map_some, Option.map_none, Option.some.injEq] at shown
            exact shown ▸ .flow (flow?_eq_some_iff.mp flow) (feed?_eq_none_iff.mp feed)
    | none =>
        cases feed : feed? message.toList with
        | some rate =>
            simp only [flow, feed, Option.map_some, Option.map_none, Option.some.injEq] at shown
            exact shown ▸ .feed (flow?_eq_none_iff.mp flow) (feed?_eq_some_iff.mp feed)
        | none => simp [flow, feed] at shown
  · intro shows_label
    cases shows_label with
    | flow first noFeed =>
        rw [ofMessage?, flow?_eq_some_iff.mpr first, feed?_eq_none_iff.mpr noFeed]
        rfl
    | feed noFlow first =>
        rw [ofMessage?, flow?_eq_none_iff.mpr noFlow, feed?_eq_some_iff.mpr first]
        rfl
    | both flow feed =>
        rw [ofMessage?, flow?_eq_some_iff.mpr flow, feed?_eq_some_iff.mpr feed]
        rfl

/-- The characters of labels. -/
def isLabelChar (c : Char) : Bool :=
  c.isDigit || c == '.' || c == 'F' || c == 'R' || c == ' ' || c == '-'

theorem IsUnsigned.all_isLabelChar {number : List Char} (unsigned : IsUnsigned number) :
    (String.ofList number).toList.all isLabelChar = true := by
  obtain ⟨whole, fraction, -, digits, rfl⟩ := unsigned
  rw [String.toList_ofList, List.all_eq_true]
  intro c member
  rcases NumberText.mem_plainText_cases member with digit | rfl | ⟨signed, -⟩
  · simp [isLabelChar, digits c digit]
  · decide
  · contradiction

theorem Shows.all_isLabelChar {message : List Char} (shown : Shows message label) :
    label.toList.all isLabelChar = true := by
  have of_flow {number : List Char} (first : PicksFirst FlowAt message number) :
      (String.ofList number).toList.all isLabelChar = true := by
    obtain ⟨_, _, _, ⟨unsigned, -⟩, -⟩ := first
    exact unsigned.all_isLabelChar
  have of_feed {number : List Char} (first : PicksFirst FeedAt message number) :
      (String.ofList number).toList.all isLabelChar = true := by
    obtain ⟨_, _, _, ⟨_, _, _, -, -, -, unsigned, -⟩, -⟩ := first
    exact unsigned.all_isLabelChar
  have flow_mark : "F ".toList.all isLabelChar = true := by decide
  have feed_mark : "FR ".toList.all isLabelChar = true := by decide
  have hyphen : " - ".toList.all isLabelChar = true := by decide
  cases shown with
  | flow first noFeed =>
      rw [String.toList_append, List.all_append, flow_mark, of_flow first, Bool.and_self]
  | feed noFlow first =>
      rw [String.toList_append, List.all_append, feed_mark, of_feed first, Bool.and_self]
  | both flow feed =>
      simp only [String.toList_append, List.all_append, flow_mark, feed_mark, hyphen,
        of_flow flow, of_feed feed, Bool.and_self]

/-- A message has a label exactly when a flow or a feed rate is named in it.  The label shows the
number of the first place of either pattern, as much of it as possible, and consists of digits,
points, spaces, the hyphen and the letters F and R. -/
theorem ofMessage?_shows (message : String) :
    ((ofMessage? message).isSome = true ↔
      Occurs FlowAt message.toList ∨ Occurs FeedAt message.toList) ∧
    ∀ label, (ofMessage? message = some label ↔ Shows message.toList label) ∧
      (ofMessage? message = some label → label.toList.all isLabelChar = true) := by
  refine ⟨?_, fun label => ⟨ofMessage?_eq_some_iff, fun shown =>
    (ofMessage?_eq_some_iff.mp shown).all_isLabelChar⟩⟩
  rw [Option.isSome_iff_ne_none, ne_eq, ofMessage?_eq_none_iff, not_not]

example : ofMessage? "1.2.3 mm3/\u017f; F f 300mm/MIN" = some "F 2.3 - FR 300" := by
  decide +kernel

end Message

end Label

end FlowCalibration
