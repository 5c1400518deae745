import FlowCalibration.Proofs.Preview.Picture
import FlowCalibration.Proofs.Text.Case

/-!
# Labels of messages

A label is read from the text of a message by two searches.  Numbers in front of the one that is
searched for do not mislead them, as no unit follows there, and a number is found in whole, however
long it is.  A label is drawn once if a move behind its message leaves its place.
-/

namespace FlowCalibration

/-- A text without the minus sign in front. -/
def withoutSign (text : String) : String :=
  match text.toList with
  | '-' :: digits => String.ofList digits
  | _ => text

namespace Label

open Double (isNumberChar)
open NumberText (plainText)

/-! ## Characters of numbers -/

theorem toLower_of_isNumberChar {c : Char} (numeric : isNumberChar c = true) : c.toLower = c := by
  simp only [isNumberChar, Bool.or_eq_true, beq_iff_eq] at numeric
  rcases numeric with (digit | rfl) | rfl
  · exact toLower_of_isDecimalDigit (isDecimalDigit_of_isDigit digit)
  · decide
  · decide

theorem sameLetter_of_isNumberChar {letter c : Char} (numeric : isNumberChar c = true)
    (notNumeric : isNumberChar letter = false) (notS : letter ≠ 's') :
    sameLetter letter c = false := by
  have different : c ≠ letter := Double.ne_of_isNumberChar numeric notNumeric
  simp [sameLetter, toLower_of_isNumberChar numeric, different, notS]

/-! ## Numbers -/

theorem number?_of_notDigit {c : Char} (notDigit : c.isDigit = false) (tail : List Char) :
    number? (c :: tail) = none := by
  simp [number?, notDigit]

theorem measure?_of_notDigit (unit : List Char) {c : Char} (notDigit : c.isDigit = false)
    (tail : List Char) : measure? unit (c :: tail) = none := by
  rw [measure?, number?_of_notDigit notDigit]

theorem number?_plainText {whole fraction rest : List Char} (nonempty : whole ≠ [])
    (digits : ∀ c ∈ whole ++ fraction, c.isDigit = true)
    (stops : ∀ c ∈ rest.head?, c.isDigit = false ∧ c ≠ '.') :
    number? (plainText false whole fraction ++ rest) =
      some (plainText false whole fraction, rest) := by
  obtain ⟨first, others, rfl⟩ := List.exists_cons_of_ne_nil nonempty
  obtain ⟨whole_digits, fraction_digits⟩ := List.forall_mem_append.mp digits
  have rest_stops : ∀ c ∈ rest.head?, c.isDigit = false := fun c member => (stops c member).1
  cases fraction with
  | nil =>
      have text : plainText false (first :: others) [] = first :: others := by simp [plainText]
      rw [text, number?, takeWhile_append_eq whole_digits rest_stops,
        dropWhile_append_eq whole_digits rest_stops]
      cases rest with
      | nil => rfl
      | cons c rest =>
          have notPoint : c ≠ '.' := (stops c rfl).2
          simp [notPoint]
  | cons digit fraction =>
      have text : plainText false (first :: others) (digit :: fraction) ++ rest =
          (first :: others) ++ '.' :: (digit :: fraction ++ rest) := by simp [plainText]
      have point : ∀ c ∈ ('.' :: (digit :: fraction ++ rest)).head?, c.isDigit = false := by
        simp
      rw [text, number?, takeWhile_append_eq whole_digits point,
        dropWhile_append_eq whole_digits point]
      simp only [takeWhile_append_eq fraction_digits rest_stops,
        dropWhile_append_eq fraction_digits rest_stops]
      simp [plainText]

/-- A number that is found in the characters of a number and what follows them ends among them. -/
theorem exists_of_number? {front back number rest : List Char} {c : Char}
    (numeric : ∀ d ∈ front, isNumberChar d = true) (notNumeric : isNumberChar c = false)
    (found : number? (front ++ c :: back) = some (number, rest)) :
    ∃ left, (∀ d ∈ left, isNumberChar d = true) ∧ rest = left ++ c :: back := by
  have notDigit : ∀ d ∈ (c :: back).head?, d.isDigit = false := by
    intro d member
    obtain rfl := Option.some.inj member
    by_contra digit
    rw [Double.isNumberChar_of_isDigit (Bool.eq_true_of_not_eq_false digit)] at notNumeric
    contradiction
  have notPoint : c ≠ '.' := by
    rintro rfl
    contradiction
  have left_numeric (chars : List Char) (among : ∀ d ∈ chars, isNumberChar d = true) :
      ∀ d ∈ chars.dropWhile Char.isDigit, isNumberChar d = true :=
    fun d member => among d (List.dropWhile_sublist _ |>.subset member)
  rw [number?, dropWhile_append_of_stops notDigit] at found
  have numeric_left := left_numeric front numeric
  cases left : front.dropWhile Char.isDigit with
  | nil =>
      rw [left, List.nil_append] at found
      split at found
      · contradiction
      next _ _ pointed _ => exact absurd (List.cons.inj pointed).1 notPoint
      · obtain ⟨-, rfl⟩ := Prod.mk.inj (Option.some.inj found)
        exact ⟨[], List.forall_mem_nil _, rfl⟩
  | cons d more =>
      rw [left] at found numeric_left
      obtain ⟨-, numeric_more⟩ := List.forall_mem_cons.mp numeric_left
      split at found
      · contradiction
      next _ _ pointed _ =>
        obtain ⟨rfl, rfl⟩ := List.cons.inj pointed
        split at found
        · obtain ⟨-, rfl⟩ := Prod.mk.inj (Option.some.inj found)
          exact ⟨'.' :: more, numeric_left, rfl⟩
        · obtain ⟨-, rfl⟩ := Prod.mk.inj (Option.some.inj found)
          exact ⟨more.dropWhile Char.isDigit, left_numeric more numeric_more,
            dropWhile_append_of_stops notDigit⟩
      · obtain ⟨-, rfl⟩ := Prod.mk.inj (Option.some.inj found)
        exact ⟨d :: more, numeric_left, rfl⟩

/-! ## The flow -/

theorem flow?_cons_of_notDigit {c : Char} (notDigit : c.isDigit = false) (tail : List Char) :
    flow? (c :: tail) = flow? tail := by
  rw [flow?, measure?_of_notDigit _ notDigit]
  rfl

/-- No flow starts in a number that another character than the unit's first letter ends. -/
theorem flow?_append {front back : List Char} {c : Char}
    (numeric : ∀ d ∈ front, isNumberChar d = true) (notNumeric : isNumberChar c = false)
    (notBlank : isBlank c = false) (notUnit : sameLetter 'm' c = false) :
    flow? (front ++ c :: back) = flow? (c :: back) := by
  -- Whatever is left of the number, the unit is not behind it.
  have barred (left : List Char) (left_numeric : ∀ d ∈ left, isNumberChar d = true) :
      afterUnit? "mm3/s".toList (trimLeft (left ++ c :: back)) = none := by
    cases left with
    | nil =>
        rw [List.nil_append, trimLeft, List.dropWhile_cons_of_neg (by simp [notBlank])]
        simp [afterUnit?, notUnit]
    | cons d left =>
        have own := left_numeric d List.mem_cons_self
        have other : sameLetter 'm' d = false :=
          sameLetter_of_isNumberChar own (by decide) (by decide)
        rw [List.cons_append, trimLeft,
          List.dropWhile_cons_of_neg (by simp [Double.isBlank_of_isNumberChar own])]
        simp [afterUnit?, other]
  have noMeasure (left : List Char) (left_numeric : ∀ d ∈ left, isNumberChar d = true) :
      measure? "mm3/s".toList (left ++ c :: back) = none := by
    rw [measure?]
    split
    next number rest found =>
      obtain ⟨after, after_numeric, rfl⟩ := exists_of_number? left_numeric notNumeric found
      rw [barred after after_numeric]
      rfl
    next => rfl
  induction front with
  | nil => rfl
  | cons d front induction =>
      obtain ⟨-, others⟩ := List.forall_mem_cons.mp numeric
      rw [List.cons_append, flow?, ← List.cons_append, noMeasure _ numeric, induction others]
      rfl

variable {whole fraction : List Char}

theorem measure?_plainText (nonempty : whole ≠ [])
    (digits : ∀ c ∈ whole ++ fraction, c.isDigit = true) {letter : Char} {unit back : List Char}
    (notDigit : letter.isDigit = false) (notPoint : letter ≠ '.')
    (notBlank : isBlank letter = false)
    (unit_reads : (afterUnit? (letter :: unit) (letter :: back)).isSome = true) :
    measure? (letter :: unit) (plainText false whole fraction ++ letter :: back) =
      some (plainText false whole fraction) := by
  have stops : ∀ c ∈ (letter :: back).head?, c.isDigit = false ∧ c ≠ '.' := by
    intro c member
    obtain rfl := Option.some.inj member
    exact ⟨notDigit, notPoint⟩
  obtain ⟨rest, rest_eq⟩ := Option.isSome_iff_exists.mp unit_reads
  rw [measure?, number?_plainText nonempty digits stops]
  simp only [trimLeft]
  rw [List.dropWhile_cons_of_neg (by simp [notBlank]), rest_eq]
  rfl

theorem flow?_plainText (nonempty : whole ≠ [])
    (digits : ∀ c ∈ whole ++ fraction, c.isDigit = true) (negative : Bool) (back : List Char) :
    flow? (plainText negative whole fraction ++ ("mm3/s".toList ++ back)) =
      some (plainText false whole fraction) := by
  have found : measure? "mm3/s".toList
      (plainText false whole fraction ++ ("mm3/s".toList ++ back)) =
        some (plainText false whole fraction) :=
    measure?_plainText nonempty digits (by decide) (by decide) (by decide) rfl
  have unsigned : flow? (plainText false whole fraction ++ ("mm3/s".toList ++ back)) =
      some (plainText false whole fraction) := by
    obtain ⟨first, others, rfl⟩ := List.exists_cons_of_ne_nil nonempty
    have text : plainText false (first :: others) fraction ++ ("mm3/s".toList ++ back) =
        first :: (others ++ (if fraction = [] then [] else '.' :: fraction) ++
          ("mm3/s".toList ++ back)) := by simp [plainText]
    rw [text] at found ⊢
    rw [flow?, found]
    rfl
  cases negative with
  | false => exact unsigned
  | true =>
      have signed : plainText true whole fraction = '-' :: plainText false whole fraction := rfl
      rw [signed, List.cons_append, flow?_cons_of_notDigit (by decide), unsigned]

/-! ## The feed rate -/

theorem feed?_append {front : List Char} (noF : ∀ c ∈ front, sameLetter 'f' c = false)
    (back : List Char) : feed? (front ++ back) = feed? back := by
  induction front with
  | nil => rfl
  | cons c front induction =>
      obtain ⟨own, others⟩ := List.forall_mem_cons.mp noF
      rw [List.cons_append, feed?, own, induction others]
      rfl

theorem feed?_plainText (nonempty : whole ≠ [])
    (digits : ∀ c ∈ whole ++ fraction, c.isDigit = true) (back : List Char) :
    feed? ('F' :: plainText false whole fraction ++ ("mm/min".toList ++ back)) =
      some (plainText false whole fraction) := by
  have found : measure? "mm/min".toList
      (plainText false whole fraction ++ ("mm/min".toList ++ back)) =
        some (plainText false whole fraction) :=
    measure?_plainText nonempty digits (by decide) (by decide) (by decide) rfl
  have trimmed : trimLeft (plainText false whole fraction ++ ("mm/min".toList ++ back)) =
      plainText false whole fraction ++ ("mm/min".toList ++ back) := by
    obtain ⟨first, others, rfl⟩ := List.exists_cons_of_ne_nil nonempty
    have digit : first.isDigit = true := digits first List.mem_cons_self
    have notBlank : isBlank first = false :=
      Double.isBlank_of_isNumberChar (Double.isNumberChar_of_isDigit digit)
    simp [plainText, trimLeft, notBlank]
  have letter : sameLetter 'f' 'F' = true := by decide
  rw [List.cons_append, feed?, trimmed, found, letter]
  rfl

end Label

/-! ## Labels are drawn once -/

/-- The message of an event. -/
def Event.message? : Event → Option String
  | .status message => some message
  | _ => none

/-- The messages among events, in order. -/
def messages (events : List Event) : List String :=
  events.filterMap Event.message?

/-- The motions in front of the first event that is none. -/
def leadingMotions : List Event → List Motion
  | .motion motion :: events => motion :: leadingMotions events
  | _ => []

/-- For each message, the motions behind it up to the next event that is none. -/
def movesBehindMessages : List Event → List (List Motion)
  | [] => []
  | .status _ :: events => leadingMotions events :: movesBehindMessages events
  | .motion _ :: events | .positionSet _ :: events => movesBehindMessages events

namespace Drawing

variable (options : ViewOptions)

/-- The texts of the labels of a drawing. -/
def labelTexts (drawing : Drawing) : List String :=
  drawing.labels.map PlacedLabel.text

/-- A label that waits is drawn by the first motion that leaves its place, and it is the only one
that is drawn there. -/
theorem labelTexts_draw_some {events : List Event} (text : String)
    (leaving : ∃ motion ∈ leadingMotions events, motion.leaves = true) :
    (draw options (some text) events).labelTexts =
      text :: (draw options none events).labelTexts := by
  induction events with
  | nil =>
      obtain ⟨motion, member, _⟩ := leaving
      contradiction
  | cons event events induction =>
      cases event with
      | status message =>
          obtain ⟨motion, member, _⟩ := leaving
          contradiction
      | positionSet state =>
          obtain ⟨motion, member, _⟩ := leaving
          contradiction
      | motion motion =>
          rw [draw, draw, Motion.segment?]
          cases leaves : motion.leaves with
          | true => rfl
          | false =>
              apply induction
              obtain ⟨other, member, other_leaves⟩ := leaving
              rcases List.mem_cons.mp member with rfl | member
              · rw [leaves] at other_leaves
                contradiction
              · exact ⟨other, member, other_leaves⟩

/-- Where every message is followed by a motion that leaves its place, the labels are those of the
messages, in order. -/
theorem labelTexts_draw {events : List Event}
    (leaving : ∀ moves ∈ movesBehindMessages events, ∃ motion ∈ moves, motion.leaves = true) :
    (draw options none events).labelTexts = (messages events).filterMap Label.ofMessage? := by
  induction events with
  | nil => rfl
  | cons event events induction =>
      cases event with
      | positionSet state => exact induction leaving
      | motion motion =>
          have rest := induction leaving
          rw [draw, Motion.segment?]
          cases motion.leaves <;> exact rest
      | status message =>
          obtain ⟨own, others⟩ := List.forall_mem_cons.mp leaving
          have rest := induction others
          have messages_eq : messages (.status message :: events) = message :: messages events :=
            rfl
          rw [draw, messages_eq, List.filterMap_cons, ← rest]
          cases Label.ofMessage? message with
          | none => rfl
          | some text => exact labelTexts_draw_some options text own

end Drawing

/-! ## Labels are the texts of pictures -/

theorem elements_render (options : ViewOptions) (program : String) :
    let events := (replay program).1
    let frame := SceneFrame.of options (Extents.ofEvents events)
    Markup.elements (render options program) =
      frame.root :: (frame.scene options events).elements := by
  intro events frame
  rw [render_eq, Markup.elements, Markup.parts_eq (frame.notMem_documentParts options events)
    (frame.toList_document options events), SceneFrame.elements_documentParts]

theorem Scene.IsLayered.filter_texts {scene : Scene} (layered : scene.IsLayered) :
    scene.elements.filter (fun element => element.name = "text") = scene.labels := by
  have none {elements : List Element} {name : String} (different : name ≠ "text")
      (named : ∀ element ∈ elements, element.name = name ∧ element.content = none) :
      elements.filter (fun element => element.name = "text") = [] := by
    apply List.filter_eq_nil_iff.mpr
    intro element member
    simp [(named element member).1, different]
  have all : scene.labels.filter (fun element => element.name = "text") = scene.labels := by
    apply List.filter_eq_self.mpr
    intro element member
    simp [(layered.texts element member).1]
  rw [elements_eq_layers, List.filter_append, List.filter_append, List.filter_append,
    none (by decide) layered.rects, none (by decide) layered.lines,
    none (by decide) layered.circles, all]
  rfl

theorem filter_texts_render (options : ViewOptions) (program : String) :
    let events := (replay program).1
    let frame := SceneFrame.of options (Extents.ofEvents events)
    (Markup.elements (render options program)).filter (fun element => element.name = "text") =
      (placedLabels events).map (frame.labelText options) := by
  intro events frame
  have root_name : frame.root.name ≠ "text" := by
    show "svg" ≠ "text"
    decide
  rw [elements_render, List.filter_cons_of_neg (by simpa using root_name),
    (frame.isLayered_scene options events).filter_texts]
  rfl

/-- The contents of the texts of a picture are the texts of its labels. -/
theorem content_texts_render (options : ViewOptions) (program : String) :
    ((Markup.elements (render options program)).filter fun element => element.name = "text").map
        Element.content =
      (Drawing.ofEvents options (replay program).1).labelTexts.map some := by
  rw [filter_texts_render, Drawing.labelTexts, Drawing.labels_ofEvents, List.map_map, List.map_map]
  rfl

end FlowCalibration
