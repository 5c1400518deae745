import FlowCalibration.Proofs.Text.Trimming
import FlowCalibration.Proofs.Text.Words
import Mathlib.Data.List.Induction

/-!
# Spaces between words

The words of a text do not show which blanks stood between them or at its ends.  Joined with one
space they are the text tidied up: one space stands for every run of blanks and none at the ends.
So texts that are tidied up are equal just when they have the same words.
-/

namespace FlowCalibration

/-! ## Words of a part -/

/-- No word reaches over a blank. -/
theorem words_append_of_blank (front : List Char) {back : List Char}
    (ends : ∀ c ∈ back.head?, isBlank c = true) :
    words (front ++ back) = words front ++ words back := by
  induction front with
  | nil => rfl
  | cons c front induction =>
      cases solid : isBlank c with
      | true => rw [List.cons_append, words_blank_cons solid, words_blank_cons solid, induction]
      | false =>
          rw [List.cons_append, words_solid_cons solid, words_solid_cons solid, induction]
          cases front with
          | nil =>
              have stops : back.head?.all isBlank = true := by cases back <;> simp_all
              simp [stops]
          | cons next front =>
              cases next_solid : isBlank next with
              | true => simp [next_solid]
              | false =>
                  obtain ⟨word, others, words_eq⟩ :=
                    List.exists_cons_of_ne_nil (words_ne_nil next_solid front)
                  simp [next_solid, words_eq]

theorem words_append_of_solid {front back : List Char} (solid : ∀ c ∈ front, isBlank c = false)
    {c : Char} (next : back.head? = some c) (next_solid : isBlank c = false) :
    words (front ++ back) = (words back).modifyHead (front ++ ·) := by
  induction front with
  | nil => exact (congrFun List.modifyHead_id (words back)).symm
  | cons d front induction =>
      have tail_solid : ∀ c ∈ front, isBlank c = false := fun c member =>
        solid c (List.mem_cons_of_mem _ member)
      have goes_on : ¬ (front ++ back).head?.all isBlank = true := by
        cases front with
        | nil => simp [next, next_solid]
        | cons next front => simp [tail_solid next List.mem_cons_self]
      rw [List.cons_append, words_solid_cons (solid d List.mem_cons_self), if_neg goes_on,
        induction tail_solid, List.modifyHead_modifyHead]
      rfl

theorem words_eq_nil_iff {text : List Char} :
    words text = [] ↔ ∀ c ∈ text, isBlank c = true := by
  induction text with
  | nil => simp
  | cons c text induction =>
      cases solid : isBlank c with
      | true => simp [words_blank_cons solid, induction, solid]
      | false => simp [words_ne_nil solid, solid]

theorem words_append_left {front : List Char} (blank : ∀ c ∈ front, isBlank c = true)
    (text : List Char) : words (front ++ text) = words text := by
  induction front with
  | nil => rfl
  | cons c front induction =>
      rw [List.cons_append, words_blank_cons (blank c List.mem_cons_self),
        induction fun d member => blank d (List.mem_cons_of_mem _ member)]

theorem words_trimLeft (text : List Char) : words (trimLeft text) = words text := by
  have blank : ∀ c ∈ text.takeWhile isBlank, isBlank c = true := fun _ => List.mem_takeWhile_imp
  rw [trimLeft, ← words_append_left blank, List.takeWhile_append_dropWhile]

theorem words_trim (text : List Char) : words (trim text) = words text := by
  rw [← words_trimLeft text, trim]
  induction trimLeft text using List.reverseRecOn with
  | nil => rfl
  | append_singleton text c induction =>
      cases blank : isBlank c with
      | false => simp [trimRight, blank]
      | true =>
          have cut : trimRight (text ++ [c]) = trimRight text := by simp [trimRight, blank]
          rw [cut, induction, words_append_blank text blank]

/-- The first word of a text, if it has a word. -/
def firstWord (text : List Char) : List Char :=
  (trimLeft text).takeWhile (!isBlank ·)

/-- The text behind its first word. -/
def behindFirstWord (text : List Char) : List Char :=
  (trimLeft text).dropWhile (!isBlank ·)

theorem append_firstWord_append (text : List Char) :
    text.takeWhile isBlank ++ (firstWord text ++ behindFirstWord text) = text := by
  rw [firstWord, behindFirstWord, List.takeWhile_append_dropWhile, trimLeft,
    List.takeWhile_append_dropWhile]

theorem solid_firstWord (text : List Char) : ∀ c ∈ firstWord text, isBlank c = false := by
  intro c member
  simpa using List.mem_takeWhile_imp member

theorem isBlank_head?_behindFirstWord (text : List Char) :
    ∀ c ∈ (behindFirstWord text).head?, isBlank c = true := by
  intro c head
  have stops := List.head?_dropWhile_not (!isBlank ·) (trimLeft text)
  rw [← behindFirstWord, head] at stops
  simpa using stops

theorem words_eq_cons {text : List Char} (some_word : words text ≠ []) :
    firstWord text ≠ [] ∧ words text = firstWord text :: words (behindFirstWord text) := by
  have nonempty : firstWord text ≠ [] := by
    have notBlank := isBlank_head?_trimLeft text
    rw [← words_trimLeft] at some_word
    rw [firstWord]
    cases tail_eq : trimLeft text with
    | nil => exact absurd (tail_eq ▸ words_nil) some_word
    | cons c tail =>
        rw [tail_eq] at notBlank
        simp [notBlank c rfl]
  refine ⟨nonempty, ?_⟩
  rw [← words_append nonempty (solid_firstWord text) (isBlank_head?_behindFirstWord text),
    firstWord, behindFirstWord, List.takeWhile_append_dropWhile, words_trimLeft]

theorem words_behindFirstWord (text : List Char) :
    words (behindFirstWord text) = (words text).drop 1 := by
  by_cases some_word : words text = []
  · have blank := words_eq_nil_iff.mp some_word
    have nothing : trimLeft text = [] := List.dropWhile_eq_nil_iff.mpr blank
    rw [some_word, behindFirstWord, nothing]
    rfl
  · rw [(words_eq_cons some_word).2, List.drop_one, List.tail_cons]

/-! ## Tidy texts -/

/-- A text with one space for every run of blanks and none at its ends. -/
def tidied (text : List Char) : List Char :=
  trim (collapse text)

theorem words_tidied (text : List Char) : words (tidied text) = words text := by
  rw [tidied, words_trim, words_collapse]

theorem collapse_blank_cons {blank : Char} (isBlank_eq : isBlank blank = true)
    (tail : List Char) : collapse (blank :: tail) = ' ' :: collapse (trimLeft tail) := by
  induction tail generalizing blank with
  | nil => simp [collapse, isBlank_eq, trimLeft]
  | cons c tail induction =>
      cases solid : isBlank c with
      | true =>
          rw [collapse, if_pos isBlank_eq, List.head?_cons, Option.any_some, if_pos solid,
            induction solid, trimLeft, trimLeft, List.dropWhile_cons_of_pos solid]
      | false => simp [collapse, isBlank_eq, solid, trimLeft]

theorem trimRight_solid_cons {c : Char} (solid : isBlank c = false) (tail : List Char) :
    trimRight (c :: tail) = c :: trimRight tail := by
  rw [trimRight, List.reverse_cons, List.dropWhile_append]
  split
  next nothing => simp [trimRight, List.isEmpty_iff.mp nothing, solid]
  next => simp [trimRight]

theorem trimRight_blank_cons {blank : Char} (isBlank_eq : isBlank blank = true)
    (tail : List Char) :
    trimRight (blank :: tail) = if trimRight tail = [] then [] else blank :: trimRight tail := by
  rw [trimRight, List.reverse_cons, List.dropWhile_append]
  split
  next nothing => simp [trimRight, List.isEmpty_iff.mp nothing, isBlank_eq]
  next something =>
    have nonempty : trimRight tail ≠ [] := by
      rwa [trimRight, Ne, List.reverse_eq_nil_iff, ← List.isEmpty_iff]
    rw [if_neg nonempty, List.reverse_append]
    rfl

theorem tidied_blank_cons {blank : Char} (isBlank_eq : isBlank blank = true)
    (tail : List Char) : tidied (blank :: tail) = tidied tail := by
  have space : ∀ c ∈ [' '], isBlank c = true := List.forall_mem_singleton.mpr isBlank_space
  rw [tidied, collapse, if_pos isBlank_eq]
  split
  · rfl
  · exact trim_append_left space (collapse tail)

theorem tidied_trimLeft (text : List Char) : tidied (trimLeft text) = tidied text := by
  induction text with
  | nil => rfl
  | cons c text induction =>
      cases blank : isBlank c with
      | false => rw [trimLeft, dropWhile_isBlank_of_head (by simp [blank])]
      | true =>
          rw [tidied_blank_cons blank, ← induction, trimLeft, List.dropWhile_cons_of_pos blank,
            trimLeft]

theorem tidied_solid_cons {c : Char} (solid : isBlank c = false) (tail : List Char) :
    tidied (c :: tail) = c :: trimRight (collapse tail) := by
  rw [tidied, trim, trimLeft, collapse, solid, if_neg Bool.false_ne_true,
    List.dropWhile_cons_of_neg (by simp [solid]), trimRight_solid_cons solid]

theorem trimRight_collapse {text : List Char} (first : ∀ c ∈ text.head?, isBlank c = false) :
    trimRight (collapse text) = tidied text := by
  cases text with
  | nil => rfl
  | cons c tail =>
      have solid : isBlank c = false := first c rfl
      rw [tidied_solid_cons solid, collapse, solid, if_neg Bool.false_ne_true,
        trimRight_solid_cons solid]

/-- Behind a solid character the blanks before the next word become one space. -/
theorem trimRight_collapse_blank_cons {blank : Char} (isBlank_eq : isBlank blank = true)
    (tail : List Char) :
    trimRight (collapse (blank :: tail)) =
      if tidied tail = [] then [] else ' ' :: tidied tail := by
  rw [collapse_blank_cons isBlank_eq, trimRight_blank_cons isBlank_space,
    trimRight_collapse (isBlank_head?_trimLeft tail), tidied_trimLeft]

/-- The words of a text with one space between them are the text tidied up. -/
theorem intercalate_words (text : List Char) : [' '].intercalate (words text) = tidied text := by
  induction text with
  | nil => rfl
  | cons c tail induction =>
      cases solid : isBlank c with
      | true => rw [words_blank_cons solid, induction, tidied_blank_cons solid]
      | false =>
          rw [tidied_solid_cons solid, words_solid_cons solid]
          cases tail with
          | nil => rfl
          | cons next tail =>
              cases next_solid : isBlank next with
              | true =>
                  rw [List.head?_cons, Option.all_some, if_pos next_solid,
                    trimRight_collapse_blank_cons next_solid, ← tidied_blank_cons next_solid,
                    ← induction]
                  cases words_eq : words (next :: tail) with
                  | nil => rfl
                  | cons word others =>
                      have nonempty : [' '].intercalate (word :: others) ≠ [] := by
                        rw [← words_eq, induction]
                        intro nothing
                        have no_word := words_tidied (next :: tail)
                        rw [nothing, words_eq] at no_word
                        contradiction
                      rw [if_neg nonempty, List.intercalate_cons_cons]
                      rfl
              | false =>
                  obtain ⟨word, others, words_eq⟩ :=
                    List.exists_cons_of_ne_nil (words_ne_nil next_solid tail)
                  have grown : [' '].intercalate ((c :: word) :: others) =
                      c :: [' '].intercalate (word :: others) := by
                    cases others <;> simp [List.intercalate_cons_cons]
                  have first : ∀ d ∈ (next :: tail).head?, isBlank d = false := by
                    simp [next_solid]
                  rw [List.head?_cons, Option.all_some, next_solid, if_neg Bool.false_ne_true,
                    words_eq, List.modifyHead_cons, grown, ← words_eq, induction,
                    trimRight_collapse first]

/-- Texts that are tidied up are equal just when their words are. -/
theorem tidied_eq_iff {text other : List Char} :
    tidied text = tidied other ↔ words text = words other := by
  constructor
  · intro same
    rw [← words_tidied text, same, words_tidied]
  · intro same
    rw [← intercalate_words, same, intercalate_words]

end FlowCalibration
