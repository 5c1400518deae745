import FlowCalibration.Text.Blank
import Mathlib.Data.List.TakeWhile

/-!
# Trimmed texts

A trimmed text has no blank at either end, and trimming takes nothing else away: it leaves a text
without such blanks alone and does not see blanks that are put in front of a text or behind it.
-/

namespace FlowCalibration

theorem isBlank_head?_trimLeft (text : List Char) :
    ∀ c ∈ (trimLeft text).head?, isBlank c = false := by
  intro c head
  have notBlank := List.head?_dropWhile_not isBlank text
  rw [← trimLeft, head] at notBlank
  simpa using notBlank

theorem trimRight_isPrefix (text : List Char) : trimRight text <+: text := by
  rw [trimRight, ← List.reverse_suffix, List.reverse_reverse]
  exact List.dropWhile_suffix isBlank

theorem isBlank_ends_trim (text : List Char) :
    (∀ c ∈ (trim text).head?, isBlank c = false) ∧
      ∀ c ∈ (trim text).getLast?, isBlank c = false := by
  constructor
  · intro c head
    apply isBlank_head?_trimLeft text c
    obtain ⟨rest, front⟩ := trimRight_isPrefix (trimLeft text)
    rw [← front, ← trim, List.head?_append, head]
    rfl
  · intro c last
    apply isBlank_head?_trimLeft (trimLeft text).reverse c
    rwa [trim, trimRight, List.getLast?_reverse] at last

theorem dropWhile_isBlank_of_head {text : List Char}
    (first : ∀ c ∈ text.head?, isBlank c = false) : text.dropWhile isBlank = text := by
  cases text with
  | nil => rfl
  | cons c tail => rw [List.dropWhile_cons_of_neg (by simp [first c rfl])]

theorem trim_eq_self {text : List Char} (first : ∀ c ∈ text.head?, isBlank c = false)
    (last : ∀ c ∈ text.getLast?, isBlank c = false) : trim text = text := by
  have reversed : text.reverse.dropWhile isBlank = text.reverse := by
    apply dropWhile_isBlank_of_head
    rwa [List.head?_reverse]
  rw [trim, trimLeft, dropWhile_isBlank_of_head first, trimRight, reversed, List.reverse_reverse]

theorem trim_append_left {front : List Char} (blank : ∀ c ∈ front, isBlank c = true)
    (text : List Char) : trim (front ++ text) = trim text := by
  rw [trim, trimLeft, List.dropWhile_append_of_pos blank]
  rfl

theorem trim_append_right (text : List Char) {back : List Char}
    (blank : ∀ c ∈ back, isBlank c = true) : trim (text ++ back) = trim text := by
  have reversed : ∀ c ∈ back.reverse, isBlank c = true := fun c member =>
    blank c (List.mem_reverse.mp member)
  have all_blank : back.dropWhile isBlank = [] := List.dropWhile_eq_nil_iff.mpr blank
  rw [trim, trimLeft, List.dropWhile_append]
  split
  next nothing =>
    rw [all_blank, trim, trimLeft, List.isEmpty_iff.mp nothing]
  next =>
    rw [trimRight, List.reverse_append, List.dropWhile_append_of_pos reversed]
    rfl

theorem trim_eq_nil_iff {text : List Char} : trim text = [] ↔ ∀ c ∈ text, isBlank c = true := by
  constructor
  · intro nothing
    have rest_blank : ∀ c ∈ trimLeft text, isBlank c = true := by
      simpa [trim, trimRight, List.dropWhile_eq_nil_iff] using nothing
    rw [← List.takeWhile_append_dropWhile (p := isBlank) (l := text), List.forall_mem_append]
    exact ⟨fun c member => List.mem_takeWhile_imp member, rest_blank⟩
  · intro blank
    have trimmed := trim_append_right [] blank
    rwa [List.nil_append] at trimmed

end FlowCalibration
