import FlowCalibration.Text.Blank

/-!
# Words of a text

Splitting a text into words is determined by two equations: a blank in front is dropped, and a run
of other characters that ends at a blank is the first word.
-/

namespace FlowCalibration

theorem isBlank_space : isBlank ' ' = true := rfl

theorem isBlank_lineFeed : isBlank '\n' = true := rfl

theorem isBlank_semicolon : isBlank ';' = false := rfl

@[simp]
theorem words_nil : words [] = [] := rfl

/-- The equation of `words` at a character; a word grows where the next character is solid too. -/
theorem words_cons (c : Char) (tail : List Char) :
    words (c :: tail) =
      if isBlank c then words tail
      else
        match tail, words tail with
        | d :: _, word :: rest => if isBlank d then [c] :: word :: rest else (c :: word) :: rest
        | _, rest => [c] :: rest :=
  words.eq_def (c :: tail)

theorem words_blank_cons {blank : Char} (isBlank_eq : isBlank blank = true) (tail : List Char) :
    words (blank :: tail) = words tail := by
  rw [words_cons, if_pos isBlank_eq]

theorem words_ne_nil {c : Char} (solid : isBlank c = false) (tail : List Char) :
    words (c :: tail) ≠ [] := by
  rw [words_cons, solid, if_neg Bool.false_ne_true]
  split
  · split <;> simp
  · simp

/-- A solid character in front of a blank is a word of its own, else a part of the next word. -/
theorem words_solid_cons {c : Char} (solid : isBlank c = false) (tail : List Char) :
    words (c :: tail) =
      if tail.head?.all isBlank then [c] :: words tail else (words tail).modifyHead (c :: ·) := by
  rw [words_cons, solid, if_neg Bool.false_ne_true]
  cases tail with
  | nil => rfl
  | cons next tail =>
      cases next_solid : isBlank next with
      | true => cases words (next :: tail) <;> simp [next_solid]
      | false =>
          obtain ⟨word, others, words_eq⟩ :=
            List.exists_cons_of_ne_nil (words_ne_nil next_solid tail)
          simp [words_eq, next_solid]

theorem words_append {word rest : List Char} (nonempty : word ≠ [])
    (solid : ∀ c ∈ word, isBlank c = false) (ends : ∀ c ∈ rest.head?, isBlank c = true) :
    words (word ++ rest) = word :: words rest := by
  induction word with
  | nil => exact (nonempty rfl).elim
  | cons c word induction =>
      have notBlank : ¬ isBlank c = true := by simp [solid c List.mem_cons_self]
      rw [List.cons_append, words_cons, if_neg notBlank]
      cases word with
      | nil =>
          rw [List.nil_append]
          cases rest with
          | nil => rfl
          | cons blank rest =>
              have isBlank_eq : isBlank blank = true := ends blank (by simp)
              cases words (blank :: rest) with
              | nil => rfl
              | cons first others => simp only [isBlank_eq, if_true]
      | cons next word =>
          have tail_solid : ∀ c ∈ next :: word, isBlank c = false := fun c member =>
            solid c (List.mem_cons_of_mem _ member)
          have next_notBlank : isBlank next = false := tail_solid next List.mem_cons_self
          rw [induction (by simp) tail_solid, List.cons_append]
          simp only [next_notBlank, Bool.false_eq_true, if_false]

theorem words_of_solid {word : List Char} (nonempty : word ≠ [])
    (solid : ∀ c ∈ word, isBlank c = false) : words word = [word] := by
  have ends : ∀ c ∈ ([] : List Char).head?, isBlank c = true := by simp
  simpa using words_append nonempty solid ends

theorem words_append_blank (text : List Char) {blank : Char} (isBlank_eq : isBlank blank = true) :
    words (text ++ [blank]) = words text := by
  induction text with
  | nil => exact words_blank_cons isBlank_eq []
  | cons c text induction =>
      rw [List.cons_append, words_cons, words_cons c text, induction]
      split
      · rfl
      · cases text with
        | nil => rfl
        | cons next text => cases words (next :: text) <;> rfl

/-- A word followed by solid words with a blank before each. -/
theorem words_join {word : List Char} {others : List (List Char)} (nonempty : word ≠ [])
    (solid : ∀ c ∈ word, isBlank c = false)
    (others_nonempty : ∀ other ∈ others, other ≠ [])
    (others_solid : ∀ other ∈ others, ∀ c ∈ other, isBlank c = false) :
    words (word ++ others.flatMap (' ' :: ·)) = word :: others := by
  induction others generalizing word with
  | nil => simpa using words_of_solid nonempty solid
  | cons other others induction =>
      have ends : ∀ c ∈ ((other :: others).flatMap (' ' :: ·)).head?, isBlank c = true := by
        simp [isBlank_space]
      rw [words_append nonempty solid ends, List.flatMap_cons, List.cons_append,
        words_blank_cons isBlank_space]
      rw [induction (others_nonempty other List.mem_cons_self)
        (others_solid other List.mem_cons_self)
        (fun next member => others_nonempty next (List.mem_cons_of_mem _ member))
        (fun next member => others_solid next (List.mem_cons_of_mem _ member))]

/-! ## Texts with the same words -/

/-- Renaming characters without changing which are blank renames those of the words. -/
theorem words_map {rename : Char → Char} (kept : ∀ c, isBlank (rename c) = isBlank c)
    (text : List Char) : words (text.map rename) = (words text).map (List.map rename) := by
  induction text with
  | nil => rfl
  | cons c text induction =>
      rw [List.map_cons]
      cases solid : isBlank c with
      | true =>
          rw [words_blank_cons ((kept c).trans solid), words_blank_cons solid, induction]
      | false =>
          have head : (text.map rename).head?.all isBlank = text.head?.all isBlank := by
            cases text with
            | nil => rfl
            | cons next text => simp [kept]
          rw [words_solid_cons ((kept c).trans solid), words_solid_cons solid, head, induction]
          split
          · rfl
          · cases words text <;> rfl

/-- A text in which one space stands for every run of blanks. -/
def collapse : List Char → List Char
  | [] => []
  | c :: tail =>
      if isBlank c then
        if tail.head?.any isBlank then collapse tail else ' ' :: collapse tail
      else c :: collapse tail

theorem mem_collapse {c : Char} {text : List Char} (member : c ∈ collapse text) :
    c = ' ' ∨ c ∈ text := by
  induction text with
  | nil => exact .inr member
  | cons first text induction =>
      rw [collapse] at member
      split at member
      · split at member
        · exact (induction member).imp_right (List.mem_cons_of_mem _)
        · rcases List.mem_cons.mp member with space | member
          · exact .inl space
          · exact (induction member).imp_right (List.mem_cons_of_mem _)
      · rcases List.mem_cons.mp member with same | member
        · exact .inr (same ▸ List.mem_cons_self)
        · exact (induction member).imp_right (List.mem_cons_of_mem _)

theorem head?_collapse (text : List Char) :
    (collapse text).head?.all isBlank = text.head?.all isBlank := by
  induction text with
  | nil => rfl
  | cons c text induction =>
      rw [collapse]
      split
      next blank =>
        split
        next next_blank =>
          rw [induction]
          cases text with
          | nil => contradiction
          | cons next text => simpa [blank] using next_blank
        next => simp [isBlank_space, blank]
      next => rfl

theorem words_collapse (text : List Char) : words (collapse text) = words text := by
  induction text with
  | nil => rfl
  | cons c text induction =>
      rw [collapse]
      cases solid : isBlank c with
      | true =>
          rw [words_blank_cons solid, if_pos rfl]
          split
          · exact induction
          · rw [words_blank_cons isBlank_space, induction]
      | false =>
          rw [if_neg Bool.false_ne_true, words_solid_cons solid, words_solid_cons solid,
            head?_collapse, induction]

end FlowCalibration
