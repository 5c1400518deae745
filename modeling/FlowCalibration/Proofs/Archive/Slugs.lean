import FlowCalibration.Proofs.Archive.FileNames
import FlowCalibration.Proofs.Decimal.Scanning

/-!
# The part of a model in file names

What a file name keeps of a model is the text from its first to its last safe character other than a
dash, with one dash in place of each run of unsafe characters.  So the slug of a model is safe, has
no dash at its ends and is its own slug.
-/

namespace FlowCalibration

namespace FileName

/-- Whether a character is safe and no dash. -/
def isSolid (c : Char) : Bool :=
  isSafe c && c != '-'

/-- A text with a dash in place of each maximal run of unsafe characters, and with every safe
character in its place. -/
inductive Dashes : List Char → List Char → Prop
  | nil : Dashes [] []
  | keep {c : Char} {text kept : List Char} (safe : isSafe c = true)
      (rest : Dashes text kept) : Dashes (c :: text) (c :: kept)
  | dash {run text kept : List Char} (nonempty : run ≠ [])
      (foreign : ∀ c ∈ run, isSafe c = false) (ends : ∀ c ∈ text.head?, isSafe c = true)
      (rest : Dashes text kept) : Dashes (run ++ text) ('-' :: kept)

/-- A text of safe characters, of which the first and the last are no dashes. -/
structure IsSlug (text : List Char) : Prop where
  nonempty : text ≠ []
  safe : ∀ c ∈ text, c.isAlphanum = true ∨ c = '_' ∨ c = '-'
  head : text.head? ≠ some '-'
  last : text.getLast? ≠ some '-'

/-- The part of a text from its first to its last solid character. -/
structure SolidPart (text part : List Char) : Prop where
  within : ∃ front back, text = front ++ (part ++ back) ∧ ∀ c ∈ front ++ back, isSolid c = false
  nonempty : part ≠ []
  head : ∀ c ∈ part.head?, isSolid c = true
  last : ∀ c ∈ part.getLast?, isSolid c = true

/-! ## Runs -/

theorem dashed_cons {c : Char} (safe : isSafe c = true) (inRun : Bool) (rest : List Char) :
    dashed inRun (c :: rest) = c :: dashed false rest := by
  rw [dashed, if_pos safe]

theorem dashes_dashed (text : List Char) :
    Dashes text (dashed false text) ∧
      ∀ run, run ≠ [] → (∀ c ∈ run, isSafe c = false) →
        Dashes (run ++ text) ('-' :: dashed true text) := by
  induction text with
  | nil =>
      refine ⟨.nil, fun run nonempty foreign => ?_⟩
      exact .dash nonempty foreign (by simp) .nil
  | cons c text induction =>
      obtain ⟨plain, behind_run⟩ := induction
      cases safe : isSafe c with
      | true =>
          have kept : Dashes (c :: text) (c :: dashed false text) := .keep safe plain
          refine ⟨by rwa [dashed_cons safe], fun run nonempty foreign => ?_⟩
          rw [dashed_cons safe]
          exact .dash nonempty foreign (by simpa using safe) kept
      | false =>
          refine ⟨?_, fun run nonempty foreign => ?_⟩
          · simpa [dashed, safe] using behind_run [c] (by simp) (by simpa using safe)
          · have longer := behind_run (run ++ [c]) (by simp) (List.forall_mem_append.mpr
              ⟨foreign, List.forall_mem_singleton.mpr safe⟩)
            simpa [dashed, safe] using longer

/-- A run ends in front of a safe character. -/
theorem dashed_append {rest : List Char} (starts : ∀ c ∈ rest.head?, isSafe c = true)
    (inRun : Bool) (front : List Char) :
    dashed inRun (front ++ rest) = dashed inRun front ++ dashed false rest := by
  induction front generalizing inRun with
  | nil =>
      cases rest with
      | nil => rfl
      | cons c rest =>
          have safe : isSafe c = true := starts c rfl
          rw [List.nil_append, dashed_cons safe, dashed_cons safe, dashed, List.nil_append]
  | cons c front induction =>
      rw [List.cons_append, dashed, dashed]
      split
      · rw [induction, List.cons_append]
      · split
        · exact induction true
        · rw [induction, List.cons_append]

theorem dashed_concat {c : Char} (safe : isSafe c = true) (front : List Char) :
    dashed false (front ++ [c]) = dashed false front ++ [c] := by
  rw [dashed_append (by simpa using safe), dashed_cons safe, dashed]

/-- No run goes on behind a safe character. -/
theorem dashed_concat_append {c : Char} (safe : isSafe c = true) (front rest : List Char) :
    dashed false (front ++ [c] ++ rest) = dashed false (front ++ [c]) ++ dashed false rest := by
  rw [List.append_assoc, List.singleton_append, dashed_append (by simpa using safe),
    dashed_cons safe, dashed_concat safe, List.append_assoc, List.singleton_append]

theorem dashed_true_of_foreign {run : List Char} (foreign : ∀ c ∈ run, isSafe c = false) :
    dashed true run = [] := by
  induction run with
  | nil => rfl
  | cons c run induction =>
      obtain ⟨own, others⟩ := List.forall_mem_cons.mp foreign
      rw [dashed, if_neg (by simp [own]), if_pos rfl, induction others]

/-- The runs and the safe characters of a text leave no choice. -/
theorem dashes_iff {text kept : List Char} : Dashes text kept ↔ kept = dashed false text := by
  constructor
  · intro dashes
    induction dashes with
    | nil => rfl
    | keep safe _ induction => rw [dashed_cons safe, induction]
    | dash nonempty foreign ends _ induction =>
        obtain ⟨c, others, rfl⟩ := List.exists_cons_of_ne_nil nonempty
        obtain ⟨own, others_foreign⟩ := List.forall_mem_cons.mp foreign
        rw [dashed_append ends, dashed, if_neg (by simp [own]), if_neg Bool.false_ne_true,
          dashed_true_of_foreign others_foreign, induction, List.singleton_append]
  · rintro rfl
    exact (dashes_dashed text).1

theorem eq_dash_of_mem_dashed {text : List Char} (loose : ∀ c ∈ text, isSolid c = false)
    (inRun : Bool) : ∀ c ∈ dashed inRun text, c = '-' := by
  induction text generalizing inRun with
  | nil => exact List.forall_mem_nil _
  | cons d text induction =>
      obtain ⟨own, others⟩ := List.forall_mem_cons.mp loose
      rw [dashed]
      split
      next safe =>
        have dash : d = '-' := by simpa [isSolid, safe] using own
        exact List.forall_mem_cons.mpr ⟨dash, induction others false⟩
      next =>
        split
        · exact induction others true
        · exact List.forall_mem_cons.mpr ⟨rfl, induction others true⟩

theorem dashed_of_safe {text : List Char} (safe : ∀ c ∈ text, isSafe c = true) :
    dashed false text = text := by
  induction text with
  | nil => rfl
  | cons c text induction =>
      obtain ⟨own, others⟩ := List.forall_mem_cons.mp safe
      rw [dashed_cons own, induction others]

/-! ## Trimming -/

/-- Only the dashes at the ends are taken off. -/
theorem trimDashes_append {front kept back : List Char} (front_dashes : ∀ c ∈ front, c = '-')
    (back_dashes : ∀ c ∈ back, c = '-') (nonempty : kept ≠ []) (head : kept.head? ≠ some '-')
    (last : kept.getLast? ≠ some '-') : trimDashes (front ++ (kept ++ back)) = kept := by
  have dash {text : List Char} (dashes : ∀ c ∈ text, c = '-') : ∀ c ∈ text, (c == '-') = true :=
    fun c member => beq_iff_eq.mpr (dashes c member)
  have first : ∀ c ∈ (kept ++ back).head?, (c == '-') = false := by
    rw [List.head?_append_of_ne_nil _ nonempty]
    exact fun c some_c => beq_eq_false_iff_ne.mpr fun same => head (same ▸ some_c)
  have final : ∀ c ∈ kept.reverse.head?, (c == '-') = false := by
    rw [List.head?_reverse]
    exact fun c some_c => beq_eq_false_iff_ne.mpr fun same => last (same ▸ some_c)
  have reversed : ∀ c ∈ back.reverse, (c == '-') = true := fun c member =>
    dash back_dashes c (List.mem_reverse.mp member)
  rw [trimDashes, dropWhile_append_eq (dash front_dashes) first, List.reverse_append,
    dropWhile_append_eq reversed final, List.reverse_reverse]

theorem trimDashes_eq_nil {text : List Char} (dashes : ∀ c ∈ text, c = '-') :
    trimDashes text = [] := by
  have nothing : text.dropWhile (· == '-') = [] :=
    List.dropWhile_eq_nil_iff.mpr fun c member => beq_iff_eq.mpr (dashes c member)
  rw [trimDashes, nothing]
  rfl

/-! ## The solid part -/

theorem exists_solidPart {text : List Char} {c : Char} (member : c ∈ text)
    (solid : isSolid c = true) : ∃ part, SolidPart text part := by
  obtain ⟨front, rest, rfl, front_loose, rest_head⟩ := exists_run (!isSolid ·) text
  obtain ⟨back, part, rest_eq, back_loose, part_head⟩ := exists_run (!isSolid ·) rest.reverse
  have rest_split : rest = part.reverse ++ back.reverse := by
    rw [← List.reverse_append, ← rest_eq, List.reverse_reverse]
  have loose : ∀ d ∈ front ++ back.reverse, isSolid d = false := by
    simpa [or_imp, forall_and] using And.intro front_loose back_loose
  have nonempty : part.reverse ≠ [] := by
    intro nothing
    rw [rest_split, nothing, List.nil_append] at member
    rw [loose c member] at solid
    contradiction
  refine ⟨part.reverse, ⟨front, back.reverse, by rw [rest_split], loose⟩, nonempty, ?_, ?_⟩
  · intro d head
    rw [rest_split, List.head?_append_of_ne_nil _ nonempty] at rest_head
    simpa using rest_head d head
  · intro d last
    rw [List.getLast?_reverse] at last
    simpa using part_head d last

theorem isSafe_of_isSolid {c : Char} (solid : isSolid c = true) : isSafe c = true :=
  (Bool.and_eq_true_iff.mp solid).1

theorem ne_dash_of_isSolid {c : Char} (solid : isSolid c = true) : c ≠ '-' :=
  bne_iff_ne.mp (Bool.and_eq_true_iff.mp solid).2

namespace SolidPart

variable {text part : List Char}

theorem exists_cons (solid : SolidPart text part) :
    ∃ c rest, part = c :: rest ∧ isSafe c = true := by
  obtain ⟨c, rest, rfl⟩ := List.exists_cons_of_ne_nil solid.nonempty
  exact ⟨c, rest, rfl, isSafe_of_isSolid (solid.head c rfl)⟩

theorem exists_concat (solid : SolidPart text part) :
    ∃ front c, part = front ++ [c] ∧ isSafe c = true := by
  obtain ⟨front, c, rfl⟩ := (List.eq_nil_or_concat' part).resolve_left solid.nonempty
  exact ⟨front, c, rfl, isSafe_of_isSolid (solid.last c List.getLast?_concat)⟩

theorem dashed_ne_nil (solid : SolidPart text part) : dashed false part ≠ [] := by
  obtain ⟨c, rest, rfl, safe⟩ := solid.exists_cons
  rw [dashed_cons safe]
  exact List.cons_ne_nil _ _

theorem head?_ne_dash (solid : SolidPart text part) : (dashed false part).head? ≠ some '-' := by
  obtain ⟨c, rest, rfl, safe⟩ := solid.exists_cons
  rw [dashed_cons safe]
  exact fun dash => ne_dash_of_isSolid (solid.head '-' dash) rfl

theorem getLast?_ne_dash (solid : SolidPart text part) :
    (dashed false part).getLast? ≠ some '-' := by
  obtain ⟨front, c, rfl, safe⟩ := solid.exists_concat
  rw [dashed_concat safe, List.getLast?_concat, ← @List.getLast?_concat _ front c]
  exact fun dash => ne_dash_of_isSolid (solid.last '-' dash) rfl

/-- What is around the solid part is trimmed away. -/
theorem trimDashes_dashed (solid : SolidPart text part) :
    trimDashes (dashed false text) = dashed false part := by
  obtain ⟨front, back, rfl, loose⟩ := solid.within
  obtain ⟨front_loose, back_loose⟩ := List.forall_mem_append.mp loose
  have starts : ∀ c ∈ (part ++ back).head?, isSafe c = true := by
    rw [List.head?_append_of_ne_nil _ solid.nonempty]
    exact fun c head => isSafe_of_isSolid (solid.head c head)
  have behind : dashed false (part ++ back) = dashed false part ++ dashed false back := by
    obtain ⟨others, c, rfl, safe⟩ := solid.exists_concat
    exact dashed_concat_append safe others back
  rw [dashed_append starts, behind]
  exact trimDashes_append (eq_dash_of_mem_dashed front_loose false)
    (eq_dash_of_mem_dashed back_loose false) solid.dashed_ne_nil solid.head?_ne_dash
    solid.getLast?_ne_dash

end SolidPart

/-! ## The slug of a model -/

theorem slug_of_solidPart {model : String} {part : List Char}
    (solid : SolidPart model.toList part) : slug model = String.ofList (dashed false part) := by
  rw [slug, solid.trimDashes_dashed]
  split
  next nothing => exact absurd nothing solid.dashed_ne_nil
  next => rfl

theorem slug_of_loose {model : String} (loose : ∀ c ∈ model.toList, isSolid c = false) :
    slug model = "printer" := by
  rw [slug, trimDashes_eq_nil (eq_dash_of_mem_dashed loose false)]

theorem loose_or_exists_solidPart (text : List Char) :
    (∀ c ∈ text, isSolid c = false) ∨ ∃ part, SolidPart text part := by
  by_cases loose : ∀ c ∈ text, isSolid c = false
  · exact .inl loose
  · push Not at loose
    obtain ⟨c, member, solid⟩ := loose
    exact .inr (exists_solidPart member (by simpa using solid))

theorem isSlug_slug (model : String) : IsSlug (slug model).toList := by
  have safe : ∀ c ∈ (slug model).toList, c.isAlphanum = true ∨ c = '_' ∨ c = '-' :=
    fun c member => isSafe_iff.mp (isSafe_slug model c member)
  obtain loose | ⟨part, solid⟩ := loose_or_exists_solidPart model.toList
  · rw [slug_of_loose loose] at safe ⊢
    exact ⟨by simp, safe, by simp, by simp⟩
  · rw [slug_of_solidPart solid, String.toList_ofList] at safe ⊢
    exact ⟨solid.dashed_ne_nil, safe, solid.head?_ne_dash, solid.getLast?_ne_dash⟩

theorem slug_of_isSlug {text : String} (isSlug : IsSlug text.toList) : slug text = text := by
  have safe : ∀ c ∈ text.toList, isSafe c = true := fun c member =>
    isSafe_iff.mpr (isSlug.safe c member)
  have solid {c : Char} (member : c ∈ text.toList) (plain : c ≠ '-') : isSolid c = true := by
    rw [isSolid, safe c member, Bool.true_and, bne_iff_ne]
    exact plain
  have whole : SolidPart text.toList text.toList := by
    refine ⟨⟨[], [], by simp, by simp⟩, isSlug.nonempty, fun c head => ?_, fun c last => ?_⟩
    · exact solid (List.mem_of_mem_head? head) fun dash => isSlug.head (dash ▸ head)
    · exact solid (List.mem_of_mem_getLast? last) fun dash => isSlug.last (dash ▸ last)
  rw [slug_of_solidPart whole, dashed_of_safe safe, String.ofList_toList]

/-- The slug of a model is a slug, and its own; it is the solid part of the model with a dash for
each run of unsafe characters, or `printer` where the model has no solid character. -/
theorem slug_keeps (model : String) :
    IsSlug (slug model).toList ∧ slug (slug model) = slug model ∧
      ((∀ c ∈ model.toList, isSolid c = false) ∧ slug model = "printer" ∨
        ∃ part, SolidPart model.toList part ∧ Dashes part (slug model).toList) := by
  refine ⟨isSlug_slug model, slug_of_isSlug (isSlug_slug model), ?_⟩
  obtain loose | ⟨part, solid⟩ := loose_or_exists_solidPart model.toList
  · exact .inl ⟨loose, slug_of_loose loose⟩
  · refine .inr ⟨part, solid, ?_⟩
    rw [slug_of_solidPart solid, String.toList_ofList, dashes_iff]

example : slug "--Ender  3 (V2)--" = "Ender-3-V2" := by decide

end FileName

end FlowCalibration
