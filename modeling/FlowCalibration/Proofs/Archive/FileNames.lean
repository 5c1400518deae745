import FlowCalibration.Archive.FileName
import FlowCalibration.Proofs.Files.Paths
import FlowCalibration.Proofs.Text.Utf8
import Mathlib.Data.List.Nodup

/-!
# Names that fit any file system

Every file of a run has a name of letters, digits, underscores, dashes and points, which no path
takes apart.  The files of one run have different names.
-/

namespace FlowCalibration

namespace FileName

/-- Names of a single part, of letters, digits and three other characters. -/
structure IsPortable (name : String) : Prop where
  nonempty : name ≠ ""
  moves : name ≠ "." ∧ name ≠ ".."
  chars : ∀ c ∈ name.toList, c.isAlphanum ∨ c = '_' ∨ c = '-' ∨ c = '.'

theorem IsPortable.isName {name : String} (portable : IsPortable name) : Path.IsName name where
  moves := by simp [Path.stays, portable.nonempty, portable.moves.1]
  down := portable.moves.2
  whole slash := by
    have := portable.chars '/' slash
    revert this
    decide

/-! ## Characters -/

theorem isSafe_iff {c : Char} : isSafe c = true ↔ c.isAlphanum = true ∨ c = '_' ∨ c = '-' := by
  rw [isSafe, Bool.or_eq_true, Bool.or_eq_true, beq_iff_eq, beq_iff_eq, or_assoc]

theorem isSafe_dashed {inRun : Bool} {text : List Char} :
    ∀ c ∈ dashed inRun text, isSafe c := by
  induction text generalizing inRun with
  | nil => exact List.forall_mem_nil _
  | cons c text induction =>
      rw [dashed]
      split
      next safe => exact List.forall_mem_cons.mpr ⟨safe, induction⟩
      next =>
        split
        · exact induction
        · exact List.forall_mem_cons.mpr ⟨rfl, induction⟩

theorem mem_of_mem_trimDashes {c : Char} {text : List Char} (member : c ∈ trimDashes text) :
    c ∈ text := by
  rw [trimDashes, List.mem_reverse] at member
  have kept := (List.dropWhile_sublist _).mem member
  exact (List.dropWhile_sublist _).mem (List.mem_reverse.mp kept)

theorem isSafe_slug (model : String) : ∀ c ∈ (slug model).toList, isSafe c := by
  rw [slug]
  split
  next => simp [isSafe]
  next kept =>
    intro c member
    rw [String.toList_ofList] at member
    exact isSafe_dashed c (mem_of_mem_trimDashes member)

theorem isSafe_run (model : String) : ∀ c ∈ (run model).toList, isSafe c := by
  rw [run, String.toList_append]
  exact List.forall_mem_append.mpr ⟨by simp [isSafe], isSafe_slug model⟩

theorem isSafe_stem (model : String) (index plateCount : Nat) :
    ∀ c ∈ (stem model index plateCount).toList, isSafe c := by
  rw [stem]
  split
  · exact isSafe_run model
  · rw [String.toList_append, String.toList_append]
    refine List.forall_mem_append.mpr
      ⟨List.forall_mem_append.mpr ⟨isSafe_run model, by simp [isSafe]⟩, fun c member => ?_⟩
    have digit : c.isDigit := by
      rw [Nat.toString_eq_ofList_toDigits, String.toList_ofList] at member
      exact Nat.isDigit_of_mem_toDigits (by decide) (by decide) member
    simp [isSafe, Char.isAlphanum, digit]

theorem stem_ne_empty (model : String) (index plateCount : Nat) :
    stem model index plateCount ≠ "" := by
  have run_ne : run model ≠ "" := by
    rw [run, ne_eq, String.append_eq_empty_iff, not_and_or]
    exact .inl (by decide)
  rw [stem]
  split
  · exact run_ne
  · simp [run_ne]

theorem isPortable_append {base extension : String} (named : base ≠ "")
    (safe : ∀ c ∈ base.toList, isSafe c)
    (plain : ∀ c ∈ extension.toList, c.isAlphanum ∨ c = '.') :
    IsPortable (base ++ extension) := by
  obtain ⟨first, rest, base_eq⟩ := List.exists_cons_of_ne_nil fun empty =>
    named (String.toList_eq_nil_iff.mp empty)
  have first_safe : isSafe first := safe first (base_eq ▸ List.mem_cons_self)
  have moves (dots : String) (point : dots.toList.head? = some '.') :
      base ++ extension ≠ dots := by
    rintro rfl
    rw [String.toList_append, base_eq, List.cons_append, List.head?_cons] at point
    obtain rfl := Option.some.inj point
    exact absurd first_safe (by decide)
  refine ⟨by simp [named], ⟨moves "." rfl, moves ".." rfl⟩, ?_⟩
  rw [String.toList_append]
  refine List.forall_mem_append.mpr ⟨fun c member => ?_, fun c member => ?_⟩
  · have := isSafe_iff.mp (safe c member)
    tauto
  · have := plain c member
    tauto

theorem isPortable_stem (model : String) (index plateCount : Nat) {extension : String}
    (plain : ∀ c ∈ extension.toList, c.isAlphanum ∨ c = '.') :
    IsPortable (stem model index plateCount ++ extension) :=
  isPortable_append (stem_ne_empty model index plateCount) (isSafe_stem model index plateCount)
    plain

theorem isPortable_archive (model : String) : IsPortable (archive model) :=
  isPortable_stem model 0 0 (by simp)

/-! ## Different names -/

theorem stem_injective {model : String} {plateCount index other : Nat} (many : 1 < plateCount)
    (same : stem model index plateCount = stem model other plateCount) : index = other := by
  rw [stem, stem, if_neg (Nat.not_le_of_gt many), if_neg (Nat.not_le_of_gt many),
    String.append_right_inj, Nat.toString_eq_ofList_toDigits, Nat.toString_eq_ofList_toDigits,
    String.ofList_inj] at same
  rw [← @Nat.ofDigitChars_ten_toDigits index, same, Nat.ofDigitChars_ten_toDigits]

/-- With one extension, files of different plates have different names. -/
theorem nodup_stems {model : String} {indices : List Nat} (nodup : indices.Nodup)
    (extension : String) :
    (indices.map fun index => stem model index indices.length ++ extension).Nodup := by
  refine nodup.map_on fun index member other other_member same => ?_
  rw [String.append_left_inj] at same
  by_cases many : 1 < indices.length
  · exact stem_injective many same
  · match indices, member, other_member with
    | [single], member, other_member =>
        rw [List.mem_singleton.mp member, List.mem_singleton.mp other_member]
    | first :: second :: rest, _, _ => simp at many

theorem append_ne {base other extension ending : String} (c d : Char)
    (last : extension.toList.getLast? = some c) (other_last : ending.toList.getLast? = some d)
    (different : c ≠ d) : base ++ extension ≠ other ++ ending := by
  intro same
  have ends := congrArg (·.toList.getLast?) same
  simp only [String.toList_append, List.getLast?_append, last, other_last,
    Option.some_or] at ends
  exact different (Option.some.inj ends)

theorem nodup_names {model : String} {indices : List Nat} (nodup : indices.Nodup) :
    (archive model :: ((indices.map fun index => stem model index indices.length ++ ".gcode") ++
      indices.map fun index => stem model index indices.length ++ ".svg")).Nodup := by
  rw [List.nodup_cons, List.nodup_append, List.mem_append, not_or]
  simp only [List.mem_map, not_exists, not_and]
  refine ⟨⟨?_, ?_⟩, nodup_stems nodup ".gcode", nodup_stems nodup ".svg", ?_⟩
  · exact fun _ _ => append_ne 'e' 'p' rfl rfl (by decide)
  · exact fun _ _ => append_ne 'g' 'p' rfl rfl (by decide)
  · rintro _ ⟨index, _, rfl⟩ _ ⟨other, _, rfl⟩
    exact append_ne 'e' 'g' rfl rfl (by decide)

end FileName

end FlowCalibration
