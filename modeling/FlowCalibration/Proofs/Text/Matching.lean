import Mathlib.Data.List.Infix

/-!
# Matches in texts

What is cut off the front of a text is the longest front of its kind.  What is searched for in a
text is found at the first place at which a pattern fits.  Two such matches of one text are the
same, and a search that tries one place after the other finds the match if there is one.
-/

namespace FlowCalibration

/-! ## Fronts -/

/-- The longest text of a kind at the front of a text. -/
structure LongestFront (kind : List Char → Prop) (text front : List Char) : Prop where
  ofKind : kind front
  atFront : front <+: text
  longest : ∀ other, kind other → other <+: text → other.length ≤ front.length

theorem LongestFront.unique {kind : List Char → Prop} {text front other : List Char}
    (longest : LongestFront kind text front) (other_longest : LongestFront kind text other) :
    front = other := by
  have lengths : front.length = other.length :=
    Nat.le_antisymm (other_longest.longest front longest.ofKind longest.atFront)
      (longest.longest other other_longest.ofKind other_longest.atFront)
  exact (List.prefix_of_prefix_length_le longest.atFront other_longest.atFront
    lengths.le).eq_of_length lengths

/-! ## Places -/

variable {pattern : List Char → List Char → Prop}

/-- A pattern fits somewhere in a text.  It says of a text and a part of it that it fits at the
front of the text and picks out the part. -/
def Occurs (pattern : List Char → List Char → Prop) (text : List Char) : Prop :=
  ∃ front back picked, text = front ++ back ∧ pattern back picked

/-- What a pattern picks out at the first place at which it fits, as much of it as possible. -/
def PicksFirst (pattern : List Char → List Char → Prop) (text picked : List Char) : Prop :=
  ∃ front back, text = front ++ back ∧ pattern back picked ∧
    (∀ other, pattern back other → other.length ≤ picked.length) ∧
    ∀ left right other, text = left ++ right → pattern right other → front.length ≤ left.length

theorem PicksFirst.occurs {text picked : List Char} (first : PicksFirst pattern text picked) :
    Occurs pattern text := by
  obtain ⟨front, back, text_eq, fits, -⟩ := first
  exact ⟨front, back, picked, text_eq, fits⟩

theorem occurs_nil_iff : Occurs pattern [] ↔ ∃ picked, pattern [] picked := by
  constructor
  · rintro ⟨front, back, picked, text_eq, fits⟩
    obtain ⟨-, rfl⟩ := List.append_eq_nil_iff.mp text_eq.symm
    exact ⟨picked, fits⟩
  · rintro ⟨picked, fits⟩
    exact ⟨[], [], picked, rfl, fits⟩

/-- A pattern fits at the front of a text or behind its first character. -/
theorem occurs_cons_iff {c : Char} {tail : List Char} :
    Occurs pattern (c :: tail) ↔
      (∃ picked, pattern (c :: tail) picked) ∨ Occurs pattern tail := by
  constructor
  · rintro ⟨front, back, picked, text_eq, fits⟩
    cases front with
    | nil => exact .inl ⟨picked, text_eq ▸ fits⟩
    | cons d front => exact .inr ⟨front, back, picked, (List.cons.inj text_eq).2, fits⟩
  · rintro (⟨picked, fits⟩ | ⟨front, back, picked, rfl, fits⟩)
    · exact ⟨[], c :: tail, picked, rfl, fits⟩
    · exact ⟨c :: front, back, picked, rfl, fits⟩

/-- A pattern that does not fit at the front of a text fits behind its first character. -/
theorem picksFirst_cons_iff {c : Char} {tail picked : List Char}
    (unfit : ∀ other, ¬ pattern (c :: tail) other) :
    PicksFirst pattern (c :: tail) picked ↔ PicksFirst pattern tail picked := by
  constructor
  · rintro ⟨front, back, text_eq, fits, longest, first⟩
    cases front with
    | nil => exact absurd (text_eq ▸ fits) (unfit picked)
    | cons d front =>
        obtain ⟨rfl, rfl⟩ := List.cons.inj text_eq
        refine ⟨front, back, rfl, fits, longest, fun left right other split right_fits => ?_⟩
        exact Nat.le_of_succ_le_succ
          (first (c :: left) right other (congrArg (c :: ·) split) right_fits)
  · rintro ⟨front, back, rfl, fits, longest, first⟩
    refine ⟨c :: front, back, rfl, fits, longest, fun left right other split right_fits => ?_⟩
    cases left with
    | nil => exact absurd (split ▸ right_fits) (unfit other)
    | cons d left =>
        exact Nat.succ_le_succ (first left right other (List.cons.inj split).2 right_fits)

section Search

variable {here : List Char → Option (List Char)} (search : List Char → Option (List Char))
  (here_iff : ∀ text picked, here text = some picked ↔ pattern text picked)

include here_iff

omit search in
/-- Where a pattern fits at the front of a text, that is its first place. -/
theorem picksFirst_of_here {text found picked : List Char} (fits : here text = some found) :
    PicksFirst pattern text picked ↔ found = picked := by
  constructor
  · rintro ⟨front, back, rfl, back_fits, -, first⟩
    have nothing : front = [] := List.length_eq_zero_iff.mp <| Nat.le_zero.mp <|
      first [] _ found rfl ((here_iff _ _).mp fits)
    rw [nothing, List.nil_append, (here_iff _ _).mpr back_fits] at fits
    exact (Option.some.inj fits).symm
  · rintro rfl
    refine ⟨[], text, rfl, (here_iff _ _).mp fits, fun other other_fits => ?_,
      fun left _ _ _ _ => Nat.zero_le left.length⟩
    rw [← here_iff, fits] at other_fits
    rw [Option.some.inj other_fits]

theorem search_eq_some_iff (search_nil : search [] = here [])
    (search_cons : ∀ c tail, search (c :: tail) = (here (c :: tail)).or (search tail))
    {text picked : List Char} : search text = some picked ↔ PicksFirst pattern text picked := by
  induction text with
  | nil =>
      rw [search_nil]
      cases fits : here [] with
      | some found => rw [Option.some_inj, picksFirst_of_here here_iff fits]
      | none =>
          refine iff_of_false nofun ?_
          rintro ⟨front, back, text_eq, back_fits, -⟩
          obtain ⟨-, rfl⟩ := List.append_eq_nil_iff.mp text_eq.symm
          rw [← here_iff, fits] at back_fits
          contradiction
  | cons c tail induction =>
      rw [search_cons]
      cases fits : here (c :: tail) with
      | some found => rw [Option.some_or, Option.some_inj, picksFirst_of_here here_iff fits]
      | none =>
          have unfit (other : List Char) : ¬ pattern (c :: tail) other := by
            rw [← here_iff, fits]
            nofun
          rw [Option.none_or, induction, picksFirst_cons_iff unfit]

theorem search_eq_none_iff (search_nil : search [] = here [])
    (search_cons : ∀ c tail, search (c :: tail) = (here (c :: tail)).or (search tail))
    {text : List Char} : search text = none ↔ ¬ Occurs pattern text := by
  have here_none {text : List Char} : here text = none ↔ ¬ ∃ picked, pattern text picked := by
    simp only [Option.eq_none_iff_forall_ne_some, ne_eq, here_iff, not_exists]
  induction text with
  | nil => rw [search_nil, here_none, occurs_nil_iff]
  | cons c tail induction =>
      rw [search_cons, Option.or_eq_none_iff, here_none, occurs_cons_iff, not_or]
      exact and_congr_right fun _ => induction

end Search

end FlowCalibration
