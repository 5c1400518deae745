import Mathlib.Data.List.Basic

/-!
# Results that may be errors

What a sequence of steps or of items gives when each of them may fail: all values, or the error of
the first that fails.
-/

namespace FlowCalibration

variable {α β ε : Type}

theorem exists_of_bind_eq_ok {first : Except ε α} {next : α → Except ε β}
    {result : β} (run : (first >>= next) = .ok result) :
    ∃ value, first = .ok value ∧ next value = .ok result := by
  cases first with
  | error fault => contradiction
  | ok value => exact ⟨value, rfl, run⟩

theorem bind_eq_error_iff {first : Except ε α} {next : α → Except ε β} {fault : ε} :
    (first >>= next) = .error fault ↔
      first = .error fault ∨ ∃ value, first = .ok value ∧ next value = .error fault := by
  cases first with
  | error own => simp [bind, Except.bind]
  | ok value => simp [bind, Except.bind]

theorem exists_of_foldlM_eq_error {step : β → α → Except ε β} {items : List α} {start : β}
    {fault : ε} (fails : items.foldlM step start = .error fault) :
    ∃ item ∈ items, ∃ value, step value item = .error fault := by
  induction items generalizing start with
  | nil => contradiction
  | cons item items induction =>
      rw [List.foldlM_cons] at fails
      rcases bind_eq_error_iff.mp fails with first | ⟨value, _, rest⟩
      · exact ⟨item, List.mem_cons_self, start, first⟩
      · obtain ⟨later, member, fails⟩ := induction rest
        exact ⟨later, List.mem_cons_of_mem item member, fails⟩

theorem exists_of_foldlM_eq_ok {step : β → α → Except ε β} {items : List α} {start result : β}
    (run : items.foldlM step start = .ok result) :
    ∀ item ∈ items, ∃ value next, step value item = .ok next := by
  induction items generalizing start with
  | nil => exact List.forall_mem_nil _
  | cons item items induction =>
      rw [List.foldlM_cons] at run
      obtain ⟨next, first, rest⟩ := exists_of_bind_eq_ok run
      exact List.forall_mem_cons.mpr ⟨⟨start, next, first⟩, induction rest⟩

variable {f : α → Except ε β} {items : List α}

theorem mapM_eq_ok_iff {results : List β} :
    items.mapM f = .ok results ↔ items.map f = results.map .ok := by
  induction items generalizing results with
  | nil => cases results <;> simp [pure, Except.pure]
  | cons item items induction =>
      rw [List.mapM_cons, List.map_cons]
      constructor
      · intro run
        obtain ⟨first, first_eq, run⟩ := exists_of_bind_eq_ok run
        obtain ⟨rest, rest_eq, run⟩ := exists_of_bind_eq_ok run
        obtain rfl := Except.ok.inj run
        rw [first_eq, induction.mp rest_eq, List.map_cons]
      · intro each
        cases results with
        | nil => contradiction
        | cons first rest =>
            obtain ⟨first_eq, rest_eq⟩ := List.cons.inj each
            rw [first_eq, induction.mpr rest_eq]
            rfl

theorem mapM_eq_ok {g : α → β} (each : ∀ item ∈ items, f item = .ok (g item)) :
    items.mapM f = .ok (items.map g) := by
  rw [mapM_eq_ok_iff, List.map_map]
  exact List.map_congr_left each

theorem mapM_range'_one {next : Nat → Except ε β} {value : Nat → β} {count : Nat}
    (each : ∀ index < count, next (index + 1) = .ok (value index)) :
    (List.range' 1 count).mapM next = .ok ((List.range count).map value) := by
  rw [mapM_eq_ok_iff, List.range'_eq_map_range, List.map_map, List.map_map]
  apply List.map_congr_left
  intro index member
  rw [Function.comp_apply, Nat.add_comm, each index (List.mem_range.mp member)]
  rfl

theorem mapM_eq_error_iff {fault : ε} :
    items.mapM f = .error fault ↔
      ∃ front item back, items = front ++ item :: back ∧
        (∀ earlier ∈ front, ∃ result, f earlier = .ok result) ∧ f item = .error fault := by
  induction items with
  | nil => simp [pure, Except.pure]
  | cons item items induction =>
      rw [List.mapM_cons, bind_eq_error_iff]
      constructor
      · rintro (fails | ⟨first, first_eq, run⟩)
        · exact ⟨[], item, items, rfl, List.forall_mem_nil _, fails⟩
        · rcases bind_eq_error_iff.mp run with fails | ⟨rest, _, impossible⟩
          · obtain ⟨front, failing, back, rfl, before, fails⟩ := induction.mp fails
            exact ⟨item :: front, failing, back, rfl,
              List.forall_mem_cons.mpr ⟨⟨first, first_eq⟩, before⟩, fails⟩
          · contradiction
      · rintro ⟨front, failing, back, items_eq, before, fails⟩
        cases front with
        | nil =>
            obtain ⟨rfl, rfl⟩ := List.cons.inj items_eq
            exact .inl fails
        | cons first front =>
            obtain ⟨rfl, rfl⟩ := List.cons.inj items_eq
            obtain ⟨⟨result, result_eq⟩, before⟩ := List.forall_mem_cons.mp before
            have rest := induction.mpr ⟨front, failing, back, rfl, before, fails⟩
            exact .inr ⟨result, result_eq, bind_eq_error_iff.mpr (.inl rest)⟩

end FlowCalibration
