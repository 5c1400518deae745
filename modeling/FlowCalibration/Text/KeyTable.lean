/-!
# Tables with text keys

A table is a list of pairs in strictly ascending order of the keys, so that equal tables hold equal
pairs.  `KeyTable.find?_insert` and `KeyTable.find?_erase` say what a write and a removal do to
every key, and `KeyTable.find?_insertAll` what writing a whole table does.  Pairs with different
keys are all in the table that is made of them, as `KeyTable.ofList_perm` says.
-/

namespace FlowCalibration

/-- Pairs of a key and a value, ascending by key. -/
abbrev KeyTable (α : Type) := List (String × α)

namespace KeyTable

variable {α : Type}

/-- Write a key, replacing what it held. -/
def insert (table : KeyTable α) (key : String) (value : α) : KeyTable α :=
  match table with
  | [] => [(key, value)]
  | (other, held) :: tail =>
      if key < other then (key, value) :: (other, held) :: tail
      else if key = other then (key, value) :: tail
      else (other, held) :: insert tail key value

/-- The value of a key. -/
def find? (table : KeyTable α) (key : String) : Option α :=
  table.lookup key

/-- The table without a key. -/
def erase (table : KeyTable α) (key : String) : KeyTable α :=
  table.filter (·.1 != key)

/-- Whether a key is held. -/
def contains (table : KeyTable α) (key : String) : Bool :=
  (find? table key).isSome

/-- Write the pairs of a list in order; of two pairs with one key the later one stays. -/
def insertAll (table : KeyTable α) (pairs : List (String × α)) : KeyTable α :=
  pairs.foldl (fun table pair => insert table pair.1 pair.2) table

/-- The table of a list of pairs. -/
def ofList (pairs : List (String × α)) : KeyTable α :=
  insertAll [] pairs

/-- Every key is below the keys after it. -/
def Ascending (table : KeyTable α) : Prop :=
  table.Pairwise (·.1 < ·.1)

@[simp]
theorem find?_nil (wanted : String) : find? ([] : KeyTable α) wanted = none := rfl

theorem find?_cons (key wanted : String) (value : α) (tail : KeyTable α) :
    find? ((key, value) :: tail) wanted =
      if wanted = key then some value else find? tail wanted := by
  by_cases same : wanted = key
  · simp [find?, same]
  · simp [find?, List.lookup_cons, same, beq_eq_false_iff_ne.mpr same]

theorem find?_insert (table : KeyTable α) (key wanted : String) (value : α) :
    find? (insert table key value) wanted =
      if wanted = key then some value else find? table wanted := by
  induction table with
  | nil => simp [insert, find?_cons]
  | cons pair tail ih =>
      obtain ⟨other, held⟩ := pair
      rw [insert]
      split
      · simp [find?_cons]
      · split
        · simp_all [find?_cons]
        · simp only [find?_cons, ih]
          grind

theorem find?_erase (table : KeyTable α) (key wanted : String) :
    find? (erase table key) wanted = if wanted = key then none else find? table wanted := by
  induction table with
  | nil => simp [erase]
  | cons pair tail ih =>
      obtain ⟨other, held⟩ := pair
      by_cases equal : other = key
      · have rest : erase ((other, held) :: tail) key = erase tail key := by simp [erase, equal]
        rw [rest, ih, find?_cons]
        split <;> simp_all
      · have rest : erase ((other, held) :: tail) key = (other, held) :: erase tail key := by
          simp [erase, equal]
        rw [rest, find?_cons, find?_cons, ih]
        split <;> simp_all

theorem mem_insert {table : KeyTable α} {key : String} {value : α} {pair : String × α}
    (member : pair ∈ insert table key value) : pair = (key, value) ∨ pair ∈ table := by
  induction table with
  | nil => exact .inl (List.mem_singleton.mp member)
  | cons head tail ih =>
      rw [insert] at member
      split at member <;> grind

theorem Ascending.insert {table : KeyTable α} (ascending : table.Ascending) (key : String)
    (value : α) : (table.insert key value).Ascending := by
  induction table with
  | nil => exact List.pairwise_singleton _ _
  | cons head tail ih =>
      obtain ⟨other, held⟩ := head
      obtain ⟨below, rest⟩ := List.pairwise_cons.mp ascending
      rw [KeyTable.insert]
      split
      case isTrue before =>
        refine List.pairwise_cons.mpr ⟨?_, ascending⟩
        intro pair member
        rcases List.mem_cons.mp member with rfl | member
        · exact before
        · exact String.lt_trans before (below pair member)
      case isFalse not_before =>
        split
        case isTrue equal =>
          subst equal
          exact List.pairwise_cons.mpr ⟨below, rest⟩
        case isFalse different =>
          refine List.pairwise_cons.mpr ⟨?_, ih rest⟩
          intro pair member
          rcases mem_insert member with rfl | member
          · exact Std.lt_of_le_of_ne (String.not_lt.mp not_before) (Ne.symm different)
          · exact below pair member

theorem Ascending.insertAll {table : KeyTable α} (ascending : table.Ascending)
    (pairs : List (String × α)) : (table.insertAll pairs).Ascending := by
  induction pairs generalizing table with
  | nil => exact ascending
  | cons pair pairs ih => exact ih (ascending.insert pair.1 pair.2)

theorem Ascending.erase {table : KeyTable α} (ascending : table.Ascending) (key : String) :
    (table.erase key).Ascending :=
  ascending.filter _

theorem ascending_ofList (pairs : List (String × α)) : (ofList pairs).Ascending :=
  Ascending.insertAll .nil pairs

theorem find?_eq_none_of_lt {table : KeyTable α} {key : String}
    (below : ∀ pair ∈ table, key < pair.1) : find? table key = none := by
  induction table with
  | nil => rfl
  | cons pair tail ih =>
      obtain ⟨other, held⟩ := pair
      have different : key ≠ other := by
        rintro rfl
        exact String.lt_irrefl key (below (key, held) List.mem_cons_self)
      rw [find?_cons, if_neg different]
      exact ih fun pair member => below pair (List.mem_cons_of_mem _ member)

/-- Writing a table over another leaves the keys that it does not hold. -/
theorem find?_insertAll (table : KeyTable α) {pairs : KeyTable α} (ascending : pairs.Ascending)
    (wanted : String) :
    find? (insertAll table pairs) wanted = (find? pairs wanted).or (find? table wanted) := by
  induction pairs generalizing table with
  | nil => rfl
  | cons pair pairs ih =>
      obtain ⟨key, value⟩ := pair
      obtain ⟨below, rest⟩ := List.pairwise_cons.mp ascending
      have written : insertAll table ((key, value) :: pairs) =
          insertAll (insert table key value) pairs := rfl
      rw [written, ih _ rest, find?_insert, find?_cons]
      by_cases equal : wanted = key
      · subst equal
        have absent : find? pairs wanted = none := find?_eq_none_of_lt below
        simp only [absent, if_true, Option.none_or, Option.some_or]
      · simp only [if_neg equal]

theorem insert_perm {table : KeyTable α} {key : String} (fresh : key ∉ table.map Prod.fst)
    (value : α) : (insert table key value).Perm ((key, value) :: table) := by
  induction table with
  | nil => exact .refl _
  | cons pair tail induction =>
      obtain ⟨other, held⟩ := pair
      have different : key ≠ other := List.ne_of_not_mem_cons fresh
      have tail_fresh : key ∉ tail.map Prod.fst := List.not_mem_of_not_mem_cons fresh
      rw [insert]
      split
      next => exact .refl _
      next =>
        exact ((induction tail_fresh).cons _).trans (.swap _ _ _)

/-- Writing pairs with different new keys puts each of them into the table. -/
theorem insertAll_perm {table : KeyTable α} {pairs : List (String × α)}
    (nodup : ((table ++ pairs).map Prod.fst).Nodup) :
    (insertAll table pairs).Perm (table ++ pairs) := by
  induction pairs generalizing table with
  | nil => exact .of_eq (List.append_nil table).symm
  | cons pair pairs induction =>
      obtain ⟨key, value⟩ := pair
      have moved : (table ++ (key, value) :: pairs).Perm ((key, value) :: table ++ pairs) :=
        List.perm_middle
      have nodup_moved := (moved.map Prod.fst).nodup_iff.mp nodup
      have fresh : key ∉ table.map Prod.fst := by
        intro member
        have held : key ∈ (table ++ pairs).map Prod.fst := by
          rw [List.map_append]
          exact List.mem_append_left _ member
        exact (List.nodup_cons.mp nodup_moved).1 held
      have written := (insert_perm fresh value).append_right pairs
      have nodup_written := (written.map Prod.fst).nodup_iff.mpr nodup_moved
      exact (induction nodup_written).trans (written.trans moved.symm)

theorem ofList_perm {pairs : List (String × α)} (nodup : (pairs.map Prod.fst).Nodup) :
    (ofList pairs).Perm pairs :=
  insertAll_perm nodup

theorem find?_eq_some_iff {table : KeyTable α} (nodup : (table.map Prod.fst).Nodup)
    {key : String} {value : α} : find? table key = some value ↔ (key, value) ∈ table := by
  induction table with
  | nil => simp
  | cons pair tail induction =>
      obtain ⟨other, held⟩ := pair
      obtain ⟨notLater, tail_nodup⟩ := List.nodup_cons.mp nodup
      rw [find?_cons, List.mem_cons, Prod.mk.injEq, ← induction tail_nodup]
      by_cases same : key = other
      · subst same
        have absent : (key, value) ∉ tail :=
          fun member => notLater (List.mem_map.mpr ⟨_, member, rfl⟩)
        rw [if_pos rfl, induction tail_nodup]
        simp [absent, eq_comm]
      · simp [same]

theorem Ascending.nodup {table : KeyTable α} (ascending : table.Ascending) :
    (table.map Prod.fst).Nodup := by
  refine List.pairwise_map.mpr (List.Pairwise.imp ?_ ascending)
  intro pair other before same
  exact String.lt_irrefl other.1 (same ▸ before)

theorem find?_filter {table : KeyTable α} (ascending : table.Ascending)
    (keep : String → α → Bool) (wanted : String) :
    find? (table.filter fun (key, value) => keep key value) wanted =
      (find? table wanted).filter (keep wanted) := by
  have kept : Ascending (table.filter fun (key, value) => keep key value) := ascending.filter _
  ext value
  rw [Option.filter_eq_some_iff, find?_eq_some_iff kept.nodup, find?_eq_some_iff ascending.nodup,
    List.mem_filter]

end KeyTable

end FlowCalibration
