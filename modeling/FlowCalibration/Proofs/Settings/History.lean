import FlowCalibration.Proofs.Settings.Layers
import FlowCalibration.Proofs.Text.Trimming
import Mathlib.Data.Set.Card

/-!
# The history of raw settings

Raw settings are what their history makes them.  Operations write values under keys and clear keys,
and some fail and do neither.  Whatever their number and order, a key holds the value that was
written last, unless it was cleared since, and every key is held once.
-/

namespace FlowCalibration

/-! ## What lasts -/

section Lasts

variable {α : Type} {does undoes : α → Prop}

/-- Some item of a list does something that no item behind it undoes. -/
def Lasts (does undoes : α → Prop) (items : List α) : Prop :=
  ∃ front item back, items = front ++ item :: back ∧ does item ∧ ∀ later ∈ back, ¬ undoes later

theorem not_lasts_nil : ¬ Lasts does undoes [] := by
  rintro ⟨front, item, back, nil_eq, _⟩
  exact absurd nil_eq.symm (by simp)

/-- One more item does it, or leaves it as it was. -/
theorem lasts_append_singleton {items : List α} {item : α} :
    Lasts does undoes (items ++ [item]) ↔ does item ∨ ¬ undoes item ∧ Lasts does undoes items := by
  constructor
  · rintro ⟨front, own, back, split, does_own, kept⟩
    rcases List.eq_nil_or_concat' back with rfl | ⟨back, last, rfl⟩
    · obtain ⟨-, rfl⟩ := List.append_singleton_inj.mp split
      exact .inl does_own
    · rw [← List.cons_append, ← List.append_assoc] at split
      obtain ⟨rfl, rfl⟩ := List.append_singleton_inj.mp split
      rw [List.forall_mem_append] at kept
      exact .inr ⟨kept.2 item List.mem_cons_self, front, own, back, rfl, does_own, kept.1⟩
  · rintro (does_item | ⟨kept_item, front, own, back, rfl, does_own, kept⟩)
    · exact ⟨items, item, [], rfl, does_item, List.forall_mem_nil _⟩
    · refine ⟨front, own, back ++ [item], by simp, does_own, ?_⟩
      exact List.forall_mem_append.mpr ⟨kept, by simpa using kept_item⟩

end Lasts

namespace RawSettings

/-! ## Operations -/

/-- What may be done to raw settings. -/
inductive Operation
  /-- Write the value of a pair `key=value`. -/
  | setPair (pair : String)
  /-- Write the value of a key. -/
  | insert (key : String) (value : Json)
  /-- Clear a key. -/
  | erase (key : String)
  /-- Write another layer over the settings. -/
  | merge (layer : RawSettings)
  /-- Put the settings of a value in the place of the settings. -/
  | replace (value : Json)

/-- The settings that an operation makes, unless it fails. -/
def perform (raw : RawSettings) : Operation → Except SettingsError RawSettings
  | .setPair pair => raw.setPair pair
  | .insert key value => .ok (raw.insert key value)
  | .erase key => .ok (raw.erase key)
  | .merge layer => .ok (raw.merge layer)
  | .replace value => ofJson value

/-- The settings after an operation; one that fails leaves them as they are. -/
def after (raw : RawSettings) (operation : Operation) : RawSettings :=
  match raw.perform operation with
  | .ok next => next
  | .error _ => raw

/-- The settings after operations on settings without keys. -/
def run (operations : List Operation) : RawSettings :=
  operations.foldl after ∅

/-- The value of the text behind the equality sign of a pair: its JSON value without the blanks at
its ends, or the text itself if it has none. -/
def pairValue (back : List Char) : Json :=
  let text := String.ofList (trim back)
  (Json.parse? text).getD (.text text)

namespace Operation

/-- Whether an operation writes a value under a key. -/
def Writes (key : String) (value : Json) : Operation → Prop
  | setPair pair => ∃ front back, pair.toList = front ++ '=' :: back ∧ '=' ∉ front ∧
      trim front ≠ [] ∧ key = String.ofList (trim front) ∧ value = pairValue back
  | insert own held => key = own ∧ value = held
  | erase _ => False
  | merge layer => layer.get? key = some value
  | replace (.object members) => Lasts (· = (key, value)) (·.1 = key) members
  | replace _ => False

/-- Whether an operation takes away what a key held. -/
def Clears (key : String) : Operation → Prop
  | erase own => key = own
  | replace (.object members) => key ∉ members.map Prod.fst
  | _ => False

/-- Whether an operation decides what a key holds. -/
def Touches (key : String) (operation : Operation) : Prop :=
  (∃ value, operation.Writes key value) ∨ operation.Clears key

/-- The error of an operation that fails: a pair has a sign and something but blanks in front of
the first, and settings are an object. -/
def FailsWith (error : SettingsError) : Operation → Prop
  | setPair pair => error = .invalidPair pair ∧ ('=' ∉ pair.toList ∨
      ∃ front back, pair.toList = front ++ '=' :: back ∧ ∀ c ∈ front, isBlank c = true)
  | replace value => error = .notAnObject value.kind ∧ ∀ members, value ≠ .object members
  | _ => False

end Operation

/-- Whether operations leave a value under a key: one of them writes it, and none behind that one
writes or clears the key. -/
def Leaves (operations : List Operation) (key : String) (value : Json) : Prop :=
  Lasts (Operation.Writes key value) (Operation.Touches key) operations

end RawSettings

/-! ## Pairs -/

namespace RawSettings

theorem splitPair?_of_notMem {pair : String} (unsigned : '=' ∉ pair.toList) :
    splitPair? pair = none := by
  have nothing : pair.toList.dropWhile (· != '=') = [] := by
    rw [List.dropWhile_eq_nil_iff]
    intro c member
    simpa using fun (same : c = '=') => unsigned (same ▸ member)
  rw [splitPair?, nothing]

theorem splitPair?_of_split {pair : String} {front back : List Char}
    (split : pair.toList = front ++ '=' :: back) (first : '=' ∉ front) :
    splitPair? pair =
      if trim front = [] then none else some (String.ofList (trim front), pairValue back) := by
  have unsigned : ∀ c ∈ front, (c != '=') = true := by
    intro c member
    simpa using fun (same : c = '=') => first (same ▸ member)
  have taken : pair.toList.takeWhile (· != '=') = front := by
    rw [split, List.takeWhile_append_of_pos unsigned]
    simp
  have dropped : pair.toList.dropWhile (· != '=') = '=' :: back := by
    rw [split, List.dropWhile_append_of_pos unsigned]
    simp
  simp only [splitPair?, dropped, taken]
  split
  next nothing => rw [if_pos nothing]
  next something => rw [if_neg something, pairValue]

/-- A pair writes the text in front of its first equality sign and the value behind it. -/
theorem splitPair?_eq_some_iff {pair key : String} {value : Json} :
    splitPair? pair = some (key, value) ↔
      ∃ front back, pair.toList = front ++ '=' :: back ∧ '=' ∉ front ∧ trim front ≠ [] ∧
        key = String.ofList (trim front) ∧ value = pairValue back := by
  constructor
  · intro read
    by_cases signed : '=' ∈ pair.toList
    · obtain ⟨front, back, split, first⟩ := List.eq_append_cons_of_mem signed
      rw [splitPair?_of_split split first] at read
      obtain ⟨named, parts⟩ := Option.ite_none_left_eq_some.mp read
      obtain ⟨rfl, rfl⟩ := Prod.mk.inj (Option.some.inj parts)
      exact ⟨front, back, split, first, named, rfl, rfl⟩
    · rw [splitPair?_of_notMem signed] at read
      contradiction
  · rintro ⟨front, back, split, first, named, rfl, rfl⟩
    rw [splitPair?_of_split split first, if_neg named]

theorem splitPair?_eq_none_iff {pair : String} :
    splitPair? pair = none ↔ '=' ∉ pair.toList ∨
      ∃ front back, pair.toList = front ++ '=' :: back ∧ ∀ c ∈ front, isBlank c = true := by
  have solid : isBlank '=' = false := by decide
  constructor
  · intro unread
    by_cases signed : '=' ∈ pair.toList
    · obtain ⟨front, back, split, first⟩ := List.eq_append_cons_of_mem signed
      rw [splitPair?_of_split split first] at unread
      refine .inr ⟨front, back, split, trim_eq_nil_iff.mp ?_⟩
      by_contra named
      rw [if_neg named] at unread
      contradiction
    · exact .inl signed
  · rintro (unsigned | ⟨front, back, split, blank⟩)
    · exact splitPair?_of_notMem unsigned
    · have first : '=' ∉ front := fun member =>
        Bool.false_ne_true (solid.symm.trans (blank '=' member))
      rw [splitPair?_of_split split first, if_pos (trim_eq_nil_iff.mpr blank)]

/-! ## One operation -/

theorem get?_insert_iff {raw : RawSettings} {own key : String} {held value : Json} :
    (raw.insert own held).get? key = some value ↔
      (key = own ∧ value = held) ∨ key ≠ own ∧ raw.get? key = some value := by
  rw [get?, insert, KeyTable.find?_insert]
  by_cases same : key = own
  · simp [same, eq_comm]
  · simp [same, get?]

theorem get?_ofMembers_iff {members : List (String × Json)} {key : String} {value : Json} :
    (ofMembers members).get? key = some value ↔
      Lasts (· = (key, value)) (·.1 = key) members := by
  induction members using List.reverseRecOn with
  | nil => exact iff_of_false (Option.some_ne_none value).symm not_lasts_nil
  | append_singleton members member induction =>
      obtain ⟨own, held⟩ := member
      have written : KeyTable.ofList (members ++ [(own, held)]) =
          KeyTable.insert (KeyTable.ofList members) own held :=
        List.foldl_append
      have get?_eq : (ofMembers (members ++ [(own, held)])).get? key =
          ((ofMembers members).insert own held).get? key :=
        congrArg (KeyTable.find? · key) written
      rw [get?_eq, get?_insert_iff, induction, lasts_append_singleton, Prod.mk.injEq,
        eq_comm, eq_comm (b := held), ne_comm]

theorem exists_lasts_of_mem {members : List (String × Json)} {key : String}
    (member : key ∈ members.map Prod.fst) :
    ∃ value, Lasts (· = (key, value)) (·.1 = key) members := by
  induction members using List.reverseRecOn with
  | nil => contradiction
  | append_singleton members last induction =>
      by_cases own : last.1 = key
      · exact ⟨last.2, lasts_append_singleton.mpr (.inl (Prod.ext own rfl))⟩
      · have earlier : key ∈ members.map Prod.fst := by simpa [Ne.symm own] using member
        obtain ⟨value, lasts⟩ := induction earlier
        exact ⟨value, lasts_append_singleton.mpr (.inr ⟨own, lasts⟩)⟩

/-- After an operation a key holds what the operation wrote, or what it held before if the
operation did not decide on it. -/
theorem get?_after_iff {raw : RawSettings} {operation : Operation} {key : String} {value : Json} :
    (raw.after operation).get? key = some value ↔
      operation.Writes key value ∨ ¬ operation.Touches key ∧ raw.get? key = some value := by
  cases operation with
  | setPair pair =>
      have writes (written : Json) :
          (Operation.setPair pair).Writes key written ↔ splitPair? pair = some (key, written) :=
        splitPair?_eq_some_iff.symm
      cases read : splitPair? pair with
      | none =>
          have kept : raw.after (.setPair pair) = raw := by
            simp only [after, perform, setPair, read]
          simp [kept, Operation.Touches, Operation.Clears, writes, read]
      | some parts =>
          have written : raw.after (.setPair pair) = raw.insert parts.1 parts.2 := by
            simp only [after, perform, setPair, read]
          rw [written, get?_insert_iff]
          simp [Operation.Touches, Operation.Clears, writes, read, Prod.ext_iff, eq_comm]
  | insert own held =>
      simp [after, perform, get?_insert_iff, Operation.Touches, Operation.Clears, Operation.Writes]
  | erase own =>
      have erased : (raw.erase own).get? key = if key = own then none else raw.get? key :=
        KeyTable.find?_erase raw.entries own key
      simp [after, perform, erased, Operation.Touches, Operation.Clears, Operation.Writes]
  | merge layer =>
      have merged : (raw.after (.merge layer)).get? key = (layer.get? key).or (raw.get? key) :=
        get?_merge raw layer key
      rw [merged, Option.or_eq_some_iff]
      simp [Operation.Touches, Operation.Clears, Operation.Writes, ← Option.ne_none_iff_exists']
  | replace value =>
      cases value with
      | object members =>
          have touched : (Operation.replace (.object members)).Touches key := by
            by_cases member : key ∈ members.map Prod.fst
            · exact .inl (exists_lasts_of_mem member)
            · exact .inr member
          have replaced : raw.after (.replace (.object members)) = ofMembers members := rfl
          rw [replaced, get?_ofMembers_iff]
          simp [touched, Operation.Writes]
      | _ => simp [after, perform, ofJson, Operation.Touches, Operation.Clears, Operation.Writes]

theorem perform_eq_error_iff {raw : RawSettings} {operation : Operation} {error : SettingsError} :
    raw.perform operation = .error error ↔ operation.FailsWith error := by
  cases operation with
  | setPair pair =>
      rw [perform, setPair, Operation.FailsWith, ← splitPair?_eq_none_iff]
      cases splitPair? pair <;> simp [eq_comm]
  | replace value => cases value <;> simp [perform, ofJson, Operation.FailsWith, eq_comm]
  | _ => simp [perform, Operation.FailsWith]

/-! ## Runs -/

theorem run_append_singleton (operations : List Operation) (operation : Operation) :
    run (operations ++ [operation]) = (run operations).after operation :=
  List.foldl_append

/-- After operations a key holds what they leave under it. -/
theorem get?_run_iff {operations : List Operation} {key : String} {value : Json} :
    (run operations).get? key = some value ↔ Leaves operations key value := by
  induction operations using List.reverseRecOn with
  | nil => exact iff_of_false (Option.some_ne_none value).symm not_lasts_nil
  | append_singleton operations operation induction =>
      rw [run_append_singleton, get?_after_iff, induction]
      exact lasts_append_singleton.symm

theorem run_of_failsWith {operation : Operation} {error : SettingsError}
    (fails : operation.FailsWith error) (front back : List Operation) :
    run (front ++ operation :: back) = run (front ++ back) := by
  have kept : (run front).after operation = run front := by
    rw [after, perform_eq_error_iff.mpr fails]
  rw [run, List.foldl_append, List.foldl_cons, run, List.foldl_append]
  exact congrArg (back.foldl after) kept

/-- The size of raw settings is the number of their keys. -/
theorem size_eq_ncard (raw : RawSettings) :
    raw.size = {key | ∃ value, raw.get? key = some value}.ncard := by
  have nodup := raw.ascending.nodup
  have keys : {key | ∃ value, raw.get? key = some value} =
      ((raw.entries.map Prod.fst).toFinset : Set String) := by
    ext key
    simp [get?, KeyTable.find?_eq_some_iff nodup]
  rw [keys, Set.ncard_coe_finset, List.toFinset_card_of_nodup nodup, List.length_map, size]

/-- Whether operations make raw settings as their history says. -/
structure FollowsHistory (operations : List Operation) : Prop where
  /-- A key holds the value that was written last, unless it was cleared since. -/
  get?_iff (key : String) (value : Json) :
    (run operations).get? key = some value ↔ Leaves operations key value
  /-- There are as many keys as the operations leave values under, -/
  size_eq : (run operations).size = {key | ∃ value, Leaves operations key value}.ncard
  /-- and none of them is held twice. -/
  nodup : ((run operations).entries.map Prod.fst).Nodup
  /-- Whether an operation fails does not depend on what was done before it, -/
  error_iff (front back : List Operation) (operation : Operation) (error : SettingsError) :
    operations = front ++ operation :: back →
      ((run front).perform operation = .error error ↔ operation.FailsWith error)
  /-- and one that fails might as well not be there. -/
  idle (front back : List Operation) (operation : Operation) (error : SettingsError) :
    operations = front ++ operation :: back → operation.FailsWith error →
      run operations = run (front ++ back)

/-- Operations of any number and order make raw settings as their history says. -/
theorem followsHistory (operations : List Operation) : FollowsHistory operations where
  get?_iff _ _ := get?_run_iff
  size_eq := by simp only [size_eq_ncard, get?_run_iff]
  nodup := (run operations).ascending.nodup
  error_iff _ _ _ _ _ := perform_eq_error_iff
  idle front back _ _ split fails := by rw [split, run_of_failsWith fails front back]

/-- A value may hold further signs, and it stays a text where only its front is a JSON value. -/
example :
    ((run [.setPair " mode =[1] = 2 ", .setPair " =3", .erase "flow"]).get? "mode").bind
      Json.toText? = some "[1] = 2" := by
  decide +kernel

end RawSettings

end FlowCalibration
