import FlowCalibration.Json.Document

/-!
# The order of members

Objects are tables: the members of a value that is held as such stand in ascending order of their
keys, whatever the order in which they were listed.  Ordering the members keeps what a look-up
finds, with the members of the value that is found in order too.
-/

namespace FlowCalibration

namespace Json

mutual

/-- The value with the members of every object in ascending order of their keys; of repeated keys
the first one counts. -/
def ordered : Json → Json
  | array elements => array (orderedElements elements)
  | object members => object (orderedMembers members)
  | leaf => leaf

/-- The elements of an array, each in order. -/
def orderedElements : List Json → List Json
  | [] => []
  | element :: tail => ordered element :: orderedElements tail

/-- The members of an object in order, each with its value in order. -/
def orderedMembers : List (String × Json) → KeyTable Json
  | [] => []
  | (key, value) :: tail => KeyTable.insert (orderedMembers tail) key (ordered value)

end

theorem orderedElements_eq (elements : List Json) :
    orderedElements elements = elements.map ordered := by
  induction elements with
  | nil => rfl
  | cons element elements induction => rw [orderedElements, induction, List.map_cons]

theorem ascending_orderedMembers (members : List (String × Json)) :
    (orderedMembers members).Ascending := by
  induction members with
  | nil => exact .nil
  | cons member members induction =>
      rw [orderedMembers]
      exact induction.insert _ _

theorem orderedMembers_perm {members : List (String × Json)}
    (nodup : (members.map Prod.fst).Nodup) :
    (orderedMembers members).Perm (members.map fun (key, value) => (key, ordered value)) := by
  induction members with
  | nil => exact .nil
  | cons member members induction =>
      obtain ⟨key, value⟩ := member
      obtain ⟨notLater, nodup⟩ := List.nodup_cons.mp nodup
      have rest := induction nodup
      have fresh : key ∉ (orderedMembers members).map Prod.fst := by
        rw [(rest.map Prod.fst).mem_iff, List.map_map]
        exact notLater
      rw [orderedMembers]
      exact (KeyTable.insert_perm fresh _).trans (rest.cons _)

@[simp]
theorem member?_ordered (value : Json) (key : String) :
    value.ordered.member? key = (value.member? key).map ordered := by
  cases value with
  | object members =>
      rw [ordered, member?, member?]
      induction members with
      | nil => rfl
      | cons member members induction =>
          rw [orderedMembers, KeyTable.find?_insert, induction, KeyTable.find?_cons]
          split <;> rfl
  | _ => rfl

@[simp]
theorem toFloat?_ordered (value : Json) : value.ordered.toFloat? = value.toFloat? := by
  cases value <;> rfl

@[simp]
theorem toText?_ordered (value : Json) : value.ordered.toText? = value.toText? := by
  cases value <;> rfl

theorem ordered_ofFloat (value : Float) : (ofFloat value).ordered = ofFloat value := by
  rw [ofFloat]
  split <;> rfl

end Json

end FlowCalibration
