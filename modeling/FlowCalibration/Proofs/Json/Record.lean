import FlowCalibration.Json.Record
import FlowCalibration.Proofs.Json.Order
import Mathlib.Data.List.Perm.Basic
import Mathlib.Data.List.Pairwise

/-!
# Members of strict records

A record does not depend on the order in which its members are given, as long as each of them is
given once and no two of its fields are stored over one another.
-/

namespace FlowCalibration

theorem foldlM_perm {ρ α : Type} {step : ρ → α → Option ρ} {items others : List α}
    (perm : items.Perm others)
    (exchange : items.Pairwise fun item other => ∀ record,
      (step record item).bind (step · other) = (step record other).bind (step · item)) :
    ∀ record, items.foldlM step record = others.foldlM step record := by
  induction perm with
  | nil => exact fun _ => rfl
  | cons item _ induction =>
      intro record
      rw [List.foldlM_cons, List.foldlM_cons]
      exact congrArg (Option.bind _) (funext (induction (List.pairwise_cons.mp exchange).2))
  | swap first second rest =>
      intro record
      have exchanged := (List.pairwise_cons.mp exchange).1 first List.mem_cons_self record
      simp only [List.foldlM_cons, Option.bind_eq_bind, ← Option.bind_assoc]
      rw [exchanged]
  | trans perm _ first second =>
      intro record
      have exchange_mid :=
        (perm.pairwise_iff fun swapped record => (swapped record).symm).mp exchange
      rw [first exchange record, second exchange_mid record]

/-- The number that is written for a finite double is read as that double. -/
theorem JsonDocument.toFloat?_ofFloat {value : Float} (finite : value.isFinite = true) :
    (ofJson (.ofFloat value)).toFloat? = some value := by
  rw [Json.ofFloat, if_pos finite]
  rfl

namespace RecordField

variable {ρ : Type} {fields : List (RecordField ρ)}

/-- Two fields of which neither is stored over the other. -/
def Independent (field other : RecordField ρ) : Prop :=
  ∀ document otherDocument record,
    (field.store? document record).bind (other.store? otherDocument) =
      (other.store? otherDocument record).bind (field.store? document)

/-- Values that are read apart and put into different places can be exchanged. -/
theorem bind_map_comm {α β : Type} {first : Option α} {second : Option β} {set : ρ → α → ρ}
    {setOther : ρ → β → ρ}
    (apart : ∀ record value other,
      setOther (set record value) other = set (setOther record other) value) (record : ρ) :
    (first.map (set record)).bind (fun record => second.map (setOther record)) =
      (second.map (setOther record)).bind (fun record => first.map (set record)) := by
  cases first <;> cases second <;> simp [apart]

/-- Store a member in the field of its key; other members are skipped. -/
def storeMember? (fields : List (RecordField ρ)) (record : ρ) (member : String × Json) : Option ρ :=
  match fields.find? (·.key == member.1) with
  | none => some record
  | some field => field.store? (.ofJson member.2) record

theorem storeMember?_exchange (independent : fields.Pairwise Independent)
    {member other : String × Json} (different : member.1 ≠ other.1) (record : ρ) :
    (storeMember? fields record member).bind (storeMember? fields · other) =
      (storeMember? fields record other).bind (storeMember? fields · member) := by
  unfold storeMember?
  cases found : fields.find? (·.key == member.1) with
  | none => simp
  | some field =>
      cases otherFound : fields.find? (·.key == other.1) with
      | none => simp
      | some otherField =>
          have key_eq : field.key = member.1 := by simpa using List.find?_some found
          have otherKey_eq : otherField.key = other.1 := by simpa using List.find?_some otherFound
          have apart : field ≠ otherField := by
            rintro rfl
            exact different (key_eq.symm.trans otherKey_eq)
          have symmetric : Std.Symm (Independent (ρ := ρ)) :=
            ⟨fun _ _ exchange document otherDocument record =>
              (exchange otherDocument document record).symm⟩
          exact independent.forall (List.mem_of_find?_eq_some found)
            (List.mem_of_find?_eq_some otherFound) apart _ _ record

theorem storeMembers?_ofMembers (fields : List (RecordField ρ)) {members : List (String × Json)}
    (nodup : (members.map Prod.fst).Nodup) {seen : List String}
    (fresh : ∀ key ∈ seen, key ∉ members.map Prod.fst) (record : ρ) :
    ∃ keys, (∀ field ∈ fields, field.key ∈ keys ↔
        field.key ∈ seen ∨ field.key ∈ members.map Prod.fst) ∧
      storeMembers? fields seen record (JsonDocument.ofMembers members) =
        (members.foldlM (storeMember? fields) record).map fun stored => (keys, stored) := by
  induction members generalizing seen record with
  | nil => exact ⟨seen, by simp, rfl⟩
  | cons member members induction =>
      obtain ⟨key, value⟩ := member
      obtain ⟨notLater, nodup⟩ := List.nodup_cons.mp nodup
      have later_fresh : ∀ other ∈ seen, other ∉ members.map Prod.fst := fun other member later =>
        fresh other member (List.mem_cons_of_mem _ later)
      rw [JsonDocument.ofMembers, storeMembers?, List.foldlM_cons, storeMember?]
      cases found : fields.find? (·.key == key) with
      | none =>
          obtain ⟨keys, keys_iff, run⟩ := induction nodup later_fresh record
          refine ⟨keys, fun field member => ?_, run⟩
          have different : field.key ≠ key := by
            simpa using List.find?_eq_none.mp found field member
          rw [keys_iff field member, List.map_cons, List.mem_cons, or_iff_right different]
      | some own =>
          have notSeen : ¬ seen.contains key = true := by
            rw [List.contains_iff_mem]
            exact fun member => fresh key member List.mem_cons_self
          have still_fresh : ∀ other ∈ key :: seen, other ∉ members.map Prod.fst :=
            List.forall_mem_cons.mpr ⟨notLater, later_fresh⟩
          have moved {keys : List String}
              (keys_iff : ∀ field ∈ fields, field.key ∈ keys ↔
                field.key ∈ key :: seen ∨ field.key ∈ members.map Prod.fst) :
              ∀ field ∈ fields, field.key ∈ keys ↔
                field.key ∈ seen ∨ field.key ∈ ((key, value) :: members).map Prod.fst := by
            intro field member
            rw [keys_iff field member, List.map_cons, List.mem_cons, List.mem_cons, or_assoc,
              or_left_comm]
          simp only [if_neg notSeen]
          cases stores : own.store? (.ofJson value) record with
          | none =>
              obtain ⟨keys, keys_iff, _⟩ := induction nodup still_fresh record
              exact ⟨keys, moved keys_iff, rfl⟩
          | some stored =>
              obtain ⟨keys, keys_iff, run⟩ := induction nodup still_fresh stored
              exact ⟨keys, moved keys_iff, run⟩

/-- A record of different members is what storing them gives, if no field is missing. -/
theorem read?_object {members : List (String × Json)} (nodup : (members.map Prod.fst).Nodup)
    (initial : ρ) :
    read? fields initial (.ofJson (.object members)) =
      if ∀ field ∈ fields, field.optional = true ∨ field.key ∈ members.map Prod.fst then
        members.foldlM (storeMember? fields) initial
      else none := by
  obtain ⟨keys, keys_iff, run⟩ := storeMembers?_ofMembers fields nodup
    (List.forall_mem_nil _) initial
  have given : ((fields.all fun field => field.optional || keys.contains field.key) = true) =
      ∀ field ∈ fields, field.optional = true ∨ field.key ∈ members.map Prod.fst := by
    rw [List.all_eq_true, eq_iff_iff]
    refine forall₂_congr fun field member => ?_
    rw [Bool.or_eq_true, List.contains_iff_mem, keys_iff field member,
      or_iff_right List.not_mem_nil]
  rw [JsonDocument.ofJson, read?, run]
  simp only [← given]
  cases members.foldlM (storeMember? fields) initial <;> simp

theorem read?_perm (independent : fields.Pairwise Independent)
    {members others : List (String × Json)} (perm : members.Perm others)
    (nodup : (members.map Prod.fst).Nodup) (initial : ρ) :
    read? fields initial (.ofJson (.object members)) =
      read? fields initial (.ofJson (.object others)) := by
  have nodup_others := (perm.map Prod.fst).nodup_iff.mp nodup
  have exchange := (List.pairwise_map.mp nodup).imp fun different =>
    storeMember?_exchange independent different
  rw [read?_object nodup, read?_object nodup_others, foldlM_perm perm exchange]
  simp only [(perm.map Prod.fst).mem_iff]

/-- A record is read from its members in order as from the members as they are listed. -/
theorem read?_ordered (independent : fields.Pairwise Independent) {members : List (String × Json)}
    (nodup : (members.map Prod.fst).Nodup) (initial : ρ) :
    read? fields initial (.ofJson (Json.ordered (.object members))) =
      read? fields initial
        (.ofJson (.object (members.map fun (key, value) => (key, value.ordered)))) := by
  rw [Json.ordered]
  have perm := (Json.orderedMembers_perm nodup).symm
  refine (read?_perm independent perm ?_ initial).symm
  rw [List.map_map]
  exact nodup

theorem read?_ordered_of_leaves (independent : fields.Pairwise Independent)
    {members : List (String × Json)} (nodup : (members.map Prod.fst).Nodup)
    (leaves : ∀ pair ∈ members, pair.2.ordered = pair.2) (initial : ρ) :
    read? fields initial (.ofJson (Json.ordered (.object members))) =
      read? fields initial (.ofJson (.object members)) := by
  have same : (members.map fun (key, value) => (key, value.ordered)) = members.map id :=
    List.map_congr_left fun pair member => Prod.ext rfl (leaves pair member)
  rw [read?_ordered independent nodup, same, List.map_id]

end RecordField

end FlowCalibration
