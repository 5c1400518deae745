import FlowCalibration.Json.Document

/-!
# Strict records

A record is read from an object whose members are its fields in any order, or from an array of its
fields in the order of their declaration.  Members that name no field are skipped unread, a field
given twice is refused, and so is a missing field that has no default.
-/

namespace FlowCalibration

namespace JsonDocument

/-! ## Values of fields -/

/-- The double of a number in range. -/
def toFloat? : JsonDocument → Option Float
  | number (some value) => some value.toFloat
  | _ => none

/-- The count of a number that is whole and not negative. -/
def toCount? : JsonDocument → Option Nat
  | number (some value) => value.toCount?
  | _ => none

/-- The characters of a text. -/
def toText? : JsonDocument → Option String
  | text value => value
  | _ => none

/-- A value that `null` leaves out. -/
def toOptional? {α : Type} (read? : JsonDocument → Option α) : JsonDocument → Option (Option α)
  | null => some none
  | document => (read? document).map some

/-- Choose among named constants: the name stands alone or is the only key of an object that holds
`null`. -/
def toConstant? {α : Type} (constants : List (String × α)) : JsonDocument → Option α
  | text (some name) => constants.lookup name
  | object [(some name, null)] => constants.lookup name
  | _ => none

/-- A list, each element read on its own. -/
def toList? {α : Type} (read? : JsonDocument → Option α) : JsonDocument → Option (List α)
  | array elements => elements.mapM read?
  | _ => none

end JsonDocument

/-- A field of a record type. -/
structure RecordField (ρ : Type) where
  /-- Key of the field in an object. -/
  key : String
  /-- Whether the field may be missing. -/
  optional : Bool
  /-- Store the value that a document gives for the field. -/
  store? : JsonDocument → ρ → Option ρ

namespace RecordField

variable {ρ : Type}

/-- Store the members of an object one after the other; `seen` are the keys stored before. -/
def storeMembers? (fields : List (RecordField ρ)) (seen : List String) (record : ρ) :
    List (Option String × JsonDocument) → Option (List String × ρ)
  | [] => some (seen, record)
  | (none, _) :: _ => none
  | (some key, value) :: tail =>
      match fields.find? (·.key == key) with
      | none => storeMembers? fields seen record tail
      | some field =>
          if seen.contains key then none
          else (field.store? value record).bind (storeMembers? fields (key :: seen) · tail)

/-- Store the elements of an array into the fields of their places. -/
def storeElements? (record : ρ) : List (RecordField ρ) → List JsonDocument → Option ρ
  | fields, [] => if fields.all (·.optional) then some record else none
  | [], _ :: _ => none
  | field :: fields, value :: tail =>
      (field.store? value record).bind (storeElements? · fields tail)

/-- Read a record; fields that are not given keep their value in `initial`. -/
def read? (fields : List (RecordField ρ)) (initial : ρ) : JsonDocument → Option ρ
  | .object members =>
      match storeMembers? fields [] initial members with
      | none => none
      | some (seen, record) =>
          if fields.all fun field => field.optional || seen.contains field.key then some record
          else none
  | .array elements => storeElements? initial fields elements
  | _ => none

end RecordField

end FlowCalibration
