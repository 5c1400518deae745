import FlowCalibration.Json.Basic
import FlowCalibration.Toml.Text

/-!
# Tables of TOML

A document fills its tables piece by piece, and some pieces exclude others: a table has one header,
a key one value, and dotted keys may only add to tables that dotted keys have made.  A table
remembers how it came about for as long as that decides what may still be added.
`TomlTable.within?` walks down a dotted key; headers and pairs differ in what they do at its end.
-/

namespace FlowCalibration

/-- How a table came about. -/
inductive TableOrigin
  /-- By a header, or as the table of the whole document. -/
  | header
  /-- On the way to a deeper header. -/
  | passed
  /-- By a dotted key. -/
  | dotted
  deriving DecidableEq, Repr

/-- What stands under a key. -/
inductive TomlItem
  /-- A value, complete as it was written. -/
  | value (value : Json)
  /-- A table to which more may be added. -/
  | table (origin : TableOrigin) (members : List (String × TomlItem))
  /-- A list of tables with one header each, the last one in front. -/
  | tables (last : List (String × TomlItem)) (before : List (List (String × TomlItem)))

/-- Items under keys. -/
abbrev TomlTable := KeyTable TomlItem

namespace TomlTable

open Toml (KeyPath)

/-- Change the table to which keys lead, starting from a table of a given origin.  Tables that are
missing on the way are made with the origin `made`; the last table of a list stands for the list.
Dotted keys do not enter tables that have a header. -/
def within? (made : TableOrigin) (change : TableOrigin → TomlTable → Option TomlTable)
    (origin : TableOrigin) (members : TomlTable) : List String → Option TomlTable
  | [] => change origin members
  | key :: path =>
      match KeyTable.find? members key with
      | none =>
          (within? made change made [] path).map fun inner =>
            KeyTable.insert members key (.table made inner)
      | some (.value _) => none
      | some (.table held inner) =>
          if made = .dotted ∧ held = .header then none
          else
            (within? made change held inner path).map fun inner =>
              KeyTable.insert members key (.table held inner)
      | some (.tables last before) =>
          (within? made change .header last path).map fun last =>
            KeyTable.insert members key (.tables last before)

/-- Begin the table of a header.  A table that was only passed on the way to deeper headers may
still get its own. -/
def beginTable? (path : KeyPath) (root : TomlTable) : Option TomlTable :=
  within? .passed
    (fun _ members =>
      match KeyTable.find? members path.name with
      | none => some (KeyTable.insert members path.name (.table .header []))
      | some (.table .passed inner) =>
          some (KeyTable.insert members path.name (.table .header inner))
      | some _ => none)
    .header root path.table

/-- Begin another table of a list of tables. -/
def beginElement? (path : KeyPath) (root : TomlTable) : Option TomlTable :=
  within? .passed
    (fun _ members =>
      match KeyTable.find? members path.name with
      | none => some (KeyTable.insert members path.name (.tables [] []))
      | some (.tables last before) =>
          some (KeyTable.insert members path.name (.tables [] (last :: before)))
      | some _ => none)
    .header root path.table

/-- Add a pair to a table.  A dotted key has to end in a table that dotted keys have made. -/
def addPair? (path : KeyPath) (value : Json) (members : TomlTable) : Option TomlTable :=
  within? .dotted
    (fun origin members =>
      if (path.table ≠ [] ∧ origin ≠ .dotted) ∨ KeyTable.contains members path.name then none
      else some (KeyTable.insert members path.name (.value value)))
    .header members path.table

/-- Add a pair to the table of the header above it. -/
def addPairAt? (header : List String) (path : KeyPath) (value : Json) (root : TomlTable) :
    Option TomlTable :=
  within? .passed (fun _ members => addPair? path value members) .header root header

end TomlTable

mutual

/-- The value of an item. -/
def TomlItem.toJson : TomlItem → Json
  | .value value => value
  | .table _ members => .object (TomlTable.toMembers members)
  | .tables last before => .array (TomlTable.toElements before [.object (TomlTable.toMembers last)])

/-- The members of a table as they stand in an object. -/
def TomlTable.toMembers : List (String × TomlItem) → List (String × Json)
  | [] => []
  | (key, item) :: tail => (key, item.toJson) :: TomlTable.toMembers tail

/-- The tables of a list in front of the elements in `after`. -/
def TomlTable.toElements : List (List (String × TomlItem)) → List Json → List Json
  | [], after => after
  | members :: before, after =>
      TomlTable.toElements before (.object (TomlTable.toMembers members) :: after)

end

/-- The object of a table. -/
def TomlTable.toJson (members : TomlTable) : Json :=
  .object (TomlTable.toMembers members)

end FlowCalibration
