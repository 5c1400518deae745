import FlowCalibration.Printer.Normalize

/-!
# Printer catalogs

An ordered list of printers, chosen by number or by name.
-/

namespace FlowCalibration

/-- Why a catalog cannot be used. -/
inductive CatalogError
  /-- No printer has the name. -/
  | notFound (selector : String)
  /-- The catalog is no list. -/
  | notAList
  /-- The text is no JSON. -/
  | json
  /-- A profile is refused. -/
  | profile (error : ProfileError)
  /-- The file cannot be read. -/
  | unreadable
  deriving DecidableEq

namespace CatalogError

/-- Wording of the errors that this library words itself. -/
def message? : CatalogError → Option String
  | notFound selector => some ("Profile not found: " ++ selector)
  | notAList => some "Failed to load profiles: expected a JSON array of profiles"
  | profile error => some ("Validation error: " ++ error.message)
  | json | unreadable => none

end CatalogError

/-- An ordered list of printers. -/
structure PrinterCatalog where
  profiles : List PrinterProfile

namespace PrinterCatalog

/-- The catalog in which printers are looked up when no other is given. -/
def builtin : PrinterCatalog where
  profiles :=
    [ { model := "A1 Mini", buildVolume := ⟨180.0, 180.0, 180.0⟩, bedMarginX := some 10.0,
        bedMarginY := some 10.0, xSpacing := some 13.0, ySpacing := some 20.0 },
      { model := "A1", buildVolume := ⟨256.0, 256.0, 256.0⟩, bedMarginX := some 10.0,
        bedMarginY := some 10.0, xSpacing := some 25.0, ySpacing := some 25.0 },
      { model := "X1/P1", buildVolume := ⟨256.0, 256.0, 256.0⟩, bedMarginX := some 10.0,
        bedMarginY := some 10.0, xSpacing := some 25.0, ySpacing := some 25.0,
        excludedAreas := [⟨0.0, 0.0, 18.0, 28.0⟩] },
      { model := "H2D", buildVolume := ⟨350.0, 320.0, 325.0⟩, bedMarginX := some 30.0,
        bedMarginY := some 10.0, xSpacing := some 25.0, ySpacing := some 25.0 },
      { model := "H2S", buildVolume := ⟨340.0, 320.0, 340.0⟩, bedMarginX := some 10.0,
        bedMarginY := some 10.0, xSpacing := some 25.0, ySpacing := some 25.0 } ]

/-- Number of printers. -/
def size (catalog : PrinterCatalog) : Nat :=
  catalog.profiles.length

/-- Whether there is no printer. -/
def isEmpty (catalog : PrinterCatalog) : Bool :=
  catalog.profiles.isEmpty

/-- The printer at a place. -/
def get? (catalog : PrinterCatalog) (index : Nat) : Option PrinterProfile :=
  catalog.profiles[index]?

/-- The printer at a place, unknown outside the catalog. -/
def getOrUnknown (catalog : PrinterCatalog) (index : Nat) : PrinterProfile :=
  (catalog.get? index).getD .unknown

/-- Place and profile of the first printer with a name; the case of ASCII letters and blanks around
the name do not matter. -/
def findByModel? (catalog : PrinterCatalog) (name : String) : Option (Nat × PrinterProfile) :=
  let wanted := trimText name
  (catalog.profiles.zipIdx.find? fun entry => equalIgnoringCase entry.1.model wanted).map
    fun (profile, index) => (index, profile)

/-- The number that a text of digits stands for, with blanks around it and a plus sign in front
allowed; it has to fit 64 bits. -/
def selectorNumber? (selector : String) : Option Nat :=
  let unsigned :=
    match trim selector.toList with
    | '+' :: digits => digits
    | digits => digits
  if unsigned.isEmpty || !unsigned.all Char.isDigit then none
  else if digitsValue unsigned ≤ JsonDocument.wordMax then some (digitsValue unsigned)
  else none

/-- The place that a selector stands for: a number as it is, even outside the catalog, else the
place of the printer with that name. -/
def select (catalog : PrinterCatalog) (selector : String) : Except CatalogError Nat :=
  match selectorNumber? selector with
  | some index => .ok index
  | none =>
      match catalog.findByModel? selector with
      | some (index, _) => .ok index
      | none => .error (.notFound selector)

/-- The catalog of loose profiles; the first profile that is refused counts. -/
def ofProfiles (values : List Json) : Except CatalogError PrinterCatalog :=
  match values.mapM PrinterProfile.normalize with
  | .ok profiles => .ok ⟨profiles⟩
  | .error error => .error (.profile error)

/-- The catalog of a JSON text. -/
def parse (text : String) : Except CatalogError PrinterCatalog :=
  match Json.parse? text with
  | none => .error .json
  | some (.array values) => ofProfiles values
  | some _ => .error .notAList

end PrinterCatalog

end FlowCalibration
