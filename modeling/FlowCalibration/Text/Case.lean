/-!
# Letter case

Lower-casing as far as its result is an ASCII letter: besides the ASCII capitals only the Kelvin
sign has such a form.  Comparing the lower-case form of a text with an ASCII word needs no more.
-/

namespace FlowCalibration

/-- Code point of the Kelvin sign, whose lower-case form is `k`. -/
def kelvinSign : Nat := 0x212a

/-- Lower-case form of a character where it is an ASCII letter, else the character. -/
def lowerToAscii (c : Char) : Char :=
  if c.toNat = kelvinSign then 'k' else c.toLower

/-- Whether two texts agree up to the case of ASCII letters. -/
def equalIgnoringCase (left right : String) : Bool :=
  left.toList.map Char.toLower == right.toList.map Char.toLower

end FlowCalibration
