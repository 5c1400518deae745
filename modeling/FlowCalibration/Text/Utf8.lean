/-!
# Texts as bytes
-/

namespace FlowCalibration

namespace Utf8

/-- The bytes of a text in UTF-8. -/
def encode (text : String) : List UInt8 :=
  text.toUTF8.data.toList

/-- The text of bytes in UTF-8. -/
def decode? (bytes : List UInt8) : Option String :=
  String.fromUTF8? ⟨bytes.toArray⟩

end Utf8

end FlowCalibration
