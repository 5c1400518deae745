/-!
# The check of archives as a remainder

The check is a remainder in the division of polynomials over two elements.  A polynomial is the
list of its coefficients, the highest first, so the bits of a message are a polynomial in the order
in which they are sent: byte after byte, the lowest bit of a byte first.
-/

namespace FlowCalibration

namespace Checksum

/-- The sum of a polynomial and the front of another. -/
def addFront : List Bool → List Bool → List Bool
  | bit :: front, digit :: rest => (bit ^^ digit) :: addFront front rest
  | _, rest => rest

/-- The powers in the generator of the check, besides the thirty-second. -/
def powers : List Nat :=
  [26, 23, 22, 16, 12, 11, 10, 8, 7, 5, 4, 2, 1, 0]

/-- The generator without its highest coefficient. -/
def generator : List Bool :=
  (List.range 32).map fun place => powers.contains (31 - place)

/-- What is left of a dividend after a number of digits of the quotient. -/
def remainder : Nat → List Bool → List Bool
  | count + 1, digit :: rest => remainder count (if digit then addFront generator rest else rest)
  | _, dividend => dividend

/-- The bits of a byte, the lowest first. -/
def bitsOf (byte : UInt8) : List Bool :=
  (List.range 8).map byte.toNat.testBit

/-- The number of bits, the lowest first. -/
def valueOf : List Bool → Nat
  | [] => 0
  | bit :: tail => bit.toNat + 2 * valueOf tail

/-- The check of bytes: the message, with room for the remainder behind it, is divided by the
generator.  The first thirty-two bits of the dividend and all bits of the remainder are turned
over. -/
def byDivision (bytes : List UInt8) : Nat :=
  let message := bytes.flatMap bitsOf
  let dividend := addFront (List.replicate 32 true) (message ++ List.replicate 32 false)
  valueOf ((remainder message.length dividend).map not)

end Checksum

end FlowCalibration
