import FlowCalibration.Archive.Checksum
import FlowCalibration.Archive.Division
import Mathlib.Data.List.Basic
import Mathlib.Data.Nat.Bitwise

/-!
# The check as a register

The register of the check is the front of the dividend.  A bit that leaves it is a digit of the
quotient, and what has not been read yet is not seen by it, so a register that takes up a byte at a
time ends up with the remainder.
-/

namespace FlowCalibration

namespace Checksum

/-! ## Sums at the front -/

@[simp]
theorem addFront_nil_left (rest : List Bool) : addFront [] rest = rest := by
  cases rest <;> rfl

@[simp]
theorem addFront_nil_right (front : List Bool) : addFront front [] = [] := by
  cases front <;> rfl

theorem addFront_addFront {front middle : List Bool} (short : front.length ≤ middle.length)
    (rest : List Bool) :
    addFront front (addFront middle rest) = addFront (addFront front middle) rest := by
  induction front generalizing middle rest with
  | nil => simp
  | cons bit front induction =>
      cases middle with
      | nil => simp at short
      | cons digit middle =>
          cases rest with
          | nil => simp
          | cons first rest =>
              simp only [addFront, induction (Nat.le_of_succ_le_succ short), Bool.xor_assoc]

theorem addFront_append_false (front rest : List Bool) :
    addFront (front ++ [false]) rest = addFront front rest := by
  induction front generalizing rest with
  | nil =>
      cases rest with
      | nil => rfl
      | cons first rest => simp [addFront]
  | cons bit front induction =>
      cases rest with
      | nil => rfl
      | cons first rest => simp only [List.cons_append, addFront, induction]

/-- What stands in front of a text may be added to the polynomial in advance. -/
theorem addFront_append {message front : List Bool} (short : message.length ≤ front.length)
    (rest : List Bool) :
    addFront front (message ++ rest) =
      addFront (addFront message front) (List.replicate message.length false ++ rest) := by
  induction message generalizing front with
  | nil => simp
  | cons digit message induction =>
      cases front with
      | nil => simp at short
      | cons bit front =>
          simp only [List.cons_append, List.length_cons, List.replicate_succ, addFront,
            induction (Nat.le_of_succ_le_succ short), Bool.xor_false, Bool.xor_comm bit]

theorem addFront_map_range {width length : Nat} {front rest : Nat → Bool} (short : width ≤ length)
    (zeros : ∀ place, width ≤ place → front place = false) :
    addFront ((List.range width).map front) ((List.range length).map rest) =
      (List.range length).map fun place => (front place ^^ rest place) := by
  induction width generalizing length front rest with
  | zero =>
      have none (place : Nat) : front place = false := zeros place (Nat.zero_le place)
      simp [none]
  | succ width induction =>
      obtain ⟨length, rfl⟩ : ∃ smaller, length = smaller + 1 := ⟨length - 1, by omega⟩
      have later := @induction length (front ∘ Nat.succ) (rest ∘ Nat.succ)
        (Nat.le_of_succ_le_succ short) fun place wide => zeros _ (Nat.succ_le_succ wide)
      simp only [List.range_succ_eq_map, List.map_cons, List.map_map, addFront, later]
      rfl

/-! ## The register -/

/-- The bits of a register, the lowest first. -/
def registerBits (register : UInt32) : List Bool :=
  (List.range 32).map register.toNat.testBit

theorem testBit_of_le (register : UInt32) {place : Nat} (high : 32 ≤ place) :
    register.toNat.testBit place = false :=
  Nat.testBit_lt_two_pow
    (Nat.lt_of_lt_of_le register.toNat_lt (Nat.pow_le_pow_right (by decide) high))

theorem registerBits_xor (left right : UInt32) :
    registerBits (left ^^^ right) = addFront (registerBits left) (registerBits right) := by
  rw [registerBits, registerBits, registerBits,
    addFront_map_range le_rfl fun _ high => testBit_of_le left high]
  refine List.map_congr_left fun place _ => ?_
  rw [UInt32.toNat_xor, Nat.testBit_xor]

theorem registerBits_xor_byte (register : UInt32) (byte : UInt8) :
    registerBits (register ^^^ byte.toUInt32) = addFront (bitsOf byte) (registerBits register) := by
  have high (place : Nat) (wide : 8 ≤ place) : byte.toNat.testBit place = false :=
    Nat.testBit_lt_two_pow
      (Nat.lt_of_lt_of_le byte.toNat_lt (Nat.pow_le_pow_right (by decide) wide))
  rw [registerBits, registerBits, bitsOf, addFront_map_range (by decide) high]
  refine List.map_congr_left fun place _ => ?_
  rw [UInt32.toNat_xor, Nat.testBit_xor, UInt8.toNat_toUInt32, Bool.xor_comm]

/-- The lowest bit is taken from the front, and a zero comes in behind. -/
theorem registerBits_eq_cons (register : UInt32) :
    ∃ rest, registerBits register = (register.toNat.testBit 0) :: rest ∧
      registerBits (register >>> 1) = rest ++ [false] := by
  refine ⟨(List.range 31).map fun place => register.toNat.testBit (place + 1), ?_, ?_⟩
  · rw [registerBits, List.range_succ_eq_map, List.map_cons, List.map_map]
    rfl
  · have shifted (place : Nat) :
        (register >>> 1).toNat.testBit place = register.toNat.testBit (place + 1) := by
      rw [UInt32.toNat_shiftRight, Nat.testBit_shiftRight, Nat.add_comm]
      rfl
    rw [registerBits, List.range_succ, List.map_append, List.map_singleton, shifted 31,
      testBit_of_le register le_rfl]
    exact congrArg (· ++ [false]) (List.map_congr_left fun place _ => shifted place)

/-- A step of the register is a digit of the quotient. -/
theorem registerBits_shiftBit {register : UInt32} {bit : Bool} {rest : List Bool}
    (bits : registerBits register = bit :: rest) :
    registerBits (shiftBit register) =
      if bit then addFront generator (rest ++ [false]) else rest ++ [false] := by
  obtain ⟨others, bits_eq, shifted⟩ := registerBits_eq_cons register
  obtain ⟨rfl, rfl⟩ := List.cons.inj (bits.symm.trans bits_eq)
  have lowest : register &&& 1 = 1 ↔ register.toNat.testBit 0 = true := by
    rw [← UInt32.toNat_inj, UInt32.toNat_and, Nat.testBit_zero, decide_eq_true_eq]
    exact Nat.and_one_is_mod _ ▸ Iff.rfl
  have generator_eq : registerBits 0xedb88320 = generator := by decide
  rw [shiftBit]
  by_cases one : register.toNat.testBit 0 = true
  · rw [if_pos (lowest.mpr one), if_pos one, UInt32.xor_comm, registerBits_xor, generator_eq,
      shifted]
  · rw [if_neg (mt lowest.mp one), if_neg one, shifted]

/-- While zeros come in, the register goes on by itself and the rest is carried along. -/
theorem remainder_zeros (count digits : Nat) (register : UInt32) (rest : List Bool) :
    remainder (count + digits)
        (addFront (registerBits register) (List.replicate count false ++ rest)) =
      remainder digits (addFront (registerBits (Nat.repeat shiftBit count register)) rest) := by
  induction count generalizing digits rest with
  | zero => simp [Nat.repeat]
  | succ count induction =>
      obtain ⟨bit, others, bits⟩ : ∃ bit others,
          registerBits (Nat.repeat shiftBit count register) = bit :: others :=
        ⟨_, _, rfl⟩
      rw [List.replicate_succ', List.append_assoc, Nat.succ_add_eq_add_succ, induction, bits,
        Nat.repeat, registerBits_shiftBit bits, List.singleton_append, addFront, remainder,
        Bool.xor_false]
      have short : generator.length ≤ (others ++ [false]).length := by
        have length := congrArg List.length bits
        simp [registerBits, generator] at length ⊢
        omega
      cases bit with
      | false => rw [if_neg Bool.false_ne_true, if_neg Bool.false_ne_true, addFront_append_false]
      | true => rw [if_pos rfl, if_pos rfl, ← addFront_addFront short, addFront_append_false]

/-- The register after some bytes is what the division leaves of them. -/
theorem remainder_bytes (bytes : List UInt8) (register : UInt32) :
    remainder (bytes.flatMap bitsOf).length
        (addFront (registerBits register) (bytes.flatMap bitsOf ++ List.replicate 32 false)) =
      registerBits (bytes.foldl shiftByte register) := by
  induction bytes generalizing register with
  | nil =>
      have room : List.replicate 32 false = registerBits 0 := by decide
      rw [List.flatMap_nil, List.nil_append, room, ← registerBits_xor, UInt32.xor_zero]
      rfl
  | cons byte bytes induction =>
      have short : (bitsOf byte).length ≤ (registerBits register).length := by
        simp [bitsOf, registerBits]
      have eight : (bitsOf byte).length = 8 := by simp [bitsOf]
      rw [List.flatMap_cons, List.length_append, List.append_assoc, addFront_append short,
        ← registerBits_xor_byte, eight, remainder_zeros, induction, List.foldl_cons, shiftByte]

/-! ## The check -/

theorem valueOf_map_testBit (value width : Nat) :
    valueOf ((List.range width).map value.testBit) = value % 2 ^ width := by
  induction width generalizing value with
  | zero => simp [valueOf, Nat.mod_one]
  | succ width induction =>
      have higher : value.testBit ∘ Nat.succ = (value / 2).testBit :=
        funext fun place => Nat.testBit_succ value place
      rw [List.range_succ_eq_map, List.map_cons, List.map_map, higher, valueOf, induction,
        Nat.testBit_zero, Nat.pow_succ', Nat.mod_mul]
      rcases Nat.mod_two_eq_zero_or_one value with even | odd
      · simp [even]
      · simp [odd]

theorem valueOf_registerBits (register : UInt32) :
    valueOf (registerBits register) = register.toNat := by
  rw [registerBits, valueOf_map_testBit, Nat.mod_eq_of_lt register.toNat_lt]

/-- The check that is worked out byte by byte is the one by division. -/
theorem byDivision_eq (bytes : List UInt8) : byDivision bytes = (ofBytes bytes).toNat := by
  have ones : List.replicate 32 true = registerBits 0xffffffff := by decide
  have turned (register : UInt32) :
      (registerBits register).map not = registerBits (register ^^^ 0xffffffff) := by
    rw [registerBits, registerBits, List.map_map]
    refine List.map_congr_left fun place inside => ?_
    have one : (0xffffffff : UInt32).toNat.testBit place = true := by
      rw [show (0xffffffff : UInt32).toNat = 2 ^ 32 - 1 from rfl, Nat.testBit_two_pow_sub_one]
      exact decide_eq_true (List.mem_range.mp inside)
    rw [Function.comp_apply, UInt32.toNat_xor, Nat.testBit_xor, one, Bool.xor_true]
  rw [byDivision, ones]
  simp only [remainder_bytes, turned, valueOf_registerBits]
  rfl

/-- The check value of the standard. -/
example : byDivision "123456789".toUTF8.data.toList = 0xcbf43926 := by
  decide +kernel

end Checksum

end FlowCalibration
