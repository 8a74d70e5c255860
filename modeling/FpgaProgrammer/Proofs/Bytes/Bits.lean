import FpgaProgrammer.Bytes

/-!
# Bytes and their bits

A byte and its eight bits determine each other: `ofBits_bitsOf` and `bitsOf_ofBits`. Reading a byte
from its other end twice gives the byte back (`reverseBits_reverseBits`). The bits of a string are
found by their place in it (`getElem?_flatMap_bitsOf`).
-/

namespace FpgaProgrammer.Bytes

/-- Eight bits, one by one. -/
theorem eq_of_length_eight {bits : List Bool} (h : bits.length = 8) :
    ∃ a b c d e f g i, bits = [a, b, c, d, e, f, g, i] := by
  match bits, h with
  | [a, b, c, d, e, f, g, i], _ => exact ⟨a, b, c, d, e, f, g, i, rfl⟩

/-- Eight bits are the bits of their byte. -/
theorem bitsOf_ofBits {bits : List Bool} (h : bits.length = 8) : bitsOf (ofBits bits) = bits := by
  obtain ⟨a, b, c, d, e, f, g, i, rfl⟩ := eq_of_length_eight h
  revert a b c d e f g i
  decide

/-- A byte is made of its bits. -/
theorem ofBits_bitsOf (byte : UInt8) : ofBits (bitsOf byte) = byte := by
  -- The kernel goes through the 256 bytes; the elaborator would be slow.
  have hall : ∀ n : Fin 256, ofBits (bitsOf (UInt8.ofNat n)) = UInt8.ofNat n := by
    decide +kernel
  have hbyte := hall ⟨byte.toNat, byte.toNat_lt⟩
  rwa [UInt8.ofNat_toNat] at hbyte

/-- The bits of a byte read from its other end. -/
theorem bitsOf_reverseBits (byte : UInt8) : bitsOf (reverseBits byte) = (bitsOf byte).reverse :=
  bitsOf_ofBits (by rw [List.length_reverse, length_bitsOf])

/-- Reading from the other end twice gives the byte. -/
@[simp]
theorem reverseBits_reverseBits (byte : UInt8) : reverseBits (reverseBits byte) = byte := by
  rw [reverseBits, bitsOf_reverseBits, List.reverse_reverse, ofBits_bitsOf]

theorem or_and (a b c : UInt8) : (a ||| b) &&& c = (a &&& c) ||| (b &&& c) := by
  apply UInt8.toBitVec_inj.mp
  ext i hi
  simp [Bool.and_or_distrib_right]

/-! ## Bits of a string -/

/-- A string of bytes that are read twice from their other ends. -/
theorem map_reverseBits (bytes : Bytes) : (bytes.map reverseBits).map reverseBits = bytes := by
  induction bytes with
  | nil => rfl
  | cons byte bytes ih => rw [List.map_cons, List.map_cons, reverseBits_reverseBits, ih]

theorem length_flatMap_bitsOf (bytes : Bytes) :
    (bytes.flatMap bitsOf).length = 8 * bytes.length := by
  induction bytes with
  | nil => rfl
  | cons byte bytes ih =>
    rw [List.flatMap_cons, List.length_append, length_bitsOf, ih, List.length_cons, Nat.mul_succ,
      Nat.add_comm]

/-- The bits of a string are those of its bytes, one byte after the other. -/
theorem getElem?_flatMap_bitsOf {bytes : Bytes} {i : Nat} (h : i < 8 * bytes.length) :
    (bytes.flatMap bitsOf)[i]? = some ((bytes.getD (i / 8) 0).toNat.testBit (7 - i % 8)) := by
  -- On the bytes: a place is in the first one, or eight further back in the others.
  induction bytes generalizing i with
  | nil => exact absurd h (Nat.not_lt_zero i)
  | cons byte bytes ih =>
    rw [List.flatMap_cons]
    rcases Nat.lt_or_ge i 8 with hi | hi
    · rw [List.getElem?_append_left (by rwa [length_bitsOf]), bitsOf, List.getElem?_map,
        List.getElem?_range hi, Nat.div_eq_of_lt hi, Nat.mod_eq_of_lt hi]
      rfl
    · obtain ⟨j, rfl⟩ := Nat.exists_eq_add_of_le hi
      have hj : j < 8 * bytes.length := by
        rw [List.length_cons] at h
        omega
      have hdiv : (8 + j) / 8 = j / 8 + 1 := by omega
      rw [List.getElem?_append_right (by rw [length_bitsOf]; exact hi), length_bitsOf,
        Nat.add_sub_cancel_left, ih hj, hdiv, Nat.add_mod_left, List.getD_cons_succ]

end FpgaProgrammer.Bytes
