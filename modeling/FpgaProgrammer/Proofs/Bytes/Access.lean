import FpgaProgrammer.Proofs.Bytes.Bits
import FpgaProgrammer.Proofs.Bytes.Blocks

/-!
# Checked accesses to bytes

Operations on buffers of fixed length that are refused, with `none`, when an index lies outside of
the buffer or a byte is shifted by more than its bits. Where an operation is not refused it is one
on byte strings:

* `copyInto?_eq`: copying as much as fits; into zeros that is `fit` (`copyInto?_replicate`).
* `overwrite?_eq`: replacing the first bytes.
* `wordAt?_eq`: the word that starts a buffer.
* `setBits?_eq`: setting bits one by one; of whole bytes that come one bit late it gives the packed
  bits (`setBits?_late`).
-/

namespace FpgaProgrammer.Bytes

variable {α : Type}

/-! ## Slices -/

/-- The first `n` elements, if there are so many. -/
def front? (n : Nat) (xs : List α) : Option (List α) :=
  if n ≤ xs.length then some (xs.take n) else none

/-- The elements from `n` on, if there are so many before. -/
def rest? (n : Nat) (xs : List α) : Option (List α) :=
  if n ≤ xs.length then some (xs.drop n) else none

/-- A difference that must not be negative. -/
def difference? (a b : Nat) : Option Nat :=
  if b ≤ a then some (a - b) else none

theorem front?_eq {n : Nat} {xs : List α} (h : n ≤ xs.length) : front? n xs = some (xs.take n) :=
  if_pos h

theorem rest?_eq {n : Nat} {xs : List α} (h : n ≤ xs.length) : rest? n xs = some (xs.drop n) :=
  if_pos h

theorem difference?_eq {a b : Nat} (h : b ≤ a) : difference? a b = some (a - b) :=
  if_pos h

/-- Replaces the first `n` elements of a buffer by a string of exactly `n`. -/
def overwrite? (n : Nat) (source target : List α) : Option (List α) := do
  let _ ← front? n target
  if source.length = n then some (source ++ target.drop n) else none

theorem overwrite?_eq {n : Nat} {source target : List α} (hsource : source.length = n)
    (htarget : n ≤ target.length) :
    overwrite? n source target = some (source ++ target.drop n) := by
  rw [overwrite?, front?_eq htarget]
  exact if_pos hsource

/-- Copies as many elements into a buffer as both have. -/
def copyInto? (source target : List α) : Option (List α) := do
  let n := min source.length target.length
  let source ← front? n source
  overwrite? n source target

theorem copyInto?_eq (source target : List α) :
    copyInto? source target =
      some (source.take target.length ++ target.drop source.length) := by
  have htake : source.take (min source.length target.length) = source.take target.length := by
    rw [Nat.min_comm, ← List.take_take, List.take_length]
  have hdrop : target.drop (min source.length target.length) = target.drop source.length := by
    rcases Nat.le_total source.length target.length with h | h
    · rw [Nat.min_eq_left h]
    · rw [Nat.min_eq_right h, List.drop_length, List.drop_of_length_le h]
  rw [copyInto?, front?_eq (Nat.min_le_left ..), Option.bind_eq_bind, Option.bind_some,
    overwrite?_eq (List.length_take_of_le (Nat.min_le_left ..)) (Nat.min_le_right ..), htake, hdrop]

/-- Copying into zeros cuts or continues the string. -/
theorem copyInto?_replicate (source : Bytes) (n : Nat) :
    copyInto? source (List.replicate n 0) = some (fit n source) := by
  rw [copyInto?_eq, List.length_replicate, List.drop_replicate]
  rfl

theorem fit_nil (length : Nat) : fit length [] = List.replicate length 0 := by
  rw [fit, fitWith, List.take_nil, List.nil_append, List.length_nil, Nat.sub_zero]

/-- Overwriting the start of zeros continues the string. -/
theorem overwrite?_replicate {n length : Nat} {source : Bytes} (hsource : source.length = n)
    (h : n ≤ length) :
    overwrite? n source (List.replicate length 0) = some (fit length source) := by
  rw [overwrite?_eq hsource (by rwa [List.length_replicate]), List.drop_replicate, fit,
    fitWith, List.take_of_length_le (by omega), hsource]

/-- What was cut to a length that holds it is cut as before. -/
theorem fit_fit {length : Nat} {bytes : Bytes} (h : bytes.length ≤ length) (n : Nat) :
    fit n (fit length bytes) = fit n bytes := by
  have hcut : bytes.take length = bytes := List.take_of_length_le h
  have hzeros : min (n - bytes.length) (length - bytes.length) + (n - length) =
      n - bytes.length := by omega
  unfold fit fitWith
  rw [hcut, List.take_append, List.take_replicate, List.append_assoc, List.length_append,
    List.length_replicate, Nat.add_sub_cancel' h, List.replicate_append_replicate, hzeros]

/-! ## Words -/

/-- The word whose bytes, least significant first, are the first four. -/
def wordAt? (bytes : Bytes) : Option UInt32 := do
  let a ← bytes[0]?
  let b ← bytes[1]?
  let c ← bytes[2]?
  let d ← bytes[3]?
  some (wordLE [a, b, c, d])

theorem wordAt?_eq {bytes : Bytes} (h : 4 ≤ bytes.length) :
    wordAt? bytes = some (wordLE bytes) := by
  match bytes, h with
  | _ :: _ :: _ :: _ :: _, _ => rfl

/-! ## Bits -/

/-- A byte shifted right by fewer than its eight bits. -/
def shiftRight? (byte : UInt8) (count : Nat) : Option UInt8 :=
  if count < 8 then some (byte >>> count.toUInt8) else none

/-- A byte shifted left by fewer than its eight bits. -/
def shiftLeft? (byte : UInt8) (count : Nat) : Option UInt8 :=
  if count < 8 then some (byte <<< count.toUInt8) else none

/-- A mask that moves down from the highest bit selects the bits of a byte in turn. -/
theorem and_shiftRight_bne {count : Nat} (h : count < 8) (byte : UInt8) :
    (byte &&& (0x80 >>> count.toUInt8) != 0) = (bitsOf byte).getD count false := by
  -- The kernel goes through the eight masks and the 256 bytes.
  have hall : ∀ (i : Fin 8) (n : Fin 256),
      (UInt8.ofNat n &&& (0x80 >>> i.val.toUInt8) != 0) =
        (bitsOf (UInt8.ofNat n)).getD i false := by
    decide +kernel
  have hbyte := hall ⟨count, h⟩ ⟨byte.toNat, byte.toNat_lt⟩
  rwa [UInt8.ofNat_toNat] at hbyte

/-- A bit of a string, the lowest of each byte first. -/
def bitAt (bytes : Bytes) (position : Nat) : Bool :=
  (bytes.getD (position / 8) 0).toNat.testBit (position % 8)

/-- Strings of one length with the same bits are equal. -/
theorem eq_of_bitAt {xs ys : Bytes} (hlength : xs.length = ys.length)
    (h : ∀ position, bitAt xs position = bitAt ys position) : xs = ys := by
  refine List.ext_getElem hlength fun i hx hy => UInt8.toNat_inj.mp ?_
  refine Nat.eq_of_testBit_eq fun j => ?_
  rcases Nat.lt_or_ge j 8 with hj | hj
  · have hbit := h (8 * i + j)
    have hdiv : (8 * i + j) / 8 = i := by omega
    have hmod : (8 * i + j) % 8 = j := by omega
    simpa [bitAt, hdiv, hmod, hx, hy] using hbit
  · have hbyte : ∀ byte : UInt8, byte.toNat.testBit j = false := fun byte =>
      Nat.testBit_lt_two_pow
        (Nat.lt_of_lt_of_le byte.toNat_lt (Nat.pow_le_pow_right (by decide) hj))
    rw [hbyte, hbyte]

/-- Sets a bit of a buffer, the lowest of each byte first. -/
def setBit? (position : Nat) (bytes : Bytes) : Option Bytes := do
  let byte ← bytes[position / 8]?
  let mask ← shiftLeft? 1 (position % 8)
  some (bytes.set (position / 8) (byte ||| mask))

theorem testBit_or_shiftLeft (byte : UInt8) {i j : Nat} (hi : i < 8) (hj : j < 8) :
    (byte ||| (1 <<< i.toUInt8)).toNat.testBit j = (byte.toNat.testBit j || i == j) := by
  have hall : ∀ i j : Fin 8, (1 <<< i.val.toUInt8 : UInt8).toNat.testBit j = (i.val == j.val) := by
    decide
  rw [UInt8.toNat_or, Nat.testBit_or, hall ⟨i, hi⟩ ⟨j, hj⟩]

/-- A bit is set within the buffer, and no other bit changes. -/
theorem setBit?_eq {position : Nat} {bytes : Bytes} (h : position < 8 * bytes.length) :
    ∃ after, setBit? position bytes = some after ∧ after.length = bytes.length ∧
      ∀ other, bitAt after other = (bitAt bytes other || position == other) := by
  have hindex : position / 8 < bytes.length := by omega
  have hbit : position % 8 < 8 := Nat.mod_lt _ (by decide)
  refine ⟨bytes.set (position / 8) (bytes[position / 8] ||| (1 <<< (position % 8).toUInt8)),
    ?_, List.length_set, fun other => ?_⟩
  · rw [setBit?, List.getElem?_eq_getElem hindex, shiftLeft?, if_pos hbit]
    rfl
  · -- One byte is replaced, in which the bit is set and the others stay.
    by_cases hbyte : position / 8 = other / 8
    · have hsame : (position % 8 == other % 8) = (position == other) := by
        rw [Bool.eq_iff_iff, beq_iff_eq, beq_iff_eq]
        omega
      have hold : bytes.getD (position / 8) 0 = bytes[position / 8] := by
        rw [List.getD_eq_getElem?_getD, List.getElem?_eq_getElem hindex, Option.getD_some]
      rw [bitAt, bitAt, ← hbyte, hold, List.getD_eq_getElem?_getD, List.getElem?_set_self hindex,
        Option.getD_some, testBit_or_shiftLeft _ hbit (Nat.mod_lt _ (by decide)), hsame]
    · have hother : (position == other) = false := by
        rw [beq_eq_false_iff_ne]
        exact fun h => hbyte (congrArg (· / 8) h)
      rw [hother, Bool.or_false, bitAt, bitAt, List.getD_eq_getElem?_getD,
        List.getElem?_set_ne hbyte, ← List.getD_eq_getElem?_getD]

/-- Sets bits of a buffer from a position on, as far as they lie before `stop`. -/
def setBits? (stop : Nat) : (position : Nat) → (values : List Bool) → Bytes → Option Bytes
  | _, [], bytes => some bytes
  | position, value :: values, bytes =>
    if value && position < stop then do
      setBits? stop (position + 1) values (← setBit? position bytes)
    else
      setBits? stop (position + 1) values bytes

/-- The first value is set, or left out, before the others. -/
theorem setBits?_cons {stop : Nat} (value : Bool) (values : List Bool) (position : Nat)
    {bytes : Bytes} (h : stop ≤ 8 * bytes.length) :
    ∃ middle, setBits? stop position (value :: values) bytes =
        setBits? stop (position + 1) values middle ∧
      middle.length = bytes.length ∧
      ∀ other, bitAt middle other =
        (bitAt bytes other || (value && decide (position < stop) && position == other)) := by
  by_cases hset : (value && decide (position < stop)) = true
  · have hposition := of_decide_eq_true (Bool.and_eq_true_iff.mp hset).2
    obtain ⟨middle, hmiddle, hlength, hbits⟩ := setBit?_eq (Nat.lt_of_lt_of_le hposition h)
    refine ⟨middle, ?_, hlength, fun other => by rw [hbits, hset, Bool.true_and]⟩
    rw [setBits?, if_pos hset, hmiddle]
    rfl
  · refine ⟨bytes, by rw [setBits?, if_neg hset], rfl, fun other => ?_⟩
    rw [(Bool.not_eq_true _).mp hset, Bool.false_and, Bool.or_false]

/-- Up to `stop` the bits of the values are added, and nothing else changes. -/
theorem setBits?_eq {stop : Nat} (values : List Bool) (position : Nat) {bytes : Bytes}
    (h : stop ≤ 8 * bytes.length) :
    ∃ after, setBits? stop position values bytes = some after ∧ after.length = bytes.length ∧
      ∀ other, bitAt after other = (bitAt bytes other ||
        (decide (position ≤ other ∧ other < stop) && values.getD (other - position) false)) := by
  induction values generalizing position bytes with
  | nil => exact ⟨bytes, rfl, rfl, fun other => by simp⟩
  | cons value values ih =>
    obtain ⟨middle, hmiddle, hlength, hbits⟩ := setBits?_cons value values position h
    obtain ⟨after, hafter, hlength', hbits'⟩ := ih (position + 1) (hlength ▸ h)
    refine ⟨after, hmiddle.trans hafter, hlength'.trans hlength, fun other => ?_⟩
    rw [hbits', hbits, Bool.or_assoc]
    congr 1
    -- A bit is at this position, before it, or one of the rest.
    rcases Nat.lt_trichotomy other position with hbefore | rfl | hafter
    · have hne : (position == other) = false := beq_eq_false_iff_ne.mpr (by omega)
      have h₁ : ¬(position ≤ other ∧ other < stop) := by omega
      have h₂ : ¬(position + 1 ≤ other ∧ other < stop) := by omega
      simp only [hne, decide_eq_false h₁, decide_eq_false h₂, Bool.and_false, Bool.false_and,
        Bool.or_false]
    · have hrest : ¬(other + 1 ≤ other ∧ other < stop) := by omega
      have hhere : (other ≤ other ∧ other < stop) = (other < stop) := by simp
      rw [decide_eq_false hrest, Bool.false_and, Bool.or_false, beq_self_eq_true, Bool.and_true,
        Nat.sub_self, List.getD_cons_zero, Bool.and_comm]
      simp only [hhere]
    · have hne : (position == other) = false := beq_eq_false_iff_ne.mpr (by omega)
      have hindex : other - position = other - (position + 1) + 1 := by omega
      have hlater : (position ≤ other ∧ other < stop) = (position + 1 ≤ other ∧ other < stop) := by
        apply propext
        omega
      simp only [hne, Bool.and_false, Bool.false_or, hindex, List.getD_cons_succ, hlater]

/-! ## Buffers of bits -/

/-- The bits of a byte, shifted down one by one, with every shift checked. -/
def bitsOf? (byte : UInt8) : Option (List Bool) :=
  (List.range 8).reverse.mapM fun count => do
    let shifted ← shiftRight? byte count
    some (shifted &&& 1 != 0)

theorem bitsOf?_eq (byte : UInt8) : bitsOf? byte = some (bitsOf byte) := by
  -- The kernel goes through the 256 bytes.
  have hall : ∀ n : Fin 256, bitsOf? (UInt8.ofNat n) = some (bitsOf (UInt8.ofNat n)) := by
    decide +kernel
  have hbyte := hall ⟨byte.toNat, byte.toNat_lt⟩
  rwa [UInt8.ofNat_toNat] at hbyte

theorem mapM_bitsOf? (bytes : Bytes) : bytes.mapM bitsOf? = some (bytes.map bitsOf) := by
  induction bytes with
  | nil => rfl
  | cons byte bytes ih =>
    rw [List.mapM_cons, bitsOf?_eq, ih]
    rfl

/-- The byte that holds up to eight bits, the first one lowest. -/
def packedByte (bits : List Bool) : UInt8 :=
  reverseBits (ofBits (bits ++ List.replicate (8 - bits.length) false))

theorem testBit_packedByte {bits : List Bool} (h : bits.length ≤ 8) {i : Nat} (hi : i < 8) :
    (packedByte bits).toNat.testBit i = bits.getD i false := by
  -- Eight bits are few enough to look at every byte; fewer bits are padded with zeros to eight.
  have hfull : ∀ (a b c d e f g j : Bool) (i : Fin 8),
      (reverseBits (ofBits [a, b, c, d, e, f, g, j])).toNat.testBit i =
        [a, b, c, d, e, f, g, j].getD i false := by
    decide +kernel
  have hlength : (bits ++ List.replicate (8 - bits.length) false).length = 8 := by
    rw [List.length_append, List.length_replicate]
    omega
  have hpadded : (bits ++ List.replicate (8 - bits.length) false).getD i false =
      bits.getD i false := by
    rw [List.getD_eq_getElem?_getD, List.getD_eq_getElem?_getD, List.getElem?_append,
      List.getElem?_replicate]
    split
    · rfl
    · rename_i houtside
      rw [List.getElem?_eq_none (Nat.le_of_not_lt houtside)]
      split <;> rfl
  obtain ⟨a, b, c, d, e, f, g, j, hbits⟩ := eq_of_length_eight hlength
  rw [packedByte, ← hpadded, hbits]
  exact hfull a b c d e f g j ⟨i, hi⟩

/-- The bytes that hold bits, the first bit lowest in the first byte. -/
def packed (bits : List Bool) : Bytes :=
  (blocks 8 bits).map packedByte

theorem length_packed (bits : List Bool) : (packed bits).length = blockCount 8 bits.length := by
  rw [packed, List.length_map, length_blocks]

/-- Packed bits are found in order; what is left of the last byte is zero. -/
theorem bitAt_packed (bits : List Bool) (position : Nat) :
    bitAt (packed bits) position = bits.getD position false := by
  rw [bitAt, packed, List.getD_eq_getElem?_getD, List.getElem?_map, List.getD_eq_getElem?_getD]
  rcases Nat.lt_or_ge (position / 8) (blockCount 8 bits.length) with hblock | hblock
  · have hbit : position % 8 < 8 := Nat.mod_lt _ (by decide)
    rw [getElem?_blocks hblock, Option.map_some, Option.getD_some,
      testBit_packedByte (List.length_take_le ..) hbit, List.getD_eq_getElem?_getD,
      List.getElem?_take_of_lt hbit, List.getElem?_drop, Nat.div_add_mod]
  · -- All bits are in the blocks.
    have hmul := le_mul_blockCount (n := 8) (by decide) bits.length
    have hblocks : (blocks 8 bits)[position / 8]? = none :=
      List.getElem?_eq_none (by rwa [length_blocks])
    have hbits : bits[position]? = none := List.getElem?_eq_none (by omega)
    rw [hblocks, hbits]
    exact Nat.zero_testBit _

/-- Setting the bits of whole bytes one position late gives the bits behind one that is clear. -/
theorem setBits?_late (bits : Nat) {driven : Bytes} (h : driven.length = bits / 8) :
    setBits? bits 1 (driven.flatMap bitsOf) (List.replicate (blockCount 8 bits) 0) =
      some (packed ((false :: driven.flatMap bitsOf).take bits)) := by
  have hzeros : ∀ position, bitAt (List.replicate (blockCount 8 bits) 0) position = false := by
    intro position
    rw [bitAt, List.getD_eq_getElem?_getD, List.getElem?_replicate]
    split <;> exact Nat.zero_testBit _
  have hfits : bits ≤ 8 * (List.replicate (blockCount 8 bits) (0 : UInt8)).length := by
    rw [List.length_replicate]
    exact le_mul_blockCount (by decide) bits
  -- Both buffers are of one length, so it is enough to compare them bit by bit.
  obtain ⟨after, hafter, hlength, hbits⟩ := setBits?_eq (driven.flatMap bitsOf) 1 hfits
  rw [hafter]
  congr 1
  refine eq_of_bitAt ?_ fun position => ?_
  · rw [hlength, List.length_replicate, length_packed, List.length_take, List.length_cons,
      length_flatMap_bitsOf, h]
    unfold blockCount
    omega
  · rw [hbits, hzeros, Bool.false_or, bitAt_packed, List.getD_eq_getElem?_getD,
      List.getD_eq_getElem?_getD, List.getElem?_take]
    cases position with
    | zero =>
      -- The first bit is before the position from which bits are set, and stays clear.
      have hstart : ¬(1 ≤ 0 ∧ 0 < bits) := by omega
      rw [decide_eq_false hstart, Bool.false_and]
      split <;> rfl
    | succ position =>
      rw [List.getElem?_cons_succ, Nat.add_sub_cancel]
      by_cases hstop : position + 1 < bits <;> simp [hstop]

end FpgaProgrammer.Bytes
