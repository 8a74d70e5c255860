import FpgaProgrammer.Bytes

/-!
# Words and their bytes

A 32-bit word and its four bytes, least significant first, determine each other:
`wordLE_ofWordLE` and `ofWordLE_wordLE`. Both are read off the value of a word as a number in
base 256 (`toNat_wordLE`). Words whose bytes were reversed on the way are restored by writing them
most significant byte first (`ofWordBE_wordLE_reverse`).
-/

namespace FpgaProgrammer.Bytes

/-- Shifting a small word by one byte and filling in that byte is a step in base 256. -/
theorem toNat_shiftLeft_or (word : UInt32) (byte : UInt8) (h : word.toNat < 0x1000000) :
    (word <<< 8 ||| byte.toUInt32).toNat = word.toNat * 256 + byte.toNat := by
  have hbyte : byte.toNat < 2 ^ 8 := byte.toNat_lt
  have hshift : word.toNat <<< 8 < 2 ^ 32 := by
    rw [Nat.shiftLeft_eq]
    omega
  rw [UInt32.toNat_or, UInt32.toNat_shiftLeft, UInt8.toNat_toUInt32]
  show word.toNat <<< 8 % 2 ^ 32 ||| byte.toNat = _
  rw [Nat.mod_eq_of_lt hshift, ← Nat.shiftLeft_add_eq_or_of_lt hbyte, Nat.shiftLeft_eq]

/-- The value of a word as a number in base 256. -/
theorem toNat_wordLE (a b c d : UInt8) :
    (wordLE [a, b, c, d]).toNat =
      ((d.toNat * 256 + c.toNat) * 256 + b.toNat) * 256 + a.toNat := by
  have ha : a.toNat < 2 ^ 8 := a.toNat_lt
  have hb : b.toNat < 2 ^ 8 := b.toNat_lt
  have hc : c.toNat < 2 ^ 8 := c.toNat_lt
  have hd : d.toNat < 2 ^ 8 := d.toNat_lt
  -- Horner's scheme from the most significant byte down; each word fits in three bytes before the
  -- next one is shifted in.
  have h₁ := toNat_shiftLeft_or 0 d (by decide)
  rw [UInt32.toNat_zero] at h₁
  have h₂ := toNat_shiftLeft_or _ c (by rw [h₁]; omega)
  have h₃ := toNat_shiftLeft_or _ b (by rw [h₂, h₁]; omega)
  have h₄ := toNat_shiftLeft_or _ a (by rw [h₃, h₂, h₁]; omega)
  show (((((0 : UInt32) <<< 8 ||| d.toUInt32) <<< 8 ||| c.toUInt32) <<< 8 ||| b.toUInt32) <<< 8 |||
    a.toUInt32).toNat = _
  rw [h₄, h₃, h₂, h₁, Nat.zero_mul, Nat.zero_add]

/-- The bytes of a word are its digits in base 256. -/
theorem toNat_ofWordLE (word : UInt32) :
    (ofWordLE word).map UInt8.toNat =
      [word.toNat % 256, word.toNat / 256 % 256, word.toNat / 65536 % 256,
        word.toNat / 16777216 % 256] := by
  simp [ofWordLE, Nat.shiftRight_eq_div_pow]

/-- The bytes of a word give back the word. -/
theorem wordLE_ofWordLE (word : UInt32) : wordLE (ofWordLE word) = word := by
  have hword : word.toNat < 2 ^ 32 := word.toNat_lt
  have hbytes := toNat_ofWordLE word
  simp only [ofWordLE, List.map_cons, List.map_nil, List.cons.injEq, and_true] at hbytes
  obtain ⟨ha, hb, hc, hd⟩ := hbytes
  apply UInt32.toNat_inj.mp
  rw [ofWordLE, toNat_wordLE, ha, hb, hc, hd]
  omega

/-- Four bytes are the bytes of their word. -/
theorem ofWordLE_wordLE (a b c d : UInt8) : ofWordLE (wordLE [a, b, c, d]) = [a, b, c, d] := by
  have ha : a.toNat < 2 ^ 8 := a.toNat_lt
  have hb : b.toNat < 2 ^ 8 := b.toNat_lt
  have hc : c.toNat < 2 ^ 8 := c.toNat_lt
  have hd : d.toNat < 2 ^ 8 := d.toNat_lt
  -- Bytes are compared as numbers, where the digits of the word are quotients and remainders.
  apply (List.map_inj_right fun _ _ => UInt8.toNat_inj.mp).mp
  rw [toNat_ofWordLE, toNat_wordLE]
  simp only [List.map_cons, List.map_nil, List.cons.injEq, and_true]
  omega

/-- Four bytes sent in reverse arrive in order if the word is taken most significant byte
first. -/
theorem ofWordBE_wordLE_reverse {bytes : Bytes} (h : bytes.length = 4) :
    ofWordBE (wordLE bytes.reverse) = bytes := by
  obtain ⟨a, b, c, d, rfl⟩ : ∃ a b c d, bytes = [a, b, c, d] := by
    match bytes, h with
    | [a, b, c, d], _ => exact ⟨a, b, c, d, rfl⟩
  show (ofWordLE (wordLE [d, c, b, a])).reverse = _
  rw [ofWordLE_wordLE]
  rfl

end FpgaProgrammer.Bytes
