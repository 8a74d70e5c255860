import FpgaProgrammer.Image
import Mathlib.Logic.ExistsUnique

/-!
# What the checksum of a payload finds

The checksum reads a payload as 16-bit words and adds them up. Read byte by byte, this is a sum in
which a byte counts 256 times or once, after its place.

* `evenBytes`, `oddBytes`: the bytes in the even and in the odd places.
* `toNat_checksum16`: the checksum as a sum over these.
* `checksum16_append`: it is additive over a split between words.
* `checksum16_ne`: payloads of which one byte differs have different checksums.
-/

namespace FpgaProgrammer

variable {first second sent arrived : Bytes}

/-! ## Bytes by their places -/

/-- The bytes whose places, counted from `start` on, leave the remainder `parity`. -/
def bytesFrom (start parity : Nat) (data : Bytes) : Bytes :=
  ((data.zipIdx start).filter (·.2 % 2 = parity)).map Prod.fst

/-- The bytes in the even places. The first byte is one of them. -/
def evenBytes (data : Bytes) : Bytes :=
  bytesFrom 0 0 data

/-- The bytes in the odd places. -/
def oddBytes (data : Bytes) : Bytes :=
  bytesFrom 0 1 data

/-- The sum of the bytes. -/
def byteSum (data : Bytes) : Nat :=
  data.foldr (fun byte sum => byte.toNat + sum) 0

/-- How often a byte counts in its place. -/
def placeValue (place : Nat) : Nat :=
  if place % 2 = 0 then 256 else 1

/-- The sum of the bytes, each as often as it counts in its place from `start` on. -/
def placeSum (start : Nat) (data : Bytes) : Nat :=
  256 * byteSum (bytesFrom start 0 data) + byteSum (bytesFrom start 1 data)

@[simp]
theorem placeSum_nil (start : Nat) : placeSum start [] = 0 := by
  simp [placeSum, bytesFrom, byteSum]

@[simp]
theorem placeSum_cons (start : Nat) (byte : UInt8) (data : Bytes) :
    placeSum start (byte :: data) =
      placeValue start * byte.toNat + placeSum (start + 1) data := by
  rcases Nat.mod_two_eq_zero_or_one start with h | h
  · simp [placeSum, bytesFrom, byteSum, placeValue, h]
    omega
  · simp [placeSum, bytesFrom, byteSum, placeValue, h]
    omega

theorem placeSum_append (start : Nat) (first second : Bytes) :
    placeSum start (first ++ second) =
      placeSum start first + placeSum (start + first.length) second := by
  induction first generalizing start with
  | nil => simp
  | cons byte first ih =>
    have hplace : start + 1 + first.length = start + (first.length + 1) := by omega
    simp [ih, hplace, Nat.add_assoc]

/-- After a whole number of words, every byte counts as at the beginning. -/
theorem placeSum_congr {start start' : Nat} (h : start % 2 = start' % 2) (data : Bytes) :
    placeSum start data = placeSum start' data := by
  induction data generalizing start start' with
  | nil => simp
  | cons byte data ih =>
    have hnext : (start + 1) % 2 = (start' + 1) % 2 := by omega
    rw [placeSum_cons, placeSum_cons, placeValue, placeValue, h, ih hnext]

/-! ## The checksum -/

/-- The high half of a word. -/
theorem toNat_highHalf (high : UInt8) : (high.toUInt16 <<< 8).toNat = 256 * high.toNat := by
  have hlt := high.toNat_lt
  rw [UInt16.toNat_shiftLeft, UInt8.toNat_toUInt16]
  show high.toNat <<< 8 % 2 ^ 16 = _
  rw [Nat.shiftLeft_eq]
  omega

/-- A word. -/
theorem toNat_word (high low : UInt8) :
    (high.toUInt16 <<< 8 ||| low.toUInt16).toNat = 256 * high.toNat + low.toNat := by
  have hlow : low.toNat < 2 ^ 8 := low.toNat_lt
  rw [UInt16.toNat_or, toNat_highHalf, UInt8.toNat_toUInt16]
  exact (Nat.two_pow_add_eq_or_of_lt hlow high.toNat).symm

theorem toNat_addWords (sum : UInt16) (data : Bytes) :
    (addWords sum data).toNat = (sum.toNat + placeSum 0 data) % 0x10000 := by
  induction sum, data using addWords.induct with
  | case1 sum =>
    have hsum := sum.toNat_lt
    simp [addWords, Nat.mod_eq_of_lt hsum]
  | case2 sum high =>
    rw [addWords, UInt16.toNat_add, toNat_highHalf]
    simp [placeValue]
  | case3 sum high low rest ih =>
    have hrest : placeSum (0 + 1 + 1) rest = placeSum 0 rest := placeSum_congr (by decide) rest
    rw [addWords, ih, UInt16.toNat_add, toNat_word, placeSum_cons, placeSum_cons, hrest]
    simp [placeValue, Nat.add_assoc]

/-- The checksum is the sum of the bytes in the even places, each counted 256 times, and of those in
the odd places. -/
theorem toNat_checksum16 (data : Bytes) :
    (checksum16 data).toNat =
      (256 * byteSum (evenBytes data) + byteSum (oddBytes data)) % 0x10000 := by
  have hsum := toNat_addWords 0 data
  rwa [UInt16.toNat_zero, Nat.zero_add] at hsum

theorem checksum16_append (heven : first.length % 2 = 0) (second : Bytes) :
    checksum16 (first ++ second) = checksum16 first + checksum16 second := by
  have hsecond : placeSum (0 + first.length) second = placeSum 0 second :=
    placeSum_congr (by omega) second
  apply UInt16.toNat_inj.mp
  simp only [checksum16, UInt16.toNat_add, toNat_addWords, placeSum_append, hsecond]
  simp

/-! ## One byte that differs -/

/-- Payloads of the same length, of which exactly one byte differs. -/
def OneByteApart (sent arrived : Bytes) : Prop :=
  sent.length = arrived.length ∧ ∃! i : Nat, sent[i]? ≠ arrived[i]?

/-- What is before and after the byte is the same. -/
theorem OneByteApart.exists_eq (h : OneByteApart sent arrived) :
    ∃ before old new after, old ≠ new ∧ sent = before ++ old :: after ∧
      arrived = before ++ new :: after := by
  obtain ⟨hlength, i, hdiffers, hunique⟩ := h
  -- Everywhere but at the one index the payloads agree, so they do before it and behind it.
  have hsame : ∀ j ≠ i, arrived[j]? = sent[j]? := fun j hj =>
    Decidable.byContradiction fun hne => hj (hunique j (Ne.symm hne))
  rcases Nat.lt_or_ge i sent.length with hi | hout
  · have hi' : i < arrived.length := hlength ▸ hi
    have hbefore : arrived.take i = sent.take i := by
      ext1 j
      simp only [List.getElem?_take]
      split
      · next hj => exact hsame j (Nat.ne_of_lt hj)
      · rfl
    have hafter : arrived.drop (i + 1) = sent.drop (i + 1) := by
      ext1 j
      simp only [List.getElem?_drop]
      exact hsame _ (by omega)
    refine ⟨sent.take i, sent[i], arrived[i], sent.drop (i + 1), ?_, ?_, ?_⟩
    · simpa [hi, hi'] using hdiffers
    · rw [List.getElem_cons_drop, List.take_append_drop]
    · rw [← hbefore, ← hafter, List.getElem_cons_drop, List.take_append_drop]
  · -- Outside of the payloads, nothing differs.
    simp [hout, hlength ▸ hout] at hdiffers

theorem checksum16_ne (h : OneByteApart sent arrived) : checksum16 sent ≠ checksum16 arrived := by
  obtain ⟨before, old, new, after, hne, rfl, rfl⟩ := h.exists_eq
  intro hsame
  have hold := old.toNat_lt
  have hnew := new.toNat_lt
  have hsums := congrArg UInt16.toNat hsame
  simp only [checksum16, toNat_addWords, placeSum_append, placeSum_cons] at hsums
  apply hne
  apply UInt8.toNat_inj.mp
  rw [placeValue] at hsums
  split at hsums <;> omega

end FpgaProgrammer
