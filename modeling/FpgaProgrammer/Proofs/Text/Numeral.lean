import FpgaProgrammer.Text.Numeral
import Mathlib.Data.List.Forall2
import Mathlib.Data.Nat.Digits.Defs

/-!
# Which texts are numerals

`IsNumeral base text value` is the grammar of unsigned numerals, said without reading them: one plus
sign may stand before at least one digit, and the value is the one of the digits in their places.

* `IsDigit base c digit` — the character stands for the digit, in either case.
* `Spells base chars value` — the characters are digits, at least one, and stand for the value.
* `readNumeral_eq_ok_iff` — the reader accepts exactly the numerals whose value is below its limit,
  however many leading zeros they have.
* `spells_toDigits`, `Spells.map_toUpper`, `Spells.zeros` — a number as it is printed, in upper
  case, and with zeros in front of it, spells that number.
-/

namespace FpgaProgrammer.Text

variable {base limit digit start value : Nat} {c : Char} {chars text : List Char}

/-! ## Digits -/

/-- The character stands for a digit of the base, a letter of either case for a digit above nine. -/
def IsDigit (base : Nat) (c : Char) (digit : Nat) : Prop :=
  digit < base ∧ (c = Nat.digitChar digit ∨ c = (Nat.digitChar digit).toUpper)

instance : Decidable (IsDigit base c digit) :=
  inferInstanceAs (Decidable (_ ∧ _))

/-- What holds of the sixteen hexadecimal digits in either case holds of every digit. -/
theorem IsDigit.forall_hex (h : IsDigit base c digit) (hbase : base ≤ 16) (property : Char → Prop)
    (hall : ∀ digit < 16, property (Nat.digitChar digit) ∧ property (Nat.digitChar digit).toUpper) :
    property c := by
  obtain ⟨hdigit, rfl | rfl⟩ := h
  · exact (hall digit (by omega)).1
  · exact (hall digit (by omega)).2

/-- A hexadecimal digit is read as what it stands for. -/
theorem digitValue?_hex_eq_some_iff : digitValue? 16 c = some digit ↔ IsDigit 16 c digit := by
  constructor
  · intro h
    -- All digits are among the first 128 characters, which can be looked through.
    have hascii : ∀ code < 128, ∀ digit < 16, digitValue? 16 (Char.ofNat code) = some digit →
        IsDigit 16 (Char.ofNat code) digit := by decide +kernel
    have hdigit : digit < 16 := by
      simp only [digitValue?, Option.filter_eq_some_iff, decide_eq_true_eq] at h
      exact h.2
    have hcode : c.toNat < 128 := by
      by_contra hlarge
      simp [digitValue?, Char.le_def, UInt32.le_iff_toNat_le] at h
      grind
    rw [← Char.ofNat_toNat c] at h ⊢
    exact hascii _ hcode _ hdigit h
  · intro h
    have hall : ∀ digit < 16, digitValue? 16 (Nat.digitChar digit) = some digit ∧
        digitValue? 16 (Nat.digitChar digit).toUpper = some digit := by decide
    obtain ⟨hdigit, rfl | rfl⟩ := h
    · exact (hall digit hdigit).1
    · exact (hall digit hdigit).2

/-- A digit of any base up to sixteen is read as what it stands for. -/
theorem digitValue?_eq_some_iff (hbase : base ≤ 16) :
    digitValue? base c = some digit ↔ IsDigit base c digit := by
  have hfilter : digitValue? base c = (digitValue? 16 c).filter (· < base) := by
    simp only [digitValue?, Option.filter_filter]
    congr 1
    ext digit
    simp
    omega
  rw [hfilter, Option.filter_eq_some_iff, digitValue?_hex_eq_some_iff]
  simp only [IsDigit, decide_eq_true_eq]
  constructor
  · rintro ⟨⟨-, hc⟩, hdigit⟩
    exact ⟨hdigit, hc⟩
  · rintro ⟨hdigit, hc⟩
    exact ⟨⟨by omega, hc⟩, hdigit⟩

/-! ## Rows of digits -/

/-- The characters are digits, at least one, and the value is the one that they have in their
places. -/
def Spells (base : Nat) (chars : List Char) (value : Nat) : Prop :=
  chars ≠ [] ∧ ∃ digits, List.Forall₂ (IsDigit base) chars digits ∧
    Nat.ofDigits base digits.reverse = value

/-- Every character of a row of digits is one. -/
theorem Spells.isDigit_of_mem (h : Spells base chars value) (hc : c ∈ chars) :
    ∃ digit, IsDigit base c digit := by
  obtain ⟨-, digits, hdigits, -⟩ := h
  induction hdigits with
  | nil => simp at hc
  | cons hfirst _ ih =>
    rcases List.mem_cons.mp hc with rfl | hc
    · exact ⟨_, hfirst⟩
    · exact ih hc

/-- Digits are read after others if they are digits and the value of all stays below the limit. -/
theorem readDigits_eq_ok_iff (hbase : base ≤ 16) (hpos : 0 < base) (hstart : start < limit) :
    readDigits base limit chars start = .ok value ↔
      value < limit ∧ ∃ digits, List.Forall₂ (IsDigit base) chars digits ∧
        base ^ chars.length * start + Nat.ofDigits base digits.reverse = value := by
  -- On the characters: the value grows with each, so the limit is only ever passed once.
  induction chars generalizing start with
  | nil =>
    simp only [readDigits, Except.ok.injEq, List.forall₂_nil_left_iff, exists_eq_left]
    constructor
    · rintro rfl
      exact ⟨hstart, by simp⟩
    · rintro ⟨-, h⟩
      simpa using h
  | cons c chars ih =>
    have hplaces : ∀ digit digits, List.Forall₂ (IsDigit base) chars digits →
        base ^ (c :: chars).length * start + Nat.ofDigits base (digit :: digits).reverse =
          base ^ chars.length * (base * start + digit) + Nat.ofDigits base digits.reverse := by
      intro digit digits hdigits
      rw [Nat.ofDigits_reverse_cons, ← hdigits.length_eq, List.length_cons]
      ring
    simp only [readDigits, List.forall₂_cons_left_iff]
    cases hread : digitValue? base c with
    | none =>
      simp only [reduceCtorEq, false_iff]
      rintro ⟨-, _, ⟨digit, digits, hdigit, -, rfl⟩, -⟩
      rw [(digitValue?_eq_some_iff hbase).mpr hdigit] at hread
      cases hread
    | some digit =>
      have hdigit := (digitValue?_eq_some_iff hbase).mp hread
      have hsame : ∀ {other}, IsDigit base c other → other = digit := fun hother =>
        Option.some_inj.mp (((digitValue?_eq_some_iff hbase).mpr hother).symm.trans hread)
      dsimp only
      split
      · next hbelow =>
        rw [ih hbelow]
        refine and_congr_right fun hvalue => ⟨?_, ?_⟩
        · rintro ⟨digits, hdigits, hsum⟩
          exact ⟨_, ⟨digit, digits, hdigit, hdigits, rfl⟩, (hplaces _ _ hdigits).trans hsum⟩
        · rintro ⟨_, ⟨other, digits, hother, hdigits, rfl⟩, hsum⟩
          rw [hplaces _ _ hdigits, hsame hother] at hsum
          exact ⟨digits, hdigits, hsum⟩
      · next habove =>
        simp only [reduceCtorEq, false_iff]
        rintro ⟨hvalue, _, ⟨other, digits, hother, hdigits, rfl⟩, hsum⟩
        rw [hplaces _ _ hdigits, hsame hother] at hsum
        -- What is above the limit here stays there, as every place counts at least once.
        have hgrows : base * start + digit ≤ base ^ chars.length * (base * start + digit) :=
          Nat.le_mul_of_pos_left _ (Nat.pow_pos hpos)
        omega

/-- A row of digits is read if its value is below the limit. -/
theorem readDigits_zero_eq_ok_iff (hbase : base ≤ 16) (hpos : 0 < base) (hlimit : 0 < limit)
    (hchars : chars ≠ []) :
    readDigits base limit chars 0 = .ok value ↔ Spells base chars value ∧ value < limit := by
  rw [readDigits_eq_ok_iff hbase hpos hlimit]
  simp [Spells, hchars, and_comm]

/-! ## Numerals -/

/-- The text is an unsigned numeral of the given value. -/
def IsNumeral (base : Nat) (text : List Char) (value : Nat) : Prop :=
  ∃ sign ∈ [[], ['+']], ∃ chars, text = sign ++ chars ∧ Spells base chars value

/-- A numeral consists of digits, with at most one sign before them. -/
theorem isNumeral_iff :
    IsNumeral base text value ↔
      Spells base text value ∨ ∃ chars, text = '+' :: chars ∧ Spells base chars value := by
  simp [IsNumeral]

/-- A sign is no digit. -/
theorem not_isDigit_plus (hbase : base ≤ 16) : ¬ IsDigit base '+' digit := by
  intro h
  exact h.forall_hex hbase (· ≠ '+') (by decide) rfl

/-- A numeral is read if its value is below the limit. -/
theorem readNumeral_eq_ok_iff (hbase : base ≤ 16) (hpos : 0 < base) (hlimit : 0 < limit) :
    readNumeral base limit text = .ok value ↔ IsNumeral base text value ∧ value < limit := by
  -- A sign is no digit, so no numeral but one with a sign begins with it.
  have hplus : ∀ {chars}, ¬ Spells base ('+' :: chars) value := by
    intro chars h
    obtain ⟨digit, hdigit⟩ := h.isDigit_of_mem List.mem_cons_self
    exact not_isDigit_plus hbase hdigit
  rw [isNumeral_iff]
  unfold readNumeral
  split
  · simp [Spells]
  · have hnothing : ¬ Spells base [] value := fun h => h.1 rfl
    simp [hplus, hnothing]
  · next digits hdigits =>
    rw [readDigits_zero_eq_ok_iff hbase hpos hlimit (by simpa using hdigits)]
    simp [hplus]
  · next hnil _ hsign =>
    rw [readDigits_zero_eq_ok_iff hbase hpos hlimit (by simpa using hnil)]
    have hunsigned : ∀ {chars}, text ≠ '+' :: chars := fun h => hsign _ h
    simp [hunsigned]

/-! ## Printed numbers -/

/-- A digit is one in upper case as well. -/
theorem IsDigit.toUpper (h : IsDigit base c digit) (hbase : base ≤ 16) :
    IsDigit base c.toUpper digit := by
  have hupper : ∀ digit < 16, (Nat.digitChar digit).toUpper.toUpper =
      (Nat.digitChar digit).toUpper := by decide
  obtain ⟨hdigit, rfl | rfl⟩ := h
  · exact ⟨hdigit, .inr rfl⟩
  · exact ⟨hdigit, .inr (hupper digit (by omega))⟩

/-- Digits in upper case spell the same number. -/
theorem Spells.map_toUpper (h : Spells base chars value) (hbase : base ≤ 16) :
    Spells base (chars.map Char.toUpper) value := by
  obtain ⟨hchars, digits, hdigits, hvalue⟩ := h
  refine ⟨by simpa using hchars, digits, ?_, hvalue⟩
  rw [List.forall₂_map_left_iff]
  exact hdigits.imp fun _ _ hdigit => hdigit.toUpper hbase

/-- Zeros in front do not count. -/
theorem Spells.zeros (h : Spells base chars value) (hpos : 0 < base) (count : Nat) :
    Spells base (List.replicate count '0' ++ chars) value := by
  obtain ⟨hchars, digits, hdigits, hvalue⟩ := h
  refine ⟨by simp [hchars], List.replicate count 0 ++ digits, ?_, ?_⟩
  · induction count with
    | zero => exact hdigits
    | succ count ih => exact .cons ⟨hpos, .inl rfl⟩ ih
  · simpa using hvalue

/-- A number as it is printed spells that number. -/
theorem spells_toDigits (hbase : 1 < base) (value : Nat) :
    Spells base (Nat.toDigits base value) value := by
  -- On the number: its last digit is what remains when the others are taken off.
  induction value using Nat.strongRecOn with
  | ind value ih =>
    by_cases hsmall : value < base
    · rw [Nat.toDigits_of_lt_base hsmall]
      exact ⟨by simp, [value], .cons ⟨hsmall, .inl rfl⟩ .nil, by simp⟩
    · obtain ⟨-, digits, hdigits, hvalue⟩ :=
        ih (value / base) (Nat.div_lt_self (by omega) hbase)
      rw [Nat.toDigits_of_base_le hbase (Nat.not_lt.mp hsmall)]
      refine ⟨by simp, digits ++ [value % base], ?_, ?_⟩
      · exact List.rel_append hdigits (.cons ⟨Nat.mod_lt _ (by omega), .inl rfl⟩ .nil)
      · rw [List.reverse_append, List.reverse_singleton, List.singleton_append, Nat.ofDigits_cons,
          hvalue]
        simp [Nat.mod_add_div]

end FpgaProgrammer.Text
