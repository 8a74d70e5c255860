import FpgaProgrammer.Proofs.Programmer.Choice
import FpgaProgrammer.Proofs.Text.HexWord

/-!
# What the options of the simulated device say

Options are read from the left. The first one that is refused ends the reading; of several options
with one key, the last one counts.

* `OptionKey.Spells`, `OptionKey.Allows`: which numbers a value may stand for, by its key.
* `OptionKey.Refuses`: why a value is refused.
* `applyOption?_name`: an option is read by the rule of its key and then set.
* `applyOptions_eq_error_iff`: the fault of options is the one of the first that is refused.
* `describes_of_applyOptions`: otherwise every key has the value of its last option.
* `Programmer.choice_roundTrip`: all of this, from the text of a choice to the configuration.
-/

namespace FpgaProgrammer

namespace Simulator

open Text (IsHexWord IsNumeral)

/-! ## Keys -/

/-- The keys of the options that are known. -/
inductive OptionKey where
  /-- The idcode, which also selects the family. -/
  | idcode
  /-- A fixed usercode. -/
  | usercode
  /-- The size of the SPI flash. -/
  | flashSize
  /-- Status reads during an SRAM erase. -/
  | eraseLatency
  deriving Repr, DecidableEq

namespace OptionKey

variable {key other : OptionKey} {value : String} {number : Nat} {fault : OptionFault}
  {config : SimulatorConfig}

/-- The key as it is written. -/
def name : OptionKey → String
  | idcode => "idcode"
  | usercode => "usercode"
  | flashSize => "flash_size"
  | eraseLatency => "erase_latency"

/-- Keys with the same name are the same. -/
theorem name_injective (h : key.name = other.name) : key = other := by
  cases key <;> cases other <;> simp_all [name]

/-- The value is a numeral of the kind that goes with the key, and the number fits: words are
written as in the header fields of a bitstream, all else is decimal. -/
def Spells (key : OptionKey) (value : String) (number : Nat) : Prop :=
  match key with
  | idcode | usercode => IsHexWord value.toList number ∧ number < 2 ^ 32
  | flashSize => IsNumeral 10 value.toList number ∧ number < 2 ^ 64
  | eraseLatency => IsNumeral 10 value.toList number ∧ number < 2 ^ 32

/-- The value may be given to the key: it is a numeral, and the size of a flash is a power of
two. -/
def Allows (key : OptionKey) (value : String) (number : Nat) : Prop :=
  key.Spells value number ∧ (key = flashSize → ∃ exponent, number = 2 ^ exponent)

/-- Why a value may not be given to a key. -/
inductive Refuses (value : String) : OptionKey → OptionFault → Prop where
  /-- It is not a numeral that fits. -/
  | unreadable {key : OptionKey} (h : ∀ number, ¬ key.Spells value number) :
      Refuses value key (.invalidValue key.name value)
  /-- There is no flash of this size. -/
  | size {size : Nat} (h : flashSize.Spells value size) (hsize : ∀ exponent, size ≠ 2 ^ exponent) :
      Refuses value flashSize (.flashSize size)

/-- The number that a configuration has for the key, if it has one. -/
def field (key : OptionKey) (config : SimulatorConfig) : Option Nat :=
  match key with
  | idcode => some config.idcode.toNat
  | usercode => config.usercode?.map UInt32.toNat
  | flashSize => some config.flash.size
  | eraseLatency => some config.eraseLatency

/-- The configuration with another number for the key. -/
def set (key : OptionKey) (number : Nat) (config : SimulatorConfig) : SimulatorConfig :=
  match key with
  | idcode => { config with idcode := number.toUInt32 }
  | usercode => { config with usercode? := some number.toUInt32 }
  | flashSize => { config with flash := { config.flash with size := number } }
  | eraseLatency => { config with eraseLatency := number }

/-- A field that is set to a number that a value spells holds that number. -/
theorem field_set (h : key.Spells value number) :
    key.field (key.set number config) = some number := by
  cases key with
  | idcode | usercode => simp [field, set, Nat.toUInt32, UInt32.toNat_ofNat_of_lt' h.2]
  | flashSize | eraseLatency => rfl

/-- Setting one field leaves the others as they are. -/
theorem field_set_of_ne (h : other ≠ key) :
    other.field (key.set number config) = other.field config := by
  cases key <;> cases other <;> first | rfl | exact absurd rfl h

end OptionKey

/-! ## Reading a value -/

/-- A size is a power of two if it is the one of its logarithm. -/
theorem isPowerOfTwo_iff {n : Nat} : isPowerOfTwo n = true ↔ ∃ exponent, n = 2 ^ exponent := by
  simp only [isPowerOfTwo, Bool.and_eq_true, bne_iff_ne, beq_iff_eq, Nat.one_shiftLeft]
  constructor
  · rintro ⟨-, hn⟩
    exact ⟨n.log2, hn.symm⟩
  · rintro ⟨exponent, rfl⟩
    exact ⟨by simp, by rw [Nat.log2_two_pow]⟩

section Readers

variable {key value : String} {number limit : Nat} {fault : OptionFault}

/-- A word is read from the text of a number that fits into one. -/
theorem map_readWord_eq_ok_iff :
    (readWord key value).map UInt32.toNat = .ok number ↔
      IsHexWord value.toList number ∧ number < 2 ^ 32 := by
  have hread : ∀ {word}, readWord key value = .ok word ↔
      IsHexWord value.toList word.toNat := by
    intro word
    rw [← Text.readHexWord?_eq_some_iff, readWord]
    cases Text.readHexWord? value <;> simp
  constructor
  · intro h
    cases hword : readWord key value with
    | error fault => simp [hword, Except.map] at h
    | ok word =>
      obtain rfl : word.toNat = number := by simpa [hword, Except.map] using h
      exact ⟨hread.mp hword, word.toNat_lt⟩
  · rintro ⟨hword, hfits⟩
    have hsame : number.toUInt32.toNat = number := UInt32.toNat_ofNat_of_lt' hfits
    rw [← hsame] at hword
    rw [hread.mpr hword, Except.map, hsame]

/-- A decimal value is read if it is a numeral of a number below the limit. -/
theorem readDecimal_eq_ok_iff (hlimit : 0 < limit) :
    readDecimal limit key value = .ok number ↔
      IsNumeral 10 value.toList number ∧ number < limit := by
  rw [← Text.readNumeral_eq_ok_iff (by decide) (by decide) hlimit, readDecimal]
  cases Text.readNumeral 10 limit value.toList <;> simp [Except.mapError]

theorem eq_of_readWord_eq_error (h : readWord key value = .error fault) :
    fault = .invalidValue key value := by
  unfold readWord at h
  split at h
  · cases h
  · exact (Except.error.inj h).symm

/-- A value that is no decimal number below the limit is reported with its key. -/
theorem eq_of_readDecimal_eq_error (h : readDecimal limit key value = .error fault) :
    fault = .invalidValue key value := by
  unfold readDecimal at h
  cases hread : Text.readNumeral 10 limit value.toList with
  | error _ =>
    rw [hread] at h
    exact (Except.error.inj h).symm
  | ok number =>
    rw [hread] at h
    cases h

end Readers

namespace OptionKey

variable {key : OptionKey} {value : String} {number : Nat} {fault : OptionFault}

/-- Reads the number that a value stands for, by the key. -/
def numeral (key : OptionKey) (value : String) : Except OptionFault Nat :=
  match key with
  | idcode | usercode => (readWord key.name value).map UInt32.toNat
  | flashSize => readDecimal UInt64.size key.name value
  | eraseLatency => readDecimal UInt32.size key.name value

/-- The number may be given to the key: the size of a flash is a power of two. -/
def suits (key : OptionKey) (number : Nat) : Bool :=
  key != flashSize || isPowerOfTwo number

/-- Reads a number that may be given to the key. -/
def read (key : OptionKey) (value : String) : Except OptionFault Nat :=
  (key.numeral value).bind fun number =>
    if key.suits number then .ok number else .error (.flashSize number)

/-- A value is read as the number that it spells for its key. -/
theorem numeral_eq_ok_iff : key.numeral value = .ok number ↔ key.Spells value number := by
  cases key with
  | idcode | usercode => exact map_readWord_eq_ok_iff
  | flashSize | eraseLatency => exact readDecimal_eq_ok_iff (by decide)

/-- There is one fault that a value can have which is not a numeral. -/
theorem eq_of_numeral_eq_error (h : key.numeral value = .error fault) :
    fault = .invalidValue key.name value := by
  cases key with
  | idcode | usercode =>
    cases hword : readWord _ value with
    | error _ =>
      rw [numeral, hword] at h
      exact (Except.error.inj h) ▸ eq_of_readWord_eq_error hword
    | ok word =>
      rw [numeral, hword] at h
      cases h
  | flashSize | eraseLatency => exact eq_of_readDecimal_eq_error h

/-- Every number suits a key, but the size of the flash has to be a power of two. -/
theorem suits_iff :
    key.suits number = true ↔ (key = flashSize → ∃ exponent, number = 2 ^ exponent) := by
  rw [← isPowerOfTwo_iff, suits, Bool.or_eq_true, bne_iff_ne, imp_iff_not_or]

/-- What is read may be given to the key, and all that may be given is read. -/
theorem read_eq_ok_iff : key.read value = .ok number ↔ key.Allows value number := by
  rw [Allows, ← numeral_eq_ok_iff, ← suits_iff, read]
  cases key.numeral value with
  | error fault => simp [Except.bind]
  | ok given =>
    simp only [Except.bind, Except.ok.injEq]
    by_cases hsuits : key.suits given = true
    · simp only [hsuits, if_true, Except.ok.injEq]
      exact ⟨fun hsame => ⟨hsame, hsame ▸ hsuits⟩, And.left⟩
    · simp only [hsuits, if_false, reduceCtorEq, false_iff]
      rintro ⟨rfl, h⟩
      exact hsuits h

/-- A fault is why the value is refused, and there is no other. -/
theorem read_eq_error_iff : key.read value = .error fault ↔ key.Refuses value fault := by
  constructor
  · intro h
    rw [read] at h
    cases hnumeral : key.numeral value with
    | error _ =>
      rw [hnumeral] at h
      obtain rfl := Except.error.inj h
      rw [eq_of_numeral_eq_error hnumeral]
      refine .unreadable fun number hspells => ?_
      rw [numeral_eq_ok_iff.mpr hspells] at hnumeral
      cases hnumeral
    | ok size =>
      simp only [hnumeral, Except.bind] at h
      split at h
      · cases h
      · -- The value is a number, so it can only be the size of a flash that is refused.
        next hsuits =>
        obtain rfl := Except.error.inj h
        rw [suits_iff, Classical.not_imp] at hsuits
        obtain ⟨rfl, hsize⟩ := hsuits
        exact .size (numeral_eq_ok_iff.mp hnumeral) (not_exists.mp hsize)
  · intro h
    cases h with
    | unreadable hnone =>
      cases hnumeral : key.numeral value with
      | error _ => rw [read, hnumeral, ← eq_of_numeral_eq_error hnumeral, Except.bind]
      | ok number => exact absurd (numeral_eq_ok_iff.mp hnumeral) (hnone number)
    | @size size hspells hsize =>
      have hsuits : flashSize.suits size ≠ true := fun h =>
        not_exists.mpr hsize (suits_iff.mp h rfl)
      rw [read, numeral_eq_ok_iff.mpr hspells, Except.bind, if_neg hsuits]

/-- Only the size of a flash has to be more than a number. -/
theorem read_eq_numeral (h : key ≠ flashSize) : key.read value = key.numeral value := by
  rw [read]
  cases key.numeral value with
  | error fault => rfl
  | ok number => simp [Except.bind, suits, h]

/-- An option is read by the rule of its key, and then set. -/
theorem applyOption?_name (config : SimulatorConfig) (key : OptionKey) (value : String) :
    applyOption? config key.name value =
      some ((key.read value).map fun number => key.set number config) := by
  cases key with
  | idcode | usercode =>
    rw [read_eq_numeral (by decide), numeral, name, applyOption?]
    cases readWord _ value with
    | error fault => rfl
    | ok word => simp [Except.map, set, bind, Except.bind, pure, Except.pure]
  | flashSize =>
    rw [read, numeral, name, applyOption?]
    cases readDecimal _ _ value with
    | error fault => rfl
    | ok size =>
      have hsuits : flashSize.suits size = isPowerOfTwo size := by simp [suits]
      simp only [bind, Except.bind, hsuits]
      cases isPowerOfTwo size <;> rfl
  | eraseLatency =>
    rw [read_eq_numeral (by decide), numeral, name, applyOption?]
    cases readDecimal _ _ value <;> rfl

end OptionKey

/-! ## Options -/

section Options

variable {config result : SimulatorConfig} {option : String × String}
  {options : List (String × String)} {fault other : OptionFault}

/-- The option is refused: its key is known, but the value may not be given to it. -/
def Refused (option : String × String) (fault : OptionFault) : Prop :=
  ∃ key : OptionKey, option.1 = key.name ∧ key.Refuses option.2 fault

/-- No known key is the one of the option. -/
def Unknown (option : String × String) : Prop :=
  ∀ key : OptionKey, option.1 ≠ key.name

/-- The fault is the one of the first option that is refused. -/
def FirstRefused (options : List (String × String)) (fault : OptionFault) : Prop :=
  ∃ before option after, options = before ++ option :: after ∧
    (∀ earlier ∈ before, ∀ fault, ¬ Refused earlier fault) ∧ Refused option fault

/-- The options say what `config` is where it differs from `base`. -/
structure Describes (base : SimulatorConfig) (options : List (String × String))
    (config : SimulatorConfig) : Prop where
  /-- Of several options with one key, the last one counts. -/
  last : ∀ (key : OptionKey) (value : String), options.reverse.lookup key.name = some value →
    ∃ number, key.Allows value number ∧ key.field config = some number
  /-- Without an option, nothing changes. -/
  kept : ∀ key : OptionKey, options.reverse.lookup key.name = none →
    key.field config = key.field base
  /-- There are no other keys. -/
  rest : config = { base with
    idcode := config.idcode
    usercode? := config.usercode?
    flash := { base.flash with size := config.flash.size }
    eraseLatency := config.eraseLatency }

/-- An option whose key is not known is passed over. -/
theorem applyOption?_eq_none (h : Unknown option) :
    applyOption? config option.1 option.2 = none := by
  unfold applyOption?
  split
  · exact absurd ‹_› (h .idcode)
  · exact absurd ‹_› (h .usercode)
  · exact absurd ‹_› (h .flashSize)
  · exact absurd ‹_› (h .eraseLatency)
  · rfl

/-- An option whose key is not known makes no difference to the result, wherever it stands. -/
theorem applyOptions_unknown (h : Unknown option) (before after : List (String × String)) :
    (applyOptions config (before ++ option :: after)).2 =
      (applyOptions config (before ++ after)).2 := by
  induction before generalizing config with
  | nil => simp [applyOptions, applyOption?_eq_none h]
  | cons earlier before ih =>
    simp only [List.cons_append, applyOptions]
    cases applyOption? config earlier.1 earlier.2 with
    | none => exact ih
    | some applied =>
      cases applied with
      | ok config => exact ih
      | error fault => rfl

/-- What is read first may be refused in one way, and then that is the fault. -/
theorem applyOptions_of_refused (h : Refused option fault) :
    (applyOptions config (option :: options)).2 = .error fault := by
  obtain ⟨key, hname, hrefuses⟩ := h
  have hread : applyOption? config option.1 option.2 = some (.error fault) := by
    rw [hname, key.applyOption?_name, OptionKey.read_eq_error_iff.mpr hrefuses]
    rfl
  simp [applyOptions, hread]

/-- An option that is not refused is passed over, or its number is set. -/
theorem applyOptions_of_not_refused (config : SimulatorConfig) (options : List (String × String))
    (h : ∀ fault, ¬ Refused option fault) :
    (Unknown option ∧
      (applyOptions config (option :: options)).2 = (applyOptions config options).2) ∨
    ∃ (key : OptionKey) (number : Nat), option.1 = key.name ∧ key.Allows option.2 number ∧
      (applyOptions config (option :: options)).2 =
        (applyOptions (key.set number config) options).2 := by
  by_cases hunknown : Unknown option
  · exact .inl ⟨hunknown, applyOptions_unknown hunknown [] options⟩
  obtain ⟨key, hname⟩ : ∃ key : OptionKey, option.1 = key.name := by
    simpa [Unknown] using hunknown
  cases hvalue : key.read option.2 with
  | error fault => exact absurd ⟨key, hname, OptionKey.read_eq_error_iff.mp hvalue⟩ (h fault)
  | ok number =>
    refine .inr ⟨key, number, hname, OptionKey.read_eq_ok_iff.mp hvalue, ?_⟩
    have hread := key.applyOption?_name config option.2
    rw [← hname, hvalue, Except.map] at hread
    simp [applyOptions, hread]

/-! ### Faults -/

/-- The first option is refused, or it is not and the first refusal is among the others. -/
theorem firstRefused_cons_iff :
    FirstRefused (option :: options) fault ↔
      Refused option fault ∨ ((∀ other, ¬ Refused option other) ∧ FirstRefused options fault) := by
  constructor
  · rintro ⟨before, refused, after, hsplit, hbefore, hrefused⟩
    rcases List.cons_eq_append_iff.mp hsplit with ⟨rfl, hsame⟩ | ⟨before, rfl, rfl⟩
    · obtain ⟨rfl, -⟩ := List.cons_eq_cons.mp hsame
      exact .inl hrefused
    · obtain ⟨hfirst, hbefore⟩ := List.forall_mem_cons.mp hbefore
      exact .inr ⟨hfirst, before, refused, after, rfl, hbefore, hrefused⟩
  · rintro (hrefused | ⟨hfirst, before, refused, after, rfl, hbefore, hrefused⟩)
    · exact ⟨[], option, options, rfl, by simp, hrefused⟩
    · exact ⟨option :: before, refused, after, rfl, List.forall_mem_cons.mpr ⟨hfirst, hbefore⟩,
        hrefused⟩

/-- Options fail with the fault of the first one that is refused. -/
theorem applyOptions_eq_error_iff :
    (applyOptions config options).2 = .error fault ↔ FirstRefused options fault := by
  -- On the options: what has been set on the way makes no difference to what is refused.
  induction options generalizing config with
  | nil => simp [applyOptions, FirstRefused]
  | cons option options ih =>
    rw [firstRefused_cons_iff]
    by_cases hrefused : ∃ other, Refused option other
    · obtain ⟨other, hother⟩ := hrefused
      constructor
      · intro h
        obtain rfl := Except.error.inj ((applyOptions_of_refused hother).symm.trans h)
        exact .inl hother
      · rintro (h | ⟨hnone, -⟩)
        · exact applyOptions_of_refused h
        · exact absurd hother (hnone other)
    · have hnone := not_exists.mp hrefused
      rcases applyOptions_of_not_refused config options hnone with
        ⟨-, hsame⟩ | ⟨key, number, -, -, hsame⟩ <;> simp [hsame, ih, hnone]

/-- There is a first option that is refused if there is one at all. -/
theorem exists_firstRefused_iff :
    (∃ fault, FirstRefused options fault) ↔ ∃ option ∈ options, ∃ fault, Refused option fault := by
  constructor
  · rintro ⟨fault, before, option, after, rfl, -, hrefused⟩
    exact ⟨option, by simp, fault, hrefused⟩
  · rintro ⟨option, hmem, fault, hrefused⟩
    induction options with
    | nil => cases hmem
    | cons first options ih =>
      by_cases hfirst : ∃ other, Refused first other
      · obtain ⟨other, hother⟩ := hfirst
        exact ⟨other, firstRefused_cons_iff.mpr (.inl hother)⟩
      · have hrest : option ∈ options := by
          rcases List.mem_cons.mp hmem with rfl | hmem
          · exact absurd ⟨fault, hrefused⟩ hfirst
          · exact hmem
        obtain ⟨other, hother⟩ := ih hrest
        exact ⟨other, firstRefused_cons_iff.mpr (.inr ⟨not_exists.mp hfirst, hother⟩)⟩

/-! ### Configurations -/

/-- The first option only counts if its key is not given again. -/
theorem lookup_reverse_cons (options : List (String × String)) (option : String × String)
    (key : String) :
    (option :: options).reverse.lookup key =
      (options.reverse.lookup key).or (if key == option.1 then some option.2 else none) := by
  obtain ⟨name, value⟩ := option
  rw [List.reverse_cons, List.lookup_append, List.lookup_cons]
  cases key == name <;> simp

theorem describes_nil (config : SimulatorConfig) : Describes config [] config where
  last := by simp
  kept _ _ := rfl
  rest := rfl

/-- An option that is not known says nothing. -/
theorem Describes.cons_unknown {base : SimulatorConfig} (h : Describes base options config)
    (hunknown : Unknown option) : Describes base (option :: options) config := by
  have hlookup : ∀ key : OptionKey,
      (option :: options).reverse.lookup key.name = options.reverse.lookup key.name := by
    intro key
    have hne : key.name ≠ option.1 := (hunknown key).symm
    rw [lookup_reverse_cons]
    simp [hne]
  exact ⟨fun key value hvalue => h.last key value (hlookup key ▸ hvalue),
    fun key hnone => h.kept key (hlookup key ▸ hnone), h.rest⟩

/-- What an option sets is what the options say about its key, unless a later one sets it again. -/
theorem Describes.cons_set {base : SimulatorConfig} {key : OptionKey} {number : Nat}
    (h : Describes (key.set number base) options config) (hname : option.1 = key.name)
    (hallows : key.Allows option.2 number) : Describes base (option :: options) config := by
  refine ⟨fun other value hvalue => ?_, fun other hnone => ?_, ?_⟩
  · rw [lookup_reverse_cons] at hvalue
    cases hlater : options.reverse.lookup other.name with
    | some later =>
      rw [hlater] at hvalue
      exact h.last other value (hlater.trans hvalue)
    | none =>
      -- No later option has the key, so it is the key of this option.
      simp only [hlater, Option.none_or, Option.ite_none_right_eq_some, beq_iff_eq,
        Option.some.injEq] at hvalue
      obtain ⟨hsame, rfl⟩ := hvalue
      obtain rfl := OptionKey.name_injective (hsame.trans hname)
      exact ⟨number, hallows, (h.kept other hlater).trans (OptionKey.field_set hallows.1)⟩
  · rw [lookup_reverse_cons, Option.or_eq_none_iff] at hnone
    obtain ⟨hlater, hthis⟩ := hnone
    have hne : other ≠ key := by
      rintro rfl
      simp [hname] at hthis
    rw [h.kept other hlater, OptionKey.field_set_of_ne hne]
  · have hrest := h.rest
    cases key <;> exact hrest

/-- Options that are not refused describe the configuration that comes of them. -/
theorem describes_of_applyOptions (h : (applyOptions config options).2 = .ok result) :
    Describes config options result := by
  induction options generalizing config with
  | nil =>
    obtain rfl := Except.ok.inj h
    exact describes_nil config
  | cons option options ih =>
    have hnone : ∀ fault, ¬ Refused option fault := fun fault hrefused => by
      rw [applyOptions_of_refused hrefused] at h
      cases h
    rcases applyOptions_of_not_refused config options hnone with
      ⟨hunknown, hsame⟩ | ⟨key, number, hname, hallows, hsame⟩
    · exact (ih (hsame ▸ h)).cons_unknown hunknown
    · exact (ih (hsame ▸ h)).cons_set hname hallows

/-- The flash of a configuration that options describe has a size that is a power of two, if the
one before them had. -/
theorem Describes.size_eq {base : SimulatorConfig} (h : Describes base options config)
    (hbase : ∃ exponent, base.flash.size = 2 ^ exponent) :
    ∃ exponent, config.flash.size = 2 ^ exponent := by
  cases hlast : options.reverse.lookup OptionKey.flashSize.name with
  | none =>
    have hkept := Option.some_inj.mp (h.kept .flashSize hlast)
    rwa [hkept]
  | some value =>
    obtain ⟨size, ⟨-, hsize⟩, hfield⟩ := h.last .flashSize value hlast
    rw [Option.some_inj.mp hfield]
    exact hsize rfl

end Options

end Simulator

namespace Programmer

open Simulator
open Choice (ofText written writeOption IsWritable)

/-- A choice is read as it was written: the name, and the options in order. What else stands between
the commas makes no difference, and neither does an option whose key is not known. Of the options,
the first one that is refused is reported. Without one, every key has the value of its last option,
and the default one if there is none. The size of the flash is a power of two in any case. -/
theorem choice_roundTrip :
    (∀ (name : String) (options : List (String × String)), ':' ∉ name.toList →
      (∀ option ∈ options, IsWritable option) →
      ofText (written name (options.map writeOption)) = ⟨name, options⟩) ∧
    (∀ (name : String) (before others after : List String), ':' ∉ name.toList →
      (∀ other ∈ others, '=' ∉ other.toList) →
      ofText (written name (before ++ others ++ after)) = ofText (written name (before ++ after))) ∧
    (∀ (before : List (String × String)) (option : String × String)
      (after : List (String × String)), Unknown option →
      (readOptions (before ++ option :: after)).2 = (readOptions (before ++ after)).2) ∧
    ∀ options : List (String × String),
      ((∃ fault, (readOptions options).2 = .error fault) ↔
        ∃ option ∈ options, ∃ fault, Refused option fault) ∧
      (∀ fault, (readOptions options).2 = .error fault ↔ FirstRefused options fault) ∧
      ((∀ option ∈ options, ∀ fault, ¬ Refused option fault) →
        ∃ config, (readOptions options).2 = .ok config ∧ Describes {} options config) ∧
      ∀ config, (readOptions options).2 = .ok config →
        ∃ exponent, config.flash.size = 2 ^ exponent := by
  refine ⟨fun name options hname hoptions => Choice.ofText_written_options hname hoptions,
    fun name before others after hname hothers =>
      Choice.ofText_written_others hname before after hothers,
    fun before option after hunknown => applyOptions_unknown hunknown before after,
    fun options => ?_⟩
  -- If an option is refused, there is a first one, and that is reported.
  have hfails : (∃ fault, (readOptions options).2 = .error fault) ↔
      ∃ option ∈ options, ∃ fault, Refused option fault := by
    rw [← exists_firstRefused_iff]
    exact exists_congr fun fault => applyOptions_eq_error_iff
  refine ⟨hfails, fun fault => applyOptions_eq_error_iff, fun hnone => ?_, fun config hread => ?_⟩
  · cases hread : (readOptions options).2 with
    | ok config => exact ⟨config, rfl, describes_of_applyOptions hread⟩
    | error fault =>
      obtain ⟨option, hmem, fault, hrefused⟩ := hfails.mp ⟨fault, hread⟩
      exact absurd hrefused (hnone option hmem fault)
  · exact (describes_of_applyOptions hread).size_eq ⟨22, rfl⟩

/-- A device with a value that looks like an option, a key that is given twice, and an entry that is
no option. A flash of 1000 bytes is refused, and nothing behind it is read. -/
theorem choice_roundTrip_sim :
    let options := [("idcode", "0x0100381B"), ("note", "a=b:c"), ("idcode", "0100981b")]
    written "sim" (options.map writeOption) = "sim:idcode=0x0100381B,note=a=b:c,idcode=0100981b" ∧
    ofText (written "sim" (options.map writeOption)) = ⟨"sim", options⟩ ∧
    ofText (written "sim" (options.map writeOption ++ ["verbose"] ++ [])) = ⟨"sim", options⟩ ∧
    (∃ config, (readOptions options).2 = .ok config ∧ Describes {} options config ∧
      config.idcode = 0x0100981B ∧ ∃ exponent, config.flash.size = 2 ^ exponent) ∧
    (readOptions options).2 = (readOptions ([options[0]] ++ [options[2]])).2 ∧
    FirstRefused [("flash_size", "1000"), ("idcode", "xyz")] (.flashSize 1000) := by
  intro options
  obtain ⟨hread, hothers, hunknown, hoptions⟩ := choice_roundTrip
  have hname : ':' ∉ "sim".toList := by decide
  have hsame := hread "sim" options hname (by simp [options, IsWritable])
  obtain ⟨hfails, -, hdescribes, hsize⟩ := hoptions options
  have hok : (readOptions options).2 = .ok { idcode := 0x0100981B } := by decide +kernel
  have hnone : ∀ option ∈ options, ∀ fault, ¬ Refused option fault := by
    intro option hmem fault hrefused
    obtain ⟨fault, herror⟩ := hfails.mpr ⟨option, hmem, fault, hrefused⟩
    cases hok.symm.trans herror
  obtain ⟨config, hconfig, hdescribes⟩ := hdescribes hnone
  obtain rfl := Except.ok.inj (hok.symm.trans hconfig)
  refine ⟨by decide +kernel, hsame, ?_, ⟨_, hok, hdescribes, rfl, hsize _ hok⟩, ?_, ?_⟩
  · rw [hothers "sim" _ ["verbose"] [] hname (by decide), List.append_nil, hsame]
  · refine hunknown [options[0]] options[1] [options[2]] fun key => ?_
    cases key <;> decide
  · exact ((hoptions _).2.1 _).mp (by decide +kernel)

end Programmer

end FpgaProgrammer
