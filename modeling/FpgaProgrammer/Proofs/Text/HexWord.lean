import FpgaProgrammer.CommandLine.Command
import FpgaProgrammer.Proofs.Text.Numeral
import Mathlib.Data.List.DropRight

/-!
# Which texts are words

Words are read in two places: header fields hold hexadecimal ones, with or without a marker, and the
command line takes hexadecimal ones behind a marker and decimal ones otherwise.

* `IsHexWord text value` — the grammar of a header field: blanks around a hexadecimal numeral, which
  may have a marker before it.
* `readHexWord?_eq_some_iff` — header fields are read by this grammar.
* `isHexWord_printed` — every word is read as it is printed, whatever its width and case.
* `readWord_of_isMarked`, `readWord_of_not_isMarked` — where the command line reads the same words,
  and what it reads elsewhere.
* `words_grammar` — all of this together.
-/

namespace FpgaProgrammer.Text

variable {text core numeral before after : List Char} {value : Nat} {c : Char}

/-! ## Markers -/

/-- What may stand before a hexadecimal numeral. -/
def hexMarkers : List (List Char) :=
  [[], ['0', 'x'], ['0', 'X']]

/-- The text is a hexadecimal numeral, which may have a marker before it. -/
def IsMarkedNumeral (text : List Char) (value : Nat) : Prop :=
  ∃ marker ∈ hexMarkers, ∃ numeral, text = marker ++ numeral ∧ IsNumeral 16 numeral value

/-- A character that may be in a numeral is a sign or a digit. -/
theorem IsNumeral.of_mem {base : Nat} (h : IsNumeral base text value) (hc : c ∈ text) :
    c = '+' ∨ ∃ digit, IsDigit base c digit := by
  obtain hspells | ⟨chars, rfl, hspells⟩ := isNumeral_iff.mp h
  · exact .inr (hspells.isDigit_of_mem hc)
  · rcases List.mem_cons.mp hc with rfl | hc
    · exact .inl rfl
    · exact .inr (hspells.isDigit_of_mem hc)

/-- What holds of the sign and of the digits in either case holds of every character of a
numeral. -/
theorem IsNumeral.forall_mem {base : Nat} (h : IsNumeral base text value) (hbase : base ≤ 16)
    (property : Char → Prop) (hplus : property '+')
    (hall : ∀ digit < 16, property (Nat.digitChar digit) ∧ property (Nat.digitChar digit).toUpper) :
    ∀ c ∈ text, property c := by
  intro c hc
  obtain rfl | ⟨digit, hdigit⟩ := h.of_mem hc
  · exact hplus
  · exact hdigit.forall_hex hbase property hall

/-- A marker is none of the characters of a numeral. -/
theorem IsNumeral.not_marker {base : Nat} (h : IsNumeral base text value) (hbase : base ≤ 16) :
    ∀ c ∈ text, c ≠ 'x' ∧ c ≠ 'X' :=
  h.forall_mem hbase (fun c => c ≠ 'x' ∧ c ≠ 'X') (by decide) (by decide)

/-- A marker is a zero followed by an x of either case, and the numeral is what follows. -/
theorem hexMarker?_eq_some_iff :
    hexMarker? text = some numeral ↔
      text = '0' :: 'x' :: numeral ∨ text = '0' :: 'X' :: numeral := by
  unfold hexMarker?
  split <;> grind

/-- A numeral does not begin with a marker. -/
theorem IsNumeral.hexMarker?_eq_none {base : Nat} (h : IsNumeral base text value)
    (hbase : base ≤ 16) : hexMarker? text = none := by
  have hmarker := h.not_marker hbase
  cases hrest : hexMarker? text with
  | none => rfl
  | some rest =>
    rcases hexMarker?_eq_some_iff.mp hrest with rfl | rfl
    · simp at hmarker
    · simp at hmarker

/-- What remains behind the marker, if there is one, is the numeral. -/
theorem isNumeral_unmarked_iff :
    IsNumeral 16 ((hexMarker? text).getD text) value ↔ IsMarkedNumeral text value := by
  constructor
  · intro h
    cases hmarker : hexMarker? text with
    | none =>
      rw [hmarker] at h
      exact ⟨[], by simp [hexMarkers], text, rfl, h⟩
    | some numeral =>
      rw [hmarker] at h
      rcases hexMarker?_eq_some_iff.mp hmarker with rfl | rfl
      · exact ⟨['0', 'x'], by simp [hexMarkers], numeral, rfl, h⟩
      · exact ⟨['0', 'X'], by simp [hexMarkers], numeral, rfl, h⟩
  · rintro ⟨marker, hmarker, numeral, rfl, hnumeral⟩
    simp only [hexMarkers, List.mem_cons, List.not_mem_nil, or_false] at hmarker
    -- Without a marker nothing is taken off, since the numeral does not begin with one itself.
    rcases hmarker with rfl | rfl | rfl
    · simpa [hnumeral.hexMarker?_eq_none] using hnumeral
    · exact hnumeral
    · exact hnumeral

/-- As a word, a numeral is read if its value fits into one. -/
theorem readNumeral_word_eq_some_iff {base : Nat} (hbase : base ≤ 16) (hpos : 0 < base)
    {word : UInt32} :
    (readNumeral base UInt32.size text).toOption.map Nat.toUInt32 = some word ↔
      IsNumeral base text word.toNat := by
  have hread : ∀ {value}, readNumeral base UInt32.size text = .ok value ↔
      IsNumeral base text value ∧ value < UInt32.size :=
    readNumeral_eq_ok_iff hbase hpos (by decide)
  constructor
  · intro h
    cases hnumeral : readNumeral base UInt32.size text with
    | error fault => simp [hnumeral, Except.toOption] at h
    | ok value =>
      obtain ⟨hvalue, hfits⟩ := hread.mp hnumeral
      obtain rfl : value.toUInt32 = word := by simpa [hnumeral, Except.toOption] using h
      rwa [Nat.toUInt32, UInt32.toNat_ofNat_of_lt' hfits]
  · intro h
    rw [hread.mpr ⟨h, word.toNat_lt⟩]
    simp [Except.toOption]

/-! ## Blanks -/

/-- The text is a word as header fields hold it: a hexadecimal numeral, which may have a marker
before it, with any blanks around. -/
def IsHexWord (text : List Char) (value : Nat) : Prop :=
  ∃ before core after, text = before ++ core ++ after ∧ (∀ c ∈ before, isBlank c = true) ∧
    (∀ c ∈ after, isBlank c = true) ∧ IsMarkedNumeral core value

/-- Trimming takes blanks away at both ends, and nothing else. -/
theorem exists_eq_trim (text : List Char) :
    ∃ before after, text = before ++ trim text ++ after ∧ (∀ c ∈ before, isBlank c = true) ∧
      ∀ c ∈ after, isBlank c = true := by
  have htrim : trim text = (text.dropWhile isBlank).rdropWhile isBlank := rfl
  refine ⟨text.takeWhile isBlank, (text.dropWhile isBlank).rtakeWhile isBlank, ?_, ?_, ?_⟩
  · rw [htrim, List.append_assoc, List.rdropWhile_append_rtakeWhile,
      List.takeWhile_append_dropWhile]
  · exact fun c => List.mem_takeWhile_imp
  · exact fun c => List.mem_rtakeWhile_imp

/-- Blanks in front of a text that does not begin with one are dropped. -/
theorem dropWhile_blanks (hbefore : ∀ c ∈ before, isBlank c = true)
    (hhead : ∀ c ∈ text.head?, isBlank c = false) :
    (before ++ text).dropWhile isBlank = text := by
  rw [List.dropWhile_append_of_pos hbefore]
  cases text with
  | nil => rfl
  | cons c text => exact List.dropWhile_cons_of_neg (by simpa using hhead)

/-- Of a text with blanks around it, trimming leaves the text, if it neither begins nor ends with
one. -/
theorem trim_surrounded (hbefore : ∀ c ∈ before, isBlank c = true)
    (hafter : ∀ c ∈ after, isBlank c = true) (hcore : core ≠ [])
    (hhead : ∀ c ∈ core.head?, isBlank c = false)
    (hlast : ∀ c ∈ core.getLast?, isBlank c = false) : trim (before ++ core ++ after) = core := by
  have hfront : ∀ c ∈ (core ++ after).head?, isBlank c = false := by
    rwa [List.head?_append_of_ne_nil core hcore]
  unfold trim
  rw [List.append_assoc, dropWhile_blanks hbefore hfront, List.reverse_append,
    dropWhile_blanks (by simpa using hafter) (by simpa using hlast), List.reverse_reverse]

/-- No character of a hexadecimal numeral is blank, and there is at least one. -/
theorem IsMarkedNumeral.not_blank (h : IsMarkedNumeral text value) :
    text ≠ [] ∧ ∀ c ∈ text, isBlank c = false := by
  obtain ⟨marker, hmarker, numeral, rfl, hnumeral⟩ := h
  have hmarkers : ∀ marker ∈ hexMarkers, ∀ c ∈ marker, isBlank c = false := by
    simp [hexMarkers, isBlank]
  refine ⟨?_, List.forall_mem_append.mpr ⟨hmarkers marker hmarker,
    hnumeral.forall_mem (by decide) (isBlank · = false) (by decide) (by decide)⟩⟩
  obtain hspells | ⟨chars, rfl, -⟩ := isNumeral_iff.mp hnumeral
  · simp [hspells.1]
  · simp

/-! ## Header fields -/

/-- A word is read without blanks around it and without its marker, as a numeral in base 16. -/
theorem readHexWord?_eq (text : String) :
    readHexWord? text = (readNumeral 16 UInt32.size
      ((hexMarker? (trim text.toList)).getD (trim text.toList))).toOption.map Nat.toUInt32 := by
  unfold readHexWord?
  dsimp only
  cases readNumeral 16 UInt32.size ((hexMarker? (trim text.toList)).getD (trim text.toList)) <;> rfl

/-- Header fields are read by their grammar. -/
theorem readHexWord?_eq_some_iff {text : String} {word : UInt32} :
    readHexWord? text = some word ↔ IsHexWord text.toList word.toNat := by
  have hread : readHexWord? text = some word ↔ IsMarkedNumeral (trim text.toList) word.toNat := by
    rw [readHexWord?_eq, readNumeral_word_eq_some_iff (by decide) (by decide),
      isNumeral_unmarked_iff]
  rw [hread]
  constructor
  · intro hmarked
    obtain ⟨before, after, htext, hbefore, hafter⟩ := exists_eq_trim text.toList
    exact ⟨before, _, after, htext, hbefore, hafter, hmarked⟩
  · rintro ⟨before, core, after, htext, hbefore, hafter, hmarked⟩
    obtain ⟨hcore, hblank⟩ := hmarked.not_blank
    have htrim : trim text.toList = core := by
      rw [htext]
      exact trim_surrounded hbefore hafter hcore (fun c hc => hblank c (List.mem_of_head? hc))
        fun c hc => hblank c (List.mem_of_getLast? hc)
    rwa [htrim]

/-! ## Printed words -/

/-- A word as it is printed spells its value, in either case and with any number of digits. -/
theorem spells_hex (width value : Nat) :
    Spells 16 (hexLower width value).toList value ∧
      Spells 16 (hexUpper width value).toList value := by
  have hlower : Spells 16 (hexLower width value).toList value := by
    simpa [hexLower] using (spells_toDigits (by decide) value).zeros (by decide) _
  refine ⟨hlower, ?_⟩
  simpa [hexUpper] using hlower.map_toUpper (by decide)

/-- A printed word is a hexadecimal word, with or without a marker, and with any blanks around. -/
theorem isHexWord_printed (hbefore : ∀ c ∈ before, isBlank c = true)
    (hafter : ∀ c ∈ after, isBlank c = true) {marker : List Char} (hmarker : marker ∈ hexMarkers)
    {printed : String} {width : Nat}
    (hprinted : printed = hexLower width value ∨ printed = hexUpper width value) :
    IsHexWord (before ++ (marker ++ printed.toList) ++ after) value := by
  have hspells : Spells 16 printed.toList value := by
    rcases hprinted with rfl | rfl
    · exact (spells_hex width value).1
    · exact (spells_hex width value).2
  exact ⟨before, _, after, rfl, hbefore, hafter, marker, hmarker, _, rfl,
    isNumeral_iff.mpr (.inl hspells)⟩

/-! ## Words on the command line -/

open CommandLine (readWord)

/-- The text begins with a marker and does not end with a blank. -/
def IsMarked (text : List Char) : Prop :=
  (['0', 'x'] <+: text ∨ ['0', 'X'] <+: text) ∧ ∀ c ∈ text.getLast?, isBlank c = false

/-- A text has a marker exactly if it begins with one of the two. -/
theorem exists_hexMarker?_iff :
    (∃ rest, hexMarker? text = some rest) ↔ ['0', 'x'] <+: text ∨ ['0', 'X'] <+: text := by
  simp only [hexMarker?_eq_some_iff, exists_or]
  simp [List.IsPrefix, eq_comm]

/-- Behind a marker, the command line reads a hexadecimal numeral. -/
theorem readWord_of_marker {text : String} {digits : List Char}
    (h : hexMarker? text.toList = some digits) :
    (readWord text).toOption = (readNumeral 16 UInt32.size digits).toOption.map Nat.toUInt32 := by
  unfold readWord
  rw [h]
  dsimp only
  cases readNumeral 16 UInt32.size digits <;> rfl

/-- Without a marker, the command line reads a decimal numeral. -/
theorem readWord_of_no_marker {text : String} (h : hexMarker? text.toList = none) :
    (readWord text).toOption =
      (readNumeral 10 UInt32.size text.toList).toOption.map Nat.toUInt32 := by
  unfold readWord
  rw [h]
  dsimp only
  cases readNumeral 10 UInt32.size text.toList <;> rfl

/-- Text that begins with a marker and does not end with a blank is read on the command line as in
a header field. -/
theorem readWord_of_isMarked {text : String} (h : IsMarked text.toList) :
    (readWord text).toOption = readHexWord? text := by
  obtain ⟨hfirst, hlast⟩ := h
  obtain ⟨digits, hmarker⟩ := exists_hexMarker?_iff.mpr hfirst
  have hhead : text.toList ≠ [] ∧ ∀ c ∈ text.toList.head?, isBlank c = false := by
    rcases hexMarker?_eq_some_iff.mp hmarker with htext | htext
    · simp [htext, isBlank]
    · simp [htext, isBlank]
  have hnothing : ∀ c ∈ ([] : List Char), isBlank c = true := by simp
  have htrim : trim text.toList = text.toList := by
    simpa using trim_surrounded hnothing hnothing hhead.1 hhead.2 hlast
  rw [readWord_of_marker hmarker, readHexWord?_eq, htrim, hmarker, Option.getD_some]

/-- Any other text is read on the command line as a decimal numeral, or not at all. -/
theorem readWord_of_not_isMarked {text : String} (h : ¬ IsMarked text.toList) {word : UInt32} :
    (readWord text).toOption = some word ↔ IsNumeral 10 text.toList word.toNat := by
  cases hmarker : hexMarker? text.toList with
  | none =>
    rw [readWord_of_no_marker hmarker]
    exact readNumeral_word_eq_some_iff (by decide) (by decide)
  | some digits =>
    rw [readWord_of_marker hmarker, readNumeral_word_eq_some_iff (by decide) (by decide)]
    -- The marker is no part of a decimal numeral, and the blank at the end none of any numeral.
    obtain ⟨c, hc, hblank⟩ : ∃ c ∈ text.toList.getLast?, isBlank c = true := by
      simpa [IsMarked, exists_hexMarker?_iff.mp ⟨digits, hmarker⟩] using h
    refine iff_of_false (fun hnumeral => ?_) fun hnumeral => ?_
    · have hmarked : IsMarkedNumeral text.toList word.toNat := by
        rw [← isNumeral_unmarked_iff, hmarker]
        exact hnumeral
      simp [hmarked.not_blank.2 c (List.mem_of_getLast? hc)] at hblank
    · rw [hnumeral.hexMarker?_eq_none (by decide)] at hmarker
      cases hmarker

/-! ## Both -/

/-- Header fields are read by their grammar, so that every word is read back from however it may be
printed. The command line reads the same words where a marker stands first and no blank last, and
decimal numerals everywhere else. -/
theorem words_grammar :
    (∀ (text : String) (word : UInt32),
      readHexWord? text = some word ↔ IsHexWord text.toList word.toNat) ∧
    (∀ (word : UInt32) (before after : List Char) (width : Nat), (∀ c ∈ before, isBlank c = true) →
      (∀ c ∈ after, isBlank c = true) → ∀ marker ∈ hexMarkers,
      ∀ printed ∈ [hexLower width word.toNat, hexUpper width word.toNat],
        readHexWord? (.ofList (before ++ (marker ++ printed.toList) ++ after)) = some word) ∧
    (∀ text : String, IsMarked text.toList → (readWord text).toOption = readHexWord? text) ∧
    ∀ text : String, ¬ IsMarked text.toList → ∀ word : UInt32,
      (readWord text).toOption = some word ↔ IsNumeral 10 text.toList word.toNat := by
  refine ⟨fun text word => readHexWord?_eq_some_iff, ?_, fun text => readWord_of_isMarked,
    fun text h word => readWord_of_not_isMarked h⟩
  intro word before after width hbefore hafter marker hmarker printed hprinted
  rw [readHexWord?_eq_some_iff, String.toList_ofList]
  exact isHexWord_printed hbefore hafter hmarker (by simpa using hprinted)

/-- An idcode with blanks around it. On the command line, a blank at its end is no part of a
word. -/
theorem words_grammar_idcode :
    readHexWord? "\t0X0900281b\u3000" = some 0x0900281B ∧
    (readWord "0X0900281b").toOption = readHexWord? "0X0900281b" ∧
    ∀ word : UInt32, (readWord "0X0900281b ").toOption = some word ↔
      IsNumeral 10 "0X0900281b ".toList word.toNat := by
  obtain ⟨-, hprinted, hmarked, hunmarked⟩ := words_grammar
  have htab : ∀ c ∈ ['\t'], isBlank c = true := by simp [isBlank]
  have hspace : ∀ c ∈ ['\u3000'], isBlank c = true := by simp [isBlank]
  have hword := hprinted 0x0900281B ['\t'] ['\u3000'] 8 htab hspace ['0', 'X'] (by decide) _
    List.mem_cons_self
  have htext : String.ofList (['\t'] ++ (['0', 'X'] ++
      (hexLower 8 (0x0900281B : UInt32).toNat).toList) ++ ['\u3000']) = "\t0X0900281b\u3000" := by
    decide +kernel
  rw [htext] at hword
  refine ⟨hword, hmarked _ ⟨by decide, ?_⟩, hunmarked _ ?_⟩
  · simp [isBlank]
  · rintro ⟨-, hblank⟩
    simpa [isBlank] using hblank ' ' (by decide)

end FpgaProgrammer.Text
