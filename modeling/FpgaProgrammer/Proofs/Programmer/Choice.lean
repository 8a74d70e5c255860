import FpgaProgrammer.Programmer
import Mathlib.Data.List.Basic

/-!
# Choices as they are written

A choice of programmer is written as a name, a colon, and entries with commas between them. An entry
with an equals sign is an option; any other entry is passed over.

* `Text.cutAt?_append`, `Text.splitAt_append`: a text is cut at the first separator, and split at
  each.
* `Choice.written`: a name and entries as they are written.
* `Choice.ofText_written`: whatever the entries are, each of them is read on its own.
* `Choice.ofText_written_options`, `Choice.ofText_written_others`: options are read back, and
  entries without an equals sign make no difference.
-/

namespace FpgaProgrammer

namespace Text

variable {separator : Char} {before after text part : List Char}

/-! ## Separators -/

/-- A text is cut at the first separator. -/
theorem cutAt?_append (h : separator ∉ before) :
    cutAt? separator (before ++ separator :: after) = some (before, after) := by
  induction before with
  | nil => simp [cutAt?]
  | cons c before ih =>
    have hc : c ≠ separator := (List.ne_of_not_mem_cons h).symm
    simp [cutAt?, hc, ih (List.not_mem_of_not_mem_cons h)]

/-- A text without a separator is not cut. -/
theorem cutAt?_eq_none (h : separator ∉ text) : cutAt? separator text = none := by
  induction text with
  | nil => rfl
  | cons c text ih =>
    have hc : c ≠ separator := (List.ne_of_not_mem_cons h).symm
    simp [cutAt?, hc, ih (List.not_mem_of_not_mem_cons h)]

/-- Every text has a first part, if an empty one. -/
theorem splitAt_ne_nil (separator : Char) (text : List Char) : splitAt separator text ≠ [] := by
  cases text with
  | nil => simp [splitAt]
  | cons c text =>
    unfold splitAt
    split
    · simp
    · split <;> simp

/-- The parts of a text with a separator in it are those before and those after it. -/
theorem splitAt_append (separator : Char) (before after : List Char) :
    splitAt separator (before ++ separator :: after) =
      splitAt separator before ++ splitAt separator after := by
  induction before with
  | nil => simp [splitAt]
  | cons c before ih =>
    by_cases hc : c = separator
    · simp [splitAt, hc, ih]
    · -- The character is put in front of the first part, which is one of the text before.
      obtain ⟨first, parts, hparts⟩ := List.exists_cons_of_ne_nil (splitAt_ne_nil separator before)
      simp [splitAt, hc, ih, hparts]

/-- A text without a separator is its only part. -/
theorem splitAt_of_not_mem (h : separator ∉ text) : splitAt separator text = [text] := by
  induction text with
  | nil => rfl
  | cons c text ih =>
    have hc : c ≠ separator := (List.ne_of_not_mem_cons h).symm
    simp [splitAt, hc, ih (List.not_mem_of_not_mem_cons h)]

/-- The parts of a text consist of characters of it. -/
theorem subset_of_mem_splitAt (h : part ∈ splitAt separator text) : part ⊆ text := by
  induction text generalizing part with
  | nil =>
    obtain rfl : part = [] := by simpa [splitAt] using h
    exact List.Subset.refl _
  | cons c text ih =>
    obtain ⟨first, parts, hparts⟩ := List.exists_cons_of_ne_nil (splitAt_ne_nil separator text)
    have hsubset : ∀ part ∈ first :: parts, part ⊆ text := fun part hmem => ih (hparts ▸ hmem)
    by_cases hc : c = separator
    · simp only [splitAt, hc, if_true, hparts, List.mem_cons] at h
      rcases h with rfl | h
      · exact List.nil_subset _
      · exact List.subset_cons_of_subset _ (hsubset part (List.mem_cons.mpr h))
    · simp only [splitAt, hc, if_false, hparts, List.mem_cons] at h
      rcases h with rfl | h
      · exact List.cons_subset_cons _ (hsubset first List.mem_cons_self)
      · exact List.subset_cons_of_subset _ (hsubset part (List.mem_cons_of_mem _ h))

end Text

namespace Programmer.Choice

variable {name : String}

/-! ## Entries -/

/-- The options in a text: those of its parts between commas that have an equals sign. -/
def optionsIn (text : List Char) : List (String × String) :=
  (Text.splitAt ',' text).filterMap Text.keyValue?

/-- An option as it is written. -/
def writeOption (option : String × String) : String :=
  option.1 ++ "=" ++ option.2

/-- The option can be told from what is around it: its key ends at the first equals sign, and
neither part has a comma. The value may have any other character. -/
def IsWritable (option : String × String) : Prop :=
  '=' ∉ option.1.toList ∧ ',' ∉ option.1.toList ∧ ',' ∉ option.2.toList

/-- An option that can be told from others is read as it was written. -/
theorem optionsIn_writeOption {option : String × String} (h : IsWritable option) :
    optionsIn (writeOption option).toList = [option] := by
  obtain ⟨key, value⟩ := option
  obtain ⟨hequals, hkey, hvalue⟩ := h
  have hwhole : ',' ∉ key.toList ++ '=' :: value.toList := by simp [hkey, hvalue]
  simp [optionsIn, writeOption, Text.splitAt_of_not_mem hwhole, Text.keyValue?,
    Text.cutAt?_append hequals]

/-- Where there is no equals sign, there is no option. -/
theorem optionsIn_eq_nil {text : List Char} (h : '=' ∉ text) : optionsIn text = [] := by
  refine List.filterMap_eq_nil_iff.mpr fun part hpart => ?_
  have hnone : '=' ∉ part := fun hmem => h (Text.subset_of_mem_splitAt hpart hmem)
  rw [Text.keyValue?, Text.cutAt?_eq_none hnone, Option.map_none]

/-- The options in entries with commas between them are the ones in each. -/
theorem optionsIn_intercalate (entries : List (List Char)) :
    optionsIn ([','].intercalate entries) = entries.flatMap optionsIn := by
  -- On the entries; the last one has no comma after it.
  induction entries with
  | nil => rfl
  | cons entry entries ih =>
    cases entries with
    | nil => simp
    | cons next entries =>
      rw [List.intercalate_cons_cons, List.append_assoc, List.singleton_append, optionsIn,
        Text.splitAt_append, List.filterMap_append, List.flatMap_cons, ← ih]
      rfl

/-! ## Choices -/

/-- A name and entries as they are written. -/
def written (name : String) (entries : List String) : String :=
  name ++ ":" ++ ",".intercalate entries

/-- The name ends at the first colon, and each entry behind it is read on its own. -/
theorem ofText_written (hname : ':' ∉ name.toList) (entries : List String) :
    ofText (written name entries) =
      ⟨name, entries.flatMap fun entry => optionsIn entry.toList⟩ := by
  have hcut : Text.cutAt? ':' (written name entries).toList =
      some (name.toList, [','].intercalate (entries.map String.toList)) := by
    rw [← Text.cutAt?_append hname]
    simp [written]
  have hoptions := optionsIn_intercalate (entries.map String.toList)
  rw [List.flatMap_map] at hoptions
  rw [ofText, hcut]
  dsimp only
  rw [String.ofList_toList, ← hoptions]
  rfl

/-- A choice is read as it was written. -/
theorem ofText_written_options (hname : ':' ∉ name.toList)
    {options : List (String × String)} (hoptions : ∀ option ∈ options, IsWritable option) :
    ofText (written name (options.map writeOption)) = ⟨name, options⟩ := by
  have hread : options.flatMap (fun option => optionsIn (writeOption option).toList) = options := by
    rw [List.flatMap_congr fun option hmem => optionsIn_writeOption (hoptions option hmem)]
    simp
  rw [ofText_written hname, List.flatMap_map, hread]

/-- Entries without an equals sign make no difference, wherever they stand. -/
theorem ofText_written_others (hname : ':' ∉ name.toList) (before after : List String)
    {others : List String} (hothers : ∀ other ∈ others, '=' ∉ other.toList) :
    ofText (written name (before ++ others ++ after)) =
      ofText (written name (before ++ after)) := by
  have hnone : others.flatMap (fun other => optionsIn other.toList) = [] :=
    List.flatMap_eq_nil_iff.mpr fun other hmem => optionsIn_eq_nil (hothers other hmem)
  rw [ofText_written hname, ofText_written hname]
  simp [hnone]

end Programmer.Choice

end FpgaProgrammer
