import FpgaProgrammer.Device.Profile

/-!
# What the table of families says

A profile is one of the table or the one of an unknown device (`Profile.ofIdcode_cases`), so that
what holds of all families can be read off the table.

* `hasProcessor_ofIdcode`: one family has an embedded processor.
* `embedded_of_ofIdcode`: a family with an embedded flash can be written to it, and reports the
  checksum of what was loaded.
-/

namespace FpgaProgrammer.Profile

variable {idcode : UInt32}

/-- A device is in the table, or it gets the profile of an unknown one. -/
theorem ofIdcode_cases (idcode : UInt32) :
    ofIdcode idcode = {} ∨ (idcode, ofIdcode idcode) ∈ table := by
  unfold ofIdcode
  cases hlookup : table.lookup idcode with
  | none => exact .inl rfl
  | some profile =>
    obtain ⟨before, after, htable, -⟩ := List.lookup_eq_some_iff.mp hlookup
    refine .inr ?_
    rw [htable]
    exact List.mem_append_right _ List.mem_cons_self

/-- What holds of the profile of an unknown device and of those in the table holds of all. -/
theorem ofIdcode_mem (idcode : UInt32) :
    ofIdcode idcode ∈ ({} : Profile) :: table.map Prod.snd := by
  rcases ofIdcode_cases idcode with hunknown | hmem
  · rw [hunknown]
    exact List.mem_cons_self
  · exact List.mem_cons_of_mem _ (List.mem_map_of_mem hmem)

/-- One family has an embedded processor. -/
theorem hasProcessor_ofIdcode : (ofIdcode idcode).hasProcessor = true ↔ idcode = 0x0100981B := by
  have htable : ∀ entry ∈ table, entry.2.hasProcessor = true → entry.1 = 0x0100981B := by decide
  constructor
  · intro hprocessor
    rcases ofIdcode_cases idcode with hunknown | hmem
    · rw [hunknown] at hprocessor
      cases hprocessor
    · exact htable _ hmem hprocessor
  · rintro rfl
    rfl

/-- An embedded flash can be written, and the families that have one report the checksum of what
was loaded. -/
theorem embedded_of_ofIdcode (h : (ofIdcode idcode).externalFlashOnly = false) :
    (ofIdcode idcode).withoutFlashWrite = false ∧ (ofIdcode idcode).withoutChecksum = false := by
  have hall : ∀ profile ∈ ({} : Profile) :: table.map Prod.snd, profile.externalFlashOnly = false →
      profile.withoutFlashWrite = false ∧ profile.withoutChecksum = false := by
    decide
  exact hall _ (ofIdcode_mem idcode) h

end FpgaProgrammer.Profile
