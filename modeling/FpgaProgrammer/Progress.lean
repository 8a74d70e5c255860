/-!
# Progress

Long stages report how far they are. A report is a block: one start with the total, any number of
advances with what is done so far, and one finish.
-/

namespace FpgaProgrammer

/-- A stage that reports its progress. -/
inductive Stage where
  /-- Streaming an image into SRAM, counted in bits. -/
  | loadSram
  /-- Erasing the embedded flash, counted in attempts. -/
  | eraseFlash
  /-- Writing the embedded flash, counted in bytes. -/
  | writeFlash
  deriving Repr, DecidableEq

/-- The name of a stage as it is shown. -/
def Stage.label : Stage → String
  | .loadSram => "Load SRAM"
  | .eraseFlash => "Erasing FLASH"
  | .writeFlash => "Writing to FLASH"

/-- One report on a stage. -/
inductive Progress where
  /-- The stage begins. -/
  | start (stage : Stage) (total : Nat)
  /-- So much is done. -/
  | advance (amount : Nat)
  /-- The stage is over. -/
  | finish (ok : Bool)
  deriving Repr, DecidableEq

end FpgaProgrammer
