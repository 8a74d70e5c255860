import FpgaProgrammer.Device.Register
import FpgaProgrammer.Image

/-!
# Checking what was loaded

After an image was loaded, most families report its checksum in the usercode register.
-/

namespace FpgaProgrammer.Device

/-- What came of comparing the usercode register with the checksum of an image. -/
inductive UsercodeCheck where
  /-- The register holds the checksum. -/
  | agrees
  /-- The register holds neither the computed nor the declared checksum. -/
  | differs (usercode : UInt32) (checksum : UInt16)
  /-- Nothing was compared. -/
  | skipped
  deriving Repr, DecidableEq

/-- The check did not find a difference. -/
def UsercodeCheck.isOk : UsercodeCheck → Bool
  | .differs _ _ => false
  | _ => true

/-- The usercode stands for the image: its low half is the checksum, or all of it is the word that
the header declares as `checkSum`. -/
def usercodeMatches (image : Image) (usercode : UInt32) : Bool :=
  usercode.toUInt16 == image.checksum ||
    (image.header? "checkSum").bind Text.readHexWord? == some usercode

/-- Compares the usercode register with the checksum of the image. A difference is a result, not a
failure. -/
def checkUsercode (image : Image) : Host UsercodeCheck := do
  let usercode ← readUsercode
  if usercodeMatches image usercode then
    Host.log .info "CRC check: Success"
    pure .agrees
  else
    Host.log .error "CRC check: FAIL"
    Host.log .error ("read: " ++ showWord usercode ++ " checksum: 0x" ++
      Text.hexLower 4 image.checksum.toNat)
    pure (.differs usercode image.checksum)

end FpgaProgrammer.Device
