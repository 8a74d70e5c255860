import FpgaProgrammer.Device.Profile
import FpgaProgrammer.Device.Status
import FpgaProgrammer.Programmer

/-!
# Reports

The texts that commands write to standard output.
-/

namespace FpgaProgrammer.CommandLine

/-- Lines of text, each ended. -/
def unlines (lines : List String) : String :=
  String.join (lines.map (· ++ "\n"))

/-- A word as reports show it. -/
def showWord (word : UInt32) : String :=
  "0x" ++ Text.hexUpper 8 word.toNat

/-- Where flash programming goes for a family. -/
def flashTarget (profile : Profile) : String :=
  if profile.withoutFlashWrite then "unsupported"
  else if profile.externalFlashOnly then "external"
  else "embedded"

/-- How the external flash of a family is reached. -/
def spiAccess (profile : Profile) : String :=
  if profile.spi.isPassthrough then "shift register" else "boundary-scan bitbang"

/-- What is known of a device. -/
def deviceReport (idcode : UInt32) (profile : Profile) : String :=
  unlines <|
    ["Device Information",
      "==================",
      "",
      "Idcode:          " ++ showWord idcode,
      "Family:          " ++ profile.family.name,
      s!"Erase pulses:    {profile.erasePulses}",
      "Flash target:    " ++ flashTarget profile,
      "SPI access:      " ++ spiAccess profile,
      "Checksum:        " ++ if profile.withoutChecksum then "not reported" else "usercode"] ++
    if profile.hasProcessor then ["MCU firmware:    supported"] else []

/-- The status of a device. -/
def statusReport (status : Status) (usercode : UInt32) : String :=
  unlines <|
    ("Status:   " ++ showWord status.bits) :: status.flags.map (fun flag => "  " ++ flag.label) ++
      ["Usercode: " ++ showWord usercode]

/-- The text after as many blanks as it takes to fill a width. -/
def padLeft (width : Nat) (text : String) : String :=
  String.ofList (List.replicate (width - text.length) ' ') ++ text

/-- A row of the table of devices. -/
def deviceRow (idcode family pulses target access : String) : String :=
  Programmer.padRight 12 idcode ++ " " ++ Programmer.padRight 12 family ++ " " ++
    padLeft 6 pulses ++ " " ++ Programmer.padRight 12 target ++ " " ++
    Programmer.padRight 22 access

/-- The table of known devices. -/
def deviceTableReport : String :=
  unlines <|
    ["Known devices:",
      "",
      deviceRow "Idcode" "Family" "Pulses" "Flash" "SPI access",
      String.ofList (List.replicate 68 '-')] ++
    Profile.table.map fun (idcode, profile) =>
      deviceRow (showWord idcode) profile.family.name (toString profile.erasePulses)
        (flashTarget profile) (spiAccess profile)

end FpgaProgrammer.CommandLine
