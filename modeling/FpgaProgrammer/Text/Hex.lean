import FpgaProgrammer.Text.Blank
import FpgaProgrammer.Text.Numeral

/-!
# Hexadecimal words

Words are shown in hexadecimal with a fixed number of digits, and the fields of a bitstream
header that hold words are read from hexadecimal text.
-/

namespace FpgaProgrammer.Text

/-- The marker that may stand before a hexadecimal numeral. -/
def hexMarker? : List Char → Option (List Char)
  | '0' :: 'x' :: rest => some rest
  | '0' :: 'X' :: rest => some rest
  | _ => none

/-- Reads a 32-bit word in hexadecimal: blanks around it are ignored, and a marker `0x` or `0X`
may stand before it. -/
def readHexWord? (text : String) : Option UInt32 :=
  let trimmed := trim text.toList
  let digits := (hexMarker? trimmed).getD trimmed
  match readNumeral 16 UInt32.size digits with
  | .ok value => some value.toUInt32
  | .error _ => none

/-- At least `width` hexadecimal digits in lower case. -/
def hexLower (width value : Nat) : String :=
  let digits := Nat.toDigits 16 value
  String.ofList (List.replicate (width - digits.length) '0' ++ digits)

/-- At least `width` hexadecimal digits in upper case. -/
def hexUpper (width value : Nat) : String :=
  (hexLower width value).map Char.toUpper

end FpgaProgrammer.Text
