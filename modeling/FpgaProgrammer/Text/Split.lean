/-!
# Cutting text at separators
-/

namespace FpgaProgrammer.Text

/-- The parts of a text before and after the first occurrence of a character, if there is one. -/
def cutAt? (separator : Char) : List Char → Option (List Char × List Char)
  | [] => none
  | c :: rest =>
    if c = separator then some ([], rest)
    else (cutAt? separator rest).map fun (before, after) => (c :: before, after)

/-- The parts of a text between the occurrences of a character. There is always at least one. -/
def splitAt (separator : Char) : List Char → List (List Char)
  | [] => [[]]
  | c :: rest =>
    if c = separator then [] :: splitAt separator rest
    else
      match splitAt separator rest with
      | [] => [[c]]
      | part :: parts => (c :: part) :: parts

/-- The two parts of a `key=value` text, cut at the first equals sign. -/
def keyValue? (text : List Char) : Option (String × String) :=
  (cutAt? '=' text).map fun (key, value) => (String.ofList key, String.ofList value)

end FpgaProgrammer.Text
