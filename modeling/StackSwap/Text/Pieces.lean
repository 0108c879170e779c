/-! Cutting a text at the occurrences of a delimiter, which are found from the left and do not
overlap. The empty delimiter occurs before every character and at the end. -/

namespace StackSwap.Text

/-- The pieces between the occurrences of a delimiter that is not empty. `skip` counts the
characters that still belong to an occurrence. -/
def piecesBetween (delimiter : List Char) : (skip : Nat) → List Char → List (List Char)
  | _, [] => [[]]
  | skip + 1, _ :: rest => piecesBetween delimiter skip rest
  | 0, char :: rest =>
    if delimiter.isPrefixOf (char :: rest) then
      [] :: piecesBetween delimiter (delimiter.length - 1) rest
    else
      match piecesBetween delimiter 0 rest with
      | [] => [[char]]
      | piece :: pieces => (char :: piece) :: pieces

/-- The pieces of a text between the occurrences of a delimiter. -/
def pieces (delimiter text : List Char) : List (List Char) :=
  if delimiter.isEmpty then [] :: text.map (fun char => [char]) ++ [[]]
  else piecesBetween delimiter 0 text

def split (delimiter text : String) : List String :=
  (pieces delimiter.toList text.toList).map String.ofList

/-- The parts before and after the first occurrence of a character. -/
def splitOnce (separator : Char) : List Char → Option (List Char × List Char)
  | [] => none
  | char :: rest =>
    if char = separator then some ([], rest)
    else (splitOnce separator rest).map (fun (before, after) => (char :: before, after))

/-- The rest of a string behind a given beginning. -/
def dropBeginning? (beginning text : String) : Option String :=
  if beginning.toList.isPrefixOf text.toList then
    some (String.ofList (text.toList.drop beginning.toList.length))
  else none

end StackSwap.Text
