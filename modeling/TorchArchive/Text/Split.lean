import TorchArchive.Character.Basic

/-!
Splitting text: at every place of a character, or at runs of blanks or at a
separator, a limited number of times.
-/

namespace TorchArchive

/-- The parts of a text between the places where a character stands. -/
def partsBetween (separator : Char) (text : String) : List String :=
  (text.toList.splitOn separator).map String.ofList

/-- Splits at runs of blanks, at most so many times if a limit is given. Blanks at
the front do not count; those behind the last split are kept but for the ones in
front of the rest. -/
def splitBlanks (fuel : Nat) (limit : Option Nat) (text : List Char) :
    List (List Char) :=
  match fuel, text.dropWhile isBlank with
  | 0, _ => []
  | _ + 1, [] => []
  | fuel + 1, c :: rest =>
      if limit = some 0 then [c :: rest]
      else
        (c :: rest).takeWhile (fun c => !isBlank c) ::
          splitBlanks fuel (limit.map (· - 1))
            ((c :: rest).dropWhile (fun c => !isBlank c))

/-- Splits at a separator, at most so many times if a limit is given. `word` holds
the characters since the last split in reverse. -/
def splitSeparator (separator : List Char) (fuel : Nat) (limit : Option Nat)
    (word : List Char) (text : List Char) : List (List Char) :=
  match fuel, text with
  | 0, rest => [word.reverse ++ rest]
  | _ + 1, [] => [word.reverse]
  | fuel + 1, c :: rest =>
      if limit = some 0 then [word.reverse ++ c :: rest]
      else if separator.isPrefixOf (c :: rest) then
        word.reverse ::
          splitSeparator separator fuel (limit.map (· - 1)) []
            ((c :: rest).drop separator.length)
      else splitSeparator separator fuel limit (c :: word) rest

end TorchArchive
