/-! Cutting a text at a separator and into lines. -/
set_option autoImplicit false

namespace BrowserFlow.Text

def splitAt (separator : Char) : List Char → List (List Char)
  | [] => [[]]
  | c :: rest =>
    if c = separator then [] :: splitAt separator rest
    else
      match splitAt separator rest with
      | [] => [[c]]
      | piece :: pieces => (c :: piece) :: pieces

def split (separator : Char) (text : String) : List String :=
  (splitAt separator text.toList).map String.ofList

def dropReturn (line : List Char) : List Char :=
  match line.reverse with
  | '\r' :: rest => rest.reverse
  | _ => line

-- Lines from the pieces between line feeds: a carriage return before a line feed belongs to the
-- line's end, and nothing after the last line feed is no line.
def linesOfPieces : List (List Char) → List (List Char)
  | [] => []
  | [last] => if last.isEmpty then [] else [last]
  | piece :: rest => dropReturn piece :: linesOfPieces rest

def linesOfChars (chars : List Char) : List (List Char) :=
  linesOfPieces (splitAt '\n' chars)

def lines (text : String) : List String :=
  (linesOfChars text.toList).map String.ofList

def joinWith (separator : String) : List String → String
  | [] => ""
  | [piece] => piece
  | piece :: rest => piece ++ separator ++ joinWith separator rest

end BrowserFlow.Text
