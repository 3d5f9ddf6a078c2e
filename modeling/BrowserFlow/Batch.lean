import BrowserFlow.Entries
import BrowserFlow.Text.Blank
import BrowserFlow.Text.Lines
import BrowserFlow.Text.Word
/-! Batch texts: a line of column names and a line for each record, with commas between the cells. Blank
lines and lines that start with `#` are passed over. -/
set_option autoImplicit false

namespace BrowserFlow.Batch

abbrev Record := Entries String

inductive BatchError where
  | missingHeader
  | emptyColumn (position : Nat)
deriving DecidableEq, Repr

def BatchError.message : BatchError → String
  | missingHeader => "batch file has no header row"
  | emptyColumn position =>
    "batch header has an empty column name at position " ++ Text.ofNat position

def isSignificant (line : String) : Bool :=
  match Text.trimLeft line.toList with
  | [] => false
  | c :: _ => c != '#'

def cells (line : String) : List String :=
  (Text.split ',' line).map Text.trim

def emptyColumn? (columns : List String) : Option Nat :=
  (columns.findIdx? String.isEmpty).map (· + 1)

def pair : List String → List String → List (String × String)
  | [], _ => []
  | column :: columns, [] => (column, "") :: pair columns []
  | column :: columns, cell :: cells => (column, cell) :: pair columns cells

-- The record of a line. Of two columns with one name the last counts.
def record (columns : List String) (line : String) : Record :=
  Entries.merge (pair columns (cells line))

def read (text : String) : Except BatchError (List Record) :=
  match (Text.lines text).filter isSignificant with
  | [] => .error .missingHeader
  | header :: rows =>
    let columns := cells header
    match emptyColumn? columns with
    | some position => .error (.emptyColumn position)
    | none => .ok (rows.map (record columns))

end BrowserFlow.Batch
