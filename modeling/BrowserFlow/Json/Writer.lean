import BrowserFlow.Json
import BrowserFlow.Text.Word
/-! JSON text of a value, on one line or indented by two spaces a level. -/
set_option autoImplicit false

namespace BrowserFlow.Json

open Number Text

def hexDigit (n : Nat) : Char :=
  if n < 10 then Char.ofNat ('0'.toNat + n) else Char.ofNat ('a'.toNat + (n - 10))

def escapeChar (c : Char) : List Char :=
  if c = '\x22' then ['\\', '\x22']
  else if c = '\\' then ['\\', '\\']
  else if c = '\x08' then ['\\', 'b']
  else if c = '\x0c' then ['\\', 'f']
  else if c = '\n' then ['\\', 'n']
  else if c = '\r' then ['\\', 'r']
  else if c = '\t' then ['\\', 't']
  else if c.toNat < 32 then
    ['\\', 'u', '0', '0', hexDigit (c.toNat / 16), hexDigit (c.toNat % 16)]
  else [c]

def quote (text : String) : String :=
  String.ofList ('\x22' :: text.toList.flatMap escapeChar ++ ['\x22'])

def scalarText : Json → String
  | null => "null"
  | bool true => "true"
  | bool false => "false"
  | integer value => Text.ofInt value
  | float value => value.text documentLayout
  | string text => quote text
  | array _ => "[]"
  | object _ => "\x7b\x7d"

mutual

def compact (value : Json) : String :=
  match value with
  | array items => "[" ++ compactItems items ++ "]"
  | object entries => "\x7b" ++ compactEntries entries ++ "\x7d"
  | other => scalarText other
termination_by structural value

def compactItems (items : List Json) : String :=
  match items with
  | [] => ""
  | [item] => compact item
  | item :: rest => compact item ++ "," ++ compactItems rest
termination_by structural items

def compactEntries (entries : List (String × Json)) : String :=
  match entries with
  | [] => ""
  | [(key, value)] => quote key ++ ":" ++ compact value
  | (key, value) :: rest => quote key ++ ":" ++ compact value ++ "," ++ compactEntries rest
termination_by structural entries

end

def newLine (level : Nat) : String :=
  String.ofList ('\n' :: List.replicate (2 * level) ' ')

mutual

def indented (level : Nat) (value : Json) : String :=
  match value with
  | array [] => "[]"
  | array (item :: rest) =>
    "[" ++ newLine (level + 1) ++ indented (level + 1) item ++ indentedItems (level + 1) rest ++
      newLine level ++ "]"
  | object [] => "\x7b\x7d"
  | object ((key, value) :: rest) =>
    "\x7b" ++ newLine (level + 1) ++ quote key ++ ": " ++ indented (level + 1) value ++
      indentedEntries (level + 1) rest ++ newLine level ++ "\x7d"
  | other => scalarText other
termination_by structural value

def indentedItems (level : Nat) (items : List Json) : String :=
  match items with
  | [] => ""
  | item :: rest => "," ++ newLine level ++ indented level item ++ indentedItems level rest
termination_by structural items

def indentedEntries (level : Nat) (entries : List (String × Json)) : String :=
  match entries with
  | [] => ""
  | (key, value) :: rest =>
    "," ++ newLine level ++ quote key ++ ": " ++ indented level value ++ indentedEntries level rest
termination_by structural entries

end

def pretty (value : Json) : String :=
  indented 0 value

end BrowserFlow.Json
