/-! Classes of ASCII words: digits, identifiers, lower case. -/
set_option autoImplicit false

namespace BrowserFlow.Text

def isDigit (c : Char) : Bool :=
  '0' ≤ c && c ≤ '9'

def isLetter (c : Char) : Bool :=
  ('a' ≤ c && c ≤ 'z') || ('A' ≤ c && c ≤ 'Z')

def startsIdentifier (c : Char) : Bool :=
  isLetter c || c == '_'

def continuesIdentifier (c : Char) : Bool :=
  isLetter c || isDigit c || c == '_'

def isIdentifier : List Char → Bool
  | [] => false
  | c :: rest => startsIdentifier c && rest.all continuesIdentifier

def isDigits (chars : List Char) : Bool :=
  !chars.isEmpty && chars.all isDigit

def lowerChar (c : Char) : Char :=
  if 'A' ≤ c && c ≤ 'Z' then Char.ofNat (c.toNat + 32) else c

def lower (text : String) : String :=
  String.ofList (text.toList.map lowerChar)

def digitValue (c : Char) : Nat :=
  c.toNat - '0'.toNat

def digitsValue (digits : List Char) : Nat :=
  digits.foldl (fun total digit => total * 10 + digitValue digit) 0

def contains (needle : List Char) : List Char → Bool
  | [] => needle.isEmpty
  | c :: rest => needle.isPrefixOf (c :: rest) || contains needle rest

def decimalDigits (n : Nat) : List Char :=
  Nat.toDigits 10 n

def ofNat (n : Nat) : String :=
  String.ofList (decimalDigits n)

def ofInt (n : Int) : String :=
  match n with
  | .ofNat n => ofNat n
  | .negSucc n => "-" ++ ofNat (n + 1)

end BrowserFlow.Text
