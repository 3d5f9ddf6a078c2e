import BrowserFlow.Json
import BrowserFlow.Json.Place
import BrowserFlow.Number.Decimal
import BrowserFlow.Number.Rounded
/-! Words, strings and numbers of a JSON text. Who reads one gets its value; who passes over one only looks
for its end, and does not care for halves of surrogate pairs or for the size of numbers. -/
set_option autoImplicit false

namespace BrowserFlow.Json

open Number Text

def isSpace (c : Char) : Bool :=
  c == ' ' || c == '\n' || c == '\t' || c == '\r'

def skipSpace (chars : List Char) : List Char :=
  chars.dropWhile isSpace

def readWord (value : Json) : List Char → List Char → Except SyntaxError (Json × List Char)
  | [], chars => .ok (value, chars)
  | _ :: _, [] => .error (.behind .endInValue [])
  | expected :: word, c :: rest =>
    if c = expected then readWord value word rest else .error (.ahead .expectedWord (c :: rest))

def hexValue? (c : Char) : Option Nat :=
  if isDigit c then some (digitValue c)
  else if 'a' ≤ c && c ≤ 'f' then some (c.toNat - 'a'.toNat + 10)
  else if 'A' ≤ c && c ≤ 'F' then some (c.toNat - 'A'.toNat + 10)
  else none

-- Four hexadecimal digits. Four bytes are taken, whatever they are.
def readHex (chars : List Char) : Except SyntaxError (Nat × List Char) :=
  match (chars.take 4).map hexValue? with
  | [some a, some b, some c, some d] =>
    .ok (((a * 16 + b) * 16 + c) * 16 + d, chars.drop 4)
  | _ =>
    if byteCount (chars.take 4) < 4 then .error (.behind .endInString [])
    else .error ⟨.invalidEscape, chars, 4⟩

def isHighSurrogate (n : Nat) : Bool :=
  0xd800 ≤ n && n ≤ 0xdbff

def isLowSurrogate (n : Nat) : Bool :=
  0xdc00 ≤ n && n ≤ 0xdfff

def readLowSurrogate (high : Nat) : List Char → Except SyntaxError (Char × List Char)
  | '\\' :: 'u' :: rest => do
    let (low, rest) ← readHex rest
    if isLowSurrogate low then
      .ok (Char.ofNat (0x10000 + (high - 0xd800) * 0x400 + (low - 0xdc00)), rest)
    else .error (.behind .loneSurrogate rest)
  | '\\' :: c :: rest => .error (.ahead .endInHexEscape (c :: rest))
  | ['\\'] => .error (.behind .endInString [])
  | c :: rest => .error (.ahead .endInHexEscape (c :: rest))
  | [] => .error (.behind .endInString [])

def readCodePoint (chars : List Char) : Except SyntaxError (Char × List Char) := do
  let (n, rest) ← readHex chars
  if isLowSurrogate n then .error (.behind .loneSurrogate rest)
  else if isHighSurrogate n then readLowSurrogate n rest
  else .ok (Char.ofNat n, rest)

def escaped? (c : Char) : Option Char :=
  if c = '\x22' then some c
  else if c = '\\' then some c
  else if c = '/' then some c
  else if c = 'b' then some '\x08'
  else if c = 'f' then some '\x0c'
  else if c = 'n' then some '\n'
  else if c = 'r' then some '\r'
  else if c = 't' then some '\t'
  else none

def readEscape : List Char → Except SyntaxError (Char × List Char)
  | [] => .error (.behind .endInString [])
  | c :: rest =>
    match escaped? c with
    | some decoded => .ok (decoded, rest)
    | none => if c = 'u' then readCodePoint rest else .error (.ahead .invalidEscape (c :: rest))

-- The characters of a string up to its closing quote. Each step takes a character at least, so
-- `fuel` is the length of the text.
def readChars : Nat → List Char → Except SyntaxError (List Char × List Char)
  | 0, _ => .error (.behind .endInString [])
  | _, [] => .error (.behind .endInString [])
  | fuel + 1, c :: rest =>
    if c = '\x22' then .ok ([], rest)
    else if c = '\\' then do
      let (decoded, rest) ← readEscape rest
      let (more, rest) ← readChars fuel rest
      .ok (decoded :: more, rest)
    else if c.toNat < 32 then .error (.ahead .controlCharacter (c :: rest))
    else do
      let (more, rest) ← readChars fuel rest
      .ok (c :: more, rest)

def readString (chars : List Char) : Except SyntaxError (String × List Char) := do
  let (text, rest) ← readChars (chars.length + 1) chars
  .ok (String.ofList text, rest)

def passEscape : List Char → Except SyntaxError (List Char)
  | [] => .error (.behind .endInString [])
  | c :: rest =>
    if (escaped? c).isSome then .ok rest
    else if c = 'u' then (readHex rest).map Prod.snd
    else .error (.ahead .invalidEscape (c :: rest))

def passChars : Nat → List Char → Except SyntaxError (List Char)
  | 0, _ => .error (.behind .endInString [])
  | _, [] => .error (.behind .endInString [])
  | fuel + 1, c :: rest =>
    if c = '\x22' then .ok rest
    else if c = '\\' then do
      let rest ← passEscape rest
      passChars fuel rest
    else if c.toNat < 32 then .error (.behind .controlCharacter (c :: rest))
    else passChars fuel rest

def passString (chars : List Char) : Except SyntaxError (List Char) :=
  passChars (chars.length + 1) chars

structure Numeral where
  negative : Bool
  whole : List Char
  fraction : List Char
  exponent : Option (Bool × List Char)
deriving Repr

def takeExponent (chars : List Char) : Except SyntaxError ((Bool × List Char) × List Char) :=
  let (negative, chars) := splitSign chars
  match chars with
  | [] => .error (.behind .endInValue [])
  | c :: _ =>
    if isDigit c then .ok ((negative, chars.takeWhile isDigit), chars.dropWhile isDigit)
    else .error (.ahead .invalidNumber chars)

def takeFraction (chars : List Char) : Except SyntaxError (List Char × List Char) :=
  match chars.takeWhile isDigit, chars.dropWhile isDigit with
  | [], [] => .error (.ahead .endInValue [])
  | [], rest => .error (.ahead .invalidNumber rest)
  | digits, rest => .ok (digits, rest)

def takeExponent? (chars : List Char) :
    Except SyntaxError (Option (Bool × List Char) × List Char) :=
  match chars with
  | mark :: rest =>
    if mark == 'e' || mark == 'E' then
      (takeExponent rest).map fun (exponent, rest) => (some exponent, rest)
    else .ok (none, chars)
  | [] => .ok (none, [])

def takeNumeral (negative : Bool) (chars : List Char) : Except SyntaxError (Numeral × List Char) :=
  match chars with
  | [] => .error (.behind .endInValue [])
  | c :: tail =>
    if !isDigit c then .error (.ahead .invalidNumber chars)
    else if c == '0' && (tail.head?.any isDigit) then .error (.ahead .invalidNumber tail)
    else
      let whole := chars.takeWhile isDigit
      match chars.dropWhile isDigit with
      | '.' :: rest => do
        let (fraction, rest) ← takeFraction rest
        let (exponent, rest) ← takeExponent? rest
        .ok (⟨negative, whole, fraction, exponent⟩, rest)
      | rest => do
        let (exponent, rest) ← takeExponent? rest
        .ok (⟨negative, whole, [], exponent⟩, rest)

def digitsBeyond? (total : Nat) : List Char → Option (List Char)
  | [] => none
  | digit :: rest =>
    let next := total * 10 + digitValue digit
    if twoTo 31 ≤ next then some rest else digitsBeyond? next rest

namespace Numeral

def isZero (numeral : Numeral) : Bool :=
  numeral.whole.all (· == '0') && numeral.fraction.all (· == '0')

def power (numeral : Numeral) : Int :=
  match numeral.exponent with
  | some (negative, digits) =>
    if negative then -(digitsValue digits : Int) else digitsValue digits
  | none => 0

-- Where a number that is too large is found to be so: within an exponent of more than 31 bits,
-- or at its end.
def excess (numeral : Numeral) (rest : List Char) : SyntaxError :=
  let digits := match numeral.exponent with
    | some (false, digits) => if numeral.isZero then none else digitsBeyond? 0 digits
    | _ => none
  .behind .numberOutOfRange ((digits.getD []) ++ rest)

def double (numeral : Numeral) (rest : List Char) : Except SyntaxError Json :=
  match roundedDecimal? numeral.negative numeral.whole numeral.fraction numeral.power with
  | some value => .ok (float value)
  | none => .error (numeral.excess rest)

-- The value of a number. Without point and exponent it is a whole number if it has 64 bits, else
-- a double. Minus zero is a double.
def value (numeral : Numeral) (rest : List Char) : Except SyntaxError Json :=
  if numeral.fraction.isEmpty && numeral.exponent.isNone then
    let value : Int := digitsValue numeral.whole
    let signed := if numeral.negative then -value else value
    if fitsInteger signed && !(numeral.negative && value == 0) then .ok (integer signed)
    else numeral.double rest
  else numeral.double rest

end Numeral

def passedFault (error : SyntaxError) : SyntaxError :=
  if error.fault == .endInValue then ⟨.invalidNumber, error.place⟩ else error

end BrowserFlow.Json
