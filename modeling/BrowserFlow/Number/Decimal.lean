import BrowserFlow.Number.Double
import BrowserFlow.Text.Word
/-! Reading numbers from text: whole numbers, and decimals rounded to the nearest double. -/
set_option autoImplicit false

namespace BrowserFlow.Number

open Text

def splitSign : List Char → Bool × List Char
  | '-' :: rest => (true, rest)
  | '+' :: rest => (false, rest)
  | chars => (false, chars)

def readInteger? (chars : List Char) : Option Int :=
  let (negative, digits) := splitSign chars
  if isDigits digits then
    let value : Int := digitsValue digits
    some (if negative then -value else value)
  else none

def fitsSigned (value : Int) : Bool :=
  -(twoTo 63 : Int) ≤ value && value < twoTo 63

def fitsInteger (value : Int) : Bool :=
  -(twoTo 63 : Int) ≤ value && value < twoTo 64

def readSigned? (chars : List Char) : Option Int :=
  (readInteger? chars).filter fitsSigned

def readPosition? (chars : List Char) : Option Nat :=
  let digits := match chars with
    | '+' :: rest => rest
    | _ => chars
  if isDigits digits && digitsValue digits < twoTo 64 then some (digitsValue digits) else none

-- The double nearest to `digits` times a power of ten. Numbers far outside the range are settled
-- by the power of their first digit.
def ofScientific (negative : Bool) (digits : Nat) (exponent : Int) : Extended :=
  let lead := exponent + (decimalDigits digits).length
  if digits = 0 then .finite ⟨negative, 0⟩
  else if 400 < lead then .infinite negative
  else if lead < -400 then .finite ⟨negative, 0⟩
  else
    match exponent with
    | .ofNat power => .ofUnits negative (roundUnits (digits * tenTo power * unitsPerOne) 1)
    | .negSucc power => .ofUnits negative (roundUnits (digits * unitsPerOne) (tenTo (power + 1)))

def readExponent? : List Char → Option Int
  | [] => some 0
  | mark :: rest => if mark == 'e' || mark == 'E' then readInteger? rest else none

def splitDecimal (chars : List Char) : Option (List Char × List Char × List Char) :=
  let whole := chars.takeWhile isDigit
  let (fraction, rest) := match chars.dropWhile isDigit with
    | '.' :: rest => (rest.takeWhile isDigit, rest.dropWhile isDigit)
    | rest => ([], rest)
  if whole.isEmpty && fraction.isEmpty then none else some (whole, fraction, rest)

def readUnsigned? (negative : Bool) (chars : List Char) : Option Extended := do
  let (whole, fraction, rest) ← splitDecimal chars
  let exponent ← readExponent? rest
  return ofScientific negative (digitsValue (whole ++ fraction)) (exponent - fraction.length)

def readDecimal? (chars : List Char) : Option Extended :=
  let (negative, rest) := splitSign chars
  let word := rest.map lowerChar
  if word == "inf".toList || word == "infinity".toList then some (.infinite negative)
  else if word == "nan".toList then some .notANumber
  else readUnsigned? negative rest

end BrowserFlow.Number
