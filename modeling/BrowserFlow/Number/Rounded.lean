import BrowserFlow.Number.Double
import BrowserFlow.Text.Word
/-! Decimals read in two roundings: the significand is rounded to a double first, and the power of ten is
multiplied or divided in afterwards. Digits that no longer fit in 64 bits are dropped. -/
set_option autoImplicit false

namespace BrowserFlow.Number

open Text

def takeDigits (significand count : Nat) : List Char → Nat × Nat
  | [] => (significand, count)
  | digit :: rest =>
    let next := significand * 10 + digitValue digit
    if next < twoTo 64 then takeDigits next (count + 1) rest else (significand, count)

def powerUnits (power : Nat) : Nat :=
  roundUnits (tenTo power * unitsPerOne) 1

-- Divides by powers of ten of at most 10³⁰⁸ at a time.
def divideByPower (units power : Nat) : Nat :=
  if power ≤ 308 then roundUnits (units * unitsPerOne) (powerUnits power)
  else if units = 0 then 0
  else divideByPower (roundUnits (units * unitsPerOne) (powerUnits 308)) (power - 308)
termination_by power

def scale? (significand : Nat) (exponent : Int) : Option Nat :=
  let units := roundUnits (significand * unitsPerOne) 1
  match exponent with
  | .negSucc power => some (divideByPower units (power + 1))
  | .ofNat power =>
    if units = 0 then some 0
    else if 308 < power then none
    else
      let scaled := roundUnits (units * powerUnits power) unitsPerOne
      if scaled < unitsLimit then some scaled else none

def roundedDecimal? (negative : Bool) (whole fraction : List Char) (exponent : Int) :
    Option Double :=
  let (head, wholeCount) := takeDigits 0 0 whole
  let (significand, fractionCount) := takeDigits head 0 fraction
  let shift : Int := ((whole.length - wholeCount : Nat) : Int) - fractionCount
  (scale? significand (shift + exponent)).map fun units => ⟨negative, units⟩

end BrowserFlow.Number
