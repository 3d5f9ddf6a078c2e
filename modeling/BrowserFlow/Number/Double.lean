/-! Binary floating-point numbers of double precision. A finite number is held exactly, as a sign and a
count of the smallest positive number 2⁻¹⁰⁷⁴, so that order and equality are those of integers. -/
set_option autoImplicit false

namespace BrowserFlow.Number

def twoTo (power : Nat) : Nat := Nat.pow 2 power

def tenTo (power : Nat) : Nat := Nat.pow 10 power

def unitPower : Nat := 1074

def significandBits : Nat := 53

def unitsPerOne : Nat := twoTo unitPower

def unitsLimit : Nat := twoTo (1024 + unitPower)

-- A finite number: `units` counts multiples of 2⁻¹⁰⁷⁴.
structure Double where
  negative : Bool
  units : Nat
deriving DecidableEq, Repr, Inhabited

inductive Extended where
  | finite (value : Double)
  | infinite (negative : Bool)
  | notANumber
deriving DecidableEq, Repr, Inhabited

-- The whole number nearest to `num / den`; of two equally near ones the even one.
def roundQuotient (num den : Nat) : Nat :=
  let quotient := num / den
  let twice := 2 * (num % den)
  if twice < den then quotient
  else if den < twice then quotient + 1
  else quotient + quotient % 2

def bitLength (n : Nat) : Nat :=
  if n = 0 then 0 else n.log2 + 1

-- The representable count of units nearest to `num / den` units. The significand keeps 53 binary
-- digits; what lies below the smallest number is rounded away.
def roundUnits (num den : Nat) : Nat :=
  let step := twoTo (bitLength (num / den) - significandBits)
  roundQuotient num (den * step) * step

namespace Double

def zero : Double := ⟨false, 0⟩

def one : Double := ⟨false, unitsPerOne⟩

def ofInt (value : Int) : Double :=
  ⟨value < 0, roundUnits (value.natAbs * unitsPerOne) 1⟩

def signedUnits (value : Double) : Int :=
  if value.negative then -(value.units : Int) else value.units

def same (left right : Double) : Bool :=
  left.signedUnits == right.signedUnits

end Double

namespace Extended

def ofUnits (negative : Bool) (units : Nat) : Extended :=
  if units < unitsLimit then .finite ⟨negative, units⟩ else .infinite negative

def finite? : Extended → Option Double
  | .finite value => some value
  | _ => none

def compare? : Extended → Extended → Option Ordering
  | .notANumber, _ => none
  | _, .notANumber => none
  | .finite left, .finite right => some (compare left.signedUnits right.signedUnits)
  | .finite _, .infinite negative => some (if negative then .gt else .lt)
  | .infinite negative, .finite _ => some (if negative then .lt else .gt)
  | .infinite left, .infinite right =>
    some (if left = right then .eq else if left then .lt else .gt)

end Extended

end BrowserFlow.Number
