import BrowserFlow.Number.Double
/-! Shortest decimal digits. Every finite number is written with the fewest digits that read back as the
same number and, among those, with the ones nearest to it. -/
set_option autoImplicit false

namespace BrowserFlow.Number

structure Scientific where
  digits : Nat
  exponent : Int
deriving DecidableEq, Repr, Inhabited

-- The decimals that round to a count of units, in quarters of a unit: from `low` to `high`,
-- ends included when `closed`.
structure Interval where
  low : Nat
  high : Nat
  closed : Bool
deriving DecidableEq, Repr

-- The rounding interval of a representable count of units. Below a power of two the neighbour
-- is half as far away.
def Interval.around (units : Nat) : Interval :=
  let step := twoTo (bitLength units - significandBits)
  let isPower := units == twoTo (bitLength units - 1)
  let below := if isPower && step ≠ 1 then step else 2 * step
  ⟨4 * units - below, 4 * units + 2 * step, (units / step) % 2 == 0⟩

structure Quarters where
  num : Nat
  den : Nat
deriving DecidableEq, Repr

def Scientific.quarters (value : Scientific) : Quarters :=
  match value.exponent with
  | .ofNat power => ⟨value.digits * tenTo power * unitsPerOne * 4, 1⟩
  | .negSucc power => ⟨value.digits * unitsPerOne * 4, tenTo (power + 1)⟩

def Interval.contains (interval : Interval) (point : Quarters) : Bool :=
  let low := interval.low * point.den
  let high := interval.high * point.den
  if interval.closed then low ≤ point.num && point.num ≤ high
  else low < point.num && point.num < high

def Quarters.distance (point : Quarters) (units : Nat) : Nat :=
  (point.num - 4 * units * point.den) + (4 * units * point.den - point.num)

def decimalLength (n : Nat) : Nat :=
  (Nat.toDigits 10 n).length

def leadingPower (units : Nat) : Int :=
  (decimalLength (units * tenTo 400 / unitsPerOne) : Int) - 401

def gridFloor (units : Nat) (exponent : Int) : Nat :=
  match exponent with
  | .ofNat power => units / (tenTo power * unitsPerOne)
  | .negSucc power => units * tenTo (power + 1) / unitsPerOne

inductive Tie where
  | toEven
  | upward
deriving DecidableEq, Repr

def Tie.takesAbove (tie : Tie) (below : Nat) : Bool :=
  match tie with
  | toEven => below % 2 == 1
  | upward => true

def onGrid (tie : Tie) (units : Nat) (interval : Interval) (exponent : Int) : Option Scientific :=
  let below : Scientific := ⟨gridFloor units exponent, exponent⟩
  let above : Scientific := ⟨below.digits + 1, exponent⟩
  match interval.contains below.quarters, interval.contains above.quarters with
  | true, true =>
    let down := below.quarters.distance units
    let up := above.quarters.distance units
    if up < down || (up == down && tie.takesAbove below.digits) then some above else some below
  | true, false => some below
  | false, true => some above
  | false, false => none

def searchGrids (tie : Tie) (units : Nat) (interval : Interval) : Nat → Int → Scientific
  | 0, exponent => ⟨gridFloor units exponent, exponent⟩
  | count + 1, exponent =>
    match onGrid tie units interval exponent with
    | some found => found
    | none => searchGrids tie units interval count (exponent - 1)

-- Seventeen digits always suffice.
def shortest (tie : Tie) (units : Nat) : Scientific :=
  if units = 0 then ⟨0, 0⟩
  else searchGrids tie units (.around units) 17 (leadingPower units)

structure Layout where
  positional : Int → Bool
  wholeMark : String
  tie : Tie

def significantDigits (digits : Nat) : List Char :=
  ((Nat.toDigits 10 digits).reverse.dropWhile (· == '0')).reverse

def zeros (count : Nat) : List Char :=
  List.replicate count '0'

def positionalText (layout : Layout) (digits : List Char) (power : Int) : String :=
  match power with
  | .ofNat power =>
    let whole := digits.take (power + 1) ++ zeros (power + 1 - digits.length)
    let fraction := digits.drop (power + 1)
    if fraction.isEmpty then String.ofList whole ++ layout.wholeMark
    else String.ofList (whole ++ '.' :: fraction)
  | .negSucc power => String.ofList ('0' :: '.' :: zeros power ++ digits)

def exponentText (digits : List Char) (power : Int) : String :=
  let mark := if power < 0 then "e-" else "e+"
  let tail := mark ++ String.ofList (Nat.toDigits 10 power.natAbs)
  match digits with
  | [] => tail
  | [digit] => String.ofList [digit] ++ tail
  | digit :: rest => String.ofList (digit :: '.' :: rest) ++ tail

def magnitudeText (layout : Layout) (units : Nat) : String :=
  if units = 0 then "0" ++ layout.wholeMark
  else
    let found := shortest layout.tie units
    let digits := significantDigits found.digits
    let power := (decimalLength found.digits : Int) - 1 + found.exponent
    if layout.positional power then positionalText layout digits power
    else exponentText digits power

def Double.text (layout : Layout) (value : Double) : String :=
  if value.negative then "-" ++ magnitudeText layout value.units
  else magnitudeText layout value.units

-- Documents write an exponent below 10⁻⁵ and from 10¹⁶ on, and mark whole numbers by `.0`. Ties go
-- to the even digit.
def documentLayout : Layout := ⟨fun power => -5 ≤ power && power < 16, ".0", .toEven⟩

-- Templates write no exponent and do not mark whole numbers. Ties go up.
def plainLayout : Layout := ⟨fun _ => true, "", .upward⟩

end BrowserFlow.Number
