import BrowserFlow.Entries
import BrowserFlow.Number.Shortest
/-! Structured values. Whole numbers and doubles are different values, and an object keeps the order of its
keys. -/
set_option autoImplicit false

namespace BrowserFlow

open Number

inductive Json where
  | null
  | bool (flag : Bool)
  | integer (value : Int)
  | float (value : Double)
  | string (text : String)
  | array (items : List Json)
  | object (entries : List (String × Json))
deriving Repr, Inhabited, BEq

namespace Json

def isNull : Json → Bool
  | null => true
  | _ => false

def isBool : Json → Bool
  | bool _ => true
  | _ => false

def isNumber : Json → Bool
  | integer _ => true
  | float _ => true
  | _ => false

def string? : Json → Option String
  | string text => some text
  | _ => none

def object? : Json → Option (Entries Json)
  | object entries => some entries
  | _ => none

def isScalar : Json → Bool
  | string _ => true
  | bool _ => true
  | value => value.isNumber

def toDouble? : Json → Option Double
  | integer value => some (.ofInt value)
  | float value => some value
  | _ => none

mutual

-- Equality of values. The order of an object's keys does not matter, and a whole number differs
-- from a double.
def same (left right : Json) : Bool :=
  match left, right with
  | null, null => true
  | bool left, bool right => left == right
  | integer left, integer right => left == right
  | float left, float right => left.same right
  | string left, string right => left == right
  | array left, array right => sameItems left right
  | object left, object right => left.length == right.length && sameEntries left right
  | _, _ => false
termination_by structural left

def sameItems (left right : List Json) : Bool :=
  match left, right with
  | [], [] => true
  | l :: ls, r :: rs => same l r && sameItems ls rs
  | _, _ => false
termination_by structural left

def sameEntries (left : List (String × Json)) (right : List (String × Json)) : Bool :=
  match left with
  | [] => true
  | (key, value) :: rest =>
    (match Entries.find? key right with
      | some other => same value other
      | none => false) && sameEntries rest right
termination_by structural left

end

mutual

def merged (value : Json) : Json :=
  match value with
  | array items => array (mergedItems items)
  | object entries => object (Entries.merge (mergedEntries entries))
  | other => other
termination_by structural value

def mergedItems (items : List Json) : List Json :=
  match items with
  | [] => []
  | item :: rest => merged item :: mergedItems rest
termination_by structural items

def mergedEntries (entries : List (String × Json)) : List (String × Json) :=
  match entries with
  | [] => []
  | (key, value) :: rest => (key, merged value) :: mergedEntries rest
termination_by structural entries

end

mutual

def depth (value : Json) : Nat :=
  match value with
  | array items => itemsDepth items + 1
  | object entries => entriesDepth entries + 1
  | _ => 0
termination_by structural value

def itemsDepth (items : List Json) : Nat :=
  match items with
  | [] => 0
  | item :: rest => max (depth item) (itemsDepth rest)
termination_by structural items

def entriesDepth (entries : List (String × Json)) : Nat :=
  match entries with
  | [] => 0
  | (_, value) :: rest => max (depth value) (entriesDepth rest)
termination_by structural entries

end

def strings (texts : List String) : Json :=
  array (texts.map string)

def natural (value : Nat) : Json :=
  integer value

def ofText? : Option String → Json
  | some text => string text
  | none => null

def present (key : String) : Option Json → List (String × Json)
  | some value => [(key, value)]
  | none => []

end Json

end BrowserFlow
