/-! Maps that keep the order in which their keys were first put in. -/
set_option autoImplicit false

namespace BrowserFlow

abbrev Entries (α : Type) := List (String × α)

namespace Entries

variable {α β : Type}

def find? (key : String) : Entries α → Option α
  | [] => none
  | (name, value) :: rest => if name = key then some value else find? key rest

def contains (key : String) (entries : Entries α) : Bool :=
  entries.any fun entry => entry.1 == key

def insert (key : String) (value : α) : Entries α → Entries α
  | [] => [(key, value)]
  | (name, old) :: rest =>
    if name = key then (name, value) :: rest else (name, old) :: insert key value rest

def extend (entries more : Entries α) : Entries α :=
  more.foldl (fun all entry => insert entry.1 entry.2 all) entries

-- One entry a key, at the place of its first mention and with its last value.
def merge (pairs : List (String × α)) : Entries α :=
  extend [] pairs

def keys (entries : Entries α) : List String :=
  entries.map Prod.fst

def mapValues (f : α → β) (entries : Entries α) : Entries β :=
  entries.map fun entry => (entry.1, f entry.2)

end Entries

end BrowserFlow
