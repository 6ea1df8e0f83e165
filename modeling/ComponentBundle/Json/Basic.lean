import ComponentBundle.SortedMap

/-!
# JSON values

Objects keep their members in order and repeated keys apart, because a record with a repeated
field is refused while a map takes the last value. Numerals other than natural numbers, and
literals whose escapes spell no text, are kept as they are written: no field of any record takes
one, but a field that is ignored may hold it.

* `arrange` : every object as a map, with its keys in order and the last value of each key.
-/

namespace ComponentBundle

inductive Json where
  | null
  | bool (value : Bool)
  | nat (value : Nat)
  | str (text : String)
  | other (literal : String)
  | arr (items : List Json)
  | obj (members : List (String × Json))
  deriving Inhabited, BEq

namespace Json

mutual

/-- The value with every object's keys in order, where the last of repeated members stays. -/
def arrange : Json → Json
  | arr items => arr (arrangeItems items)
  | obj members => obj (SortedMap.ofList (arrangeMembers members)).entries
  | null => null
  | bool value => bool value
  | nat value => nat value
  | str text => str text
  | other literal => other literal

def arrangeItems : List Json → List Json
  | [] => []
  | item :: rest => arrange item :: arrangeItems rest

def arrangeMembers : List (String × Json) → List (String × Json)
  | [] => []
  | (key, value) :: rest => (key, arrange value) :: arrangeMembers rest

end

/-- The first member of an object with a key. -/
def member? (key : String) : Json → Option Json
  | obj members => members.lookup key
  | _ => none

end Json

end ComponentBundle
