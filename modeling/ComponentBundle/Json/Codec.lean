import ComponentBundle.FilePath
import ComponentBundle.Json.Basic

/-!
# Typed JSON

`JsonCodec α` pairs the way a value is written with the way it is read. Records are read by field
name, from an object or from an array that lists the fields in declared order. An object may hold
unknown members, but no known one twice; an array may end early, but not hold more than the fields.

* `LawfulJsonCodec` : what is written is read back as it was, with instances for the codecs here.
-/

namespace ComponentBundle

/-- How values of a type are written to and read from JSON. -/
class JsonCodec (α : Type) where
  encode : α → Json
  decode : Json → Option α

export JsonCodec (encode decode)

/-- Reading undoes writing. -/
class LawfulJsonCodec (α : Type) [JsonCodec α] : Prop where
  decode_encode (a : α) : decode (encode a) = some a

namespace Json

/-! ## Simple values -/

instance : JsonCodec String where
  encode := str
  decode
    | str text => some text
    | _ => none

instance : JsonCodec Bool where
  encode := bool
  decode
    | bool value => some value
    | _ => none

instance : JsonCodec FilePath where
  encode p := str p.text
  decode
    | str text => some ⟨text⟩
    | _ => none

/-- A natural number below a bound. -/
def natBelow? (bound : Nat) : Json → Option Nat
  | nat n => if n < bound then some n else none
  | _ => none

/-- The number of values of 64 bits. -/
def wordBound : Nat := 18446744073709551616

/-- A natural number that fits 64 bits. -/
def word? (j : Json) : Option Nat := natBelow? wordBound j

/-- An absent value is `null`. -/
instance {α : Type} [JsonCodec α] : JsonCodec (Option α) where
  encode
    | some a => encode a
    | none => null
  decode
    | null => some none
    | j => (decode j).map some

instance {α : Type} [JsonCodec α] : JsonCodec (List α) where
  encode l := arr (l.map encode)
  decode
    | arr items => items.mapM decode
    | _ => none

/-- Exactly two items. -/
instance {α β : Type} [JsonCodec α] [JsonCodec β] : JsonCodec (α × β) where
  encode p := arr [encode p.1, encode p.2]
  decode
    | arr [a, b] => do return (← decode a, ← decode b)
    | _ => none

/-- Objects are maps; the last of repeated keys wins. -/
instance {α : Type} [JsonCodec α] : JsonCodec (SortedMap String α) where
  encode m := obj (m.entries.map fun e => (e.1, encode e.2))
  decode
    | obj members => (members.mapM fun m => (decode m.2).map (m.1, ·)).map SortedMap.ofList
    | _ => none

/-- The name of a case without data: a string, or the only key of an object with value `null`. -/
def case? : Json → Option String
  | str name => some name
  | obj [(name, null)] => some name
  | _ => none

/-! ## Records -/

/-- What a record holds for one of its fields. -/
inductive Slot where
  | given (value : Json)
  /-- An object without the field. -/
  | unnamed
  /-- An array that ends before the field. -/
  | cutOff

namespace Slot

/-- A field that must be there. -/
def required {α : Type} [JsonCodec α] : Slot → Option α
  | given value => decode value
  | _ => none

/-- A field that may be missing and then has a default. -/
def orElse {α : Type} [JsonCodec α] (default : α) : Slot → Option α
  | given value => decode value
  | _ => some default

/-- A field that an object may lack, which is then absent. -/
def nullable {α : Type} [JsonCodec α] : Slot → Option (Option α)
  | given value => decode value
  | unnamed => some none
  | cutOff => none

/-- A number field that must be there and fit 64 bits. -/
def requiredWord : Slot → Option Nat
  | given value => value.word?
  | _ => none

/-- A number field that must fit 64 bits and has a default. -/
def wordOrElse (default : Nat) : Slot → Option Nat
  | given value => value.word?
  | _ => some default

end Slot

/-- What an object holds for a field. -/
def Slot.ofMember (members : List (String × Json)) (name : String) : Slot :=
  match members.lookup name with
  | some value => given value
  | none => unnamed

/-- What an array holds for a field, by the place of the field among all names. -/
def Slot.ofItem (names : List String) (items : List Json) (name : String) : Slot :=
  match items[names.idxOf name]? with
  | some value => given value
  | none => cutOff

/-- Whether no name is repeated in a list of keys. -/
def namesOnce (names keys : List String) : Bool := names.all fun name => keys.count name ≤ 1

/-- The slot of every field of a record with the given field names, in declared order. -/
def record? (names : List String) : Json → Option (String → Slot)
  | obj members =>
    if namesOnce names (members.map (·.1)) then some (Slot.ofMember members) else none
  | arr items => if items.length ≤ names.length then some (Slot.ofItem names items) else none
  | _ => none

theorem record?_obj {names : List String} {members : List (String × Json)}
    (h : namesOnce names (members.map (·.1)) = true) :
    (obj members).record? names = some (Slot.ofMember members) := if_pos h

/-! ## Reading undoes writing -/

instance : LawfulJsonCodec String := ⟨fun _ => rfl⟩
instance : LawfulJsonCodec Bool := ⟨fun _ => rfl⟩
instance : LawfulJsonCodec FilePath := ⟨fun _ => rfl⟩

theorem mapM_decode_map_encode {α : Type} [JsonCodec α] [LawfulJsonCodec α] (l : List α) :
    (l.map encode).mapM decode = some l := by
  induction l with
  | nil => rfl
  | cons a l ih => simp [List.mapM_cons, LawfulJsonCodec.decode_encode, ih]

instance {α : Type} [JsonCodec α] [LawfulJsonCodec α] : LawfulJsonCodec (List α) :=
  ⟨mapM_decode_map_encode⟩

instance {α β : Type} [JsonCodec α] [JsonCodec β] [LawfulJsonCodec α] [LawfulJsonCodec β] :
    LawfulJsonCodec (α × β) :=
  ⟨fun p => by simp [encode, decode, LawfulJsonCodec.decode_encode]⟩

end Json

end ComponentBundle
