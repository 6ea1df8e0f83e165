/-!
# File paths

A path is kept as it is spelled and compared by its components: separators that repeat or trail
and inner `.` steps do not count, a leading `.` and every `..` do. The root comes before all other
components, then `.`, then `..`, then names in code point order.

* `compare_eq_iff` : two paths compare equal exactly when their components agree;
* `join` : a path below another, which an absolute path replaces;
* `stem?` : the last name without its last extension.
-/

namespace ComponentBundle

inductive PathComponent where
  | root
  | here
  | up
  | name (text : String)
  deriving DecidableEq

namespace PathComponent

/-- The place of a component's kind in the order. -/
def rank : PathComponent → Nat
  | root => 0
  | here => 1
  | up => 2
  | name _ => 3

/-- The text of a name, empty for the other kinds. -/
def label : PathComponent → String
  | name text => text
  | _ => ""

instance : Ord PathComponent := ⟨compareLex (compareOn rank) (compareOn label)⟩

instance : Std.TransOrd PathComponent :=
  inferInstanceAs (Std.TransCmp (compareLex (compareOn rank) (compareOn label)))

theorem eq_of_rank_label {a b : PathComponent} (hr : a.rank = b.rank) (hl : a.label = b.label) :
    a = b := by
  cases a <;> cases b <;> simp_all [rank, label]

instance : Std.LawfulEqOrd PathComponent where
  eq_of_compare {a b} h := by
    have h : compareLex (compareOn rank) (compareOn label) a b = .eq := h
    rw [compareLex_eq_eq] at h
    exact eq_of_rank_label (Std.LawfulEqCmp.eq_of_compare h.1) (Std.LawfulEqCmp.eq_of_compare h.2)

end PathComponent

/-- A path as it is spelled. -/
structure FilePath where
  text : String
  deriving DecidableEq, Inhabited

namespace FilePath

/-! ## Components -/

/-- The texts between separators; an empty text has one empty piece. -/
def pieces : List Char → List (List Char)
  | [] => [[]]
  | c :: rest =>
    match pieces rest with
    | [] => [[c]]
    | piece :: more => if c == '/' then [] :: piece :: more else (c :: piece) :: more

/-- The component of a piece that is not the first one; empty pieces and `.` have none. -/
def innerComponent? (piece : List Char) : Option PathComponent :=
  if piece = [] ∨ piece = ['.'] then none
  else if piece = ['.', '.'] then some .up
  else some (.name (String.ofList piece))

def isAbsolute (p : FilePath) : Bool := p.text.toList.head? == some '/'

def components (p : FilePath) : List PathComponent :=
  match pieces p.text.toList with
  | [] => []
  | first :: rest =>
    let tail := rest.filterMap innerComponent?
    if p.isAbsolute then .root :: tail
    else if first = ['.'] then .here :: tail
    else (innerComponent? first).toList ++ tail

instance : Ord FilePath := ⟨compareOn components⟩

instance : Std.TransOrd FilePath := inferInstanceAs (Std.TransCmp (compareOn components))

/-- Paths compare equal exactly when their components agree. -/
theorem compare_eq_iff {p q : FilePath} :
    compare p q = .eq ↔ p.components = q.components := by
  change compare p.components q.components = .eq ↔ _
  exact Std.LawfulEqCmp.compare_eq_iff_eq

/-! ## Building and reading -/

/-- The path `q` seen from `p`. An absolute `q` replaces `p`; a separator is added when `p` is not
empty and does not end in one. -/
def join (p q : FilePath) : FilePath :=
  if q.isAbsolute then q
  else if p.text.toList.getLast?.all (· == '/') then ⟨p.text ++ q.text⟩
  else ⟨p.text ++ "/" ++ q.text⟩

/-- A file name without its last extension. A dot at the start begins no extension. -/
def nameStem (name : List Char) : List Char :=
  let before := (name.reverse.dropWhile (· != '.')).drop 1
  if before = [] then name else before.reverse

/-- The last name of the path without its last extension, if the path ends in a name. -/
def stem? (p : FilePath) : Option String :=
  match p.components.getLast? with
  | some (.name text) => some (String.ofList (nameStem text.toList))
  | _ => none

end FilePath

end ComponentBundle
