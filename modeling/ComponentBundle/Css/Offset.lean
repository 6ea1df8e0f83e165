import ComponentBundle.Css.Scope

/-!
# Scoping by byte offsets

A style sheet is a text in UTF-8, and all signs that give it structure are ASCII. So its scanners
can run over bytes, and the text is cut at the offsets that they find. An escape in a string jumps
two bytes ahead, perhaps into the middle of a character. What would stop the program is a fault: a
cut outside the text, out of order or inside a character, and a count that falls below zero.

* `cutAt`, `slice` : texts cut at offsets;
* `preludeEnd?`, `blockEnd`, `commentEnd`, `stringEnd` : scanners, for any bytes;
* `scopeCss` : a style sheet scoped by offsets.
-/

namespace ComponentBundle.Css.Offset
open Text

inductive Fault where
  /-- A text is cut outside of it, out of order or inside a character. -/
  | offset
  /-- A count falls below zero. -/
  | negative
  deriving DecidableEq

abbrev Checked := Except Fault

/-! ## Bytes -/

/-- The bytes of a text in UTF-8. -/
def bytes (s : List Char) : List UInt8 := s.flatMap String.utf8EncodeChar

def size (s : List Char) : Nat := (bytes s).length

/-- The byte of an ASCII character. -/
def byte (c : Char) : UInt8 := c.toUInt8

def isBlankByte (b : UInt8) : Bool :=
  b == byte ' ' || b == byte '\t' || b == byte '\n' || b == byte '\x0c' || b == byte '\r'

def isQuoteByte (b : UInt8) : Bool := b == byte '"' || b == byte '\''

def isCombinatorByte (b : UInt8) : Bool :=
  isBlankByte b || b == byte '>' || b == byte '+' || b == byte '~'

/-- Counts parentheses and square brackets; a closing one too many is ignored. -/
def weighByte (b : UInt8) (depth : Nat) : Nat :=
  if b == byte '(' || b == byte '[' then depth + 1
  else if b == byte ')' || b == byte ']' then depth - 1
  else depth

/-! ## Cuts -/

/-- The texts in front of an offset and behind it. -/
def cutAt : List Char → Nat → Checked (List Char × List Char)
  | s, 0 => .ok ([], s)
  | [], _ + 1 => .error .offset
  | c :: s, n + 1 =>
    if c.utf8Size ≤ n + 1 then do
      let parts ← cutAt s (n + 1 - c.utf8Size)
      return (c :: parts.1, parts.2)
    else .error .offset

/-- The text between two offsets. -/
def slice (s : List Char) (i j : Nat) : Checked (List Char) :=
  if i ≤ j then do
    let front ← cutAt s j
    let middle ← cutAt front.1 i
    return middle.2
  else .error .offset

def sliceFrom (s : List Char) (i : Nat) : Checked (List Char) := slice s i (size s)

/-- A difference of counts. -/
def less (m n : Nat) : Checked Nat := if n ≤ m then .ok (m - n) else .error .negative

theorem bind_eq_ok_iff {α β : Type} {x : Checked α} {f : α → Checked β} {b : β} :
    (x >>= f) = .ok b ↔ ∃ a, x = .ok a ∧ f a = .ok b := by
  cases x with
  | error e => exact ⟨nofun, nofun⟩
  | ok a => exact ⟨fun h => ⟨a, rfl, h⟩, fun ⟨_, ha, h⟩ => by cases ha; exact h⟩

theorem size_cons (c : Char) (s : List Char) : size (c :: s) = c.utf8Size + size s := by
  rw [size, size, bytes, List.flatMap_cons, List.length_append, String.length_utf8EncodeChar]
  rfl

theorem size_append (s t : List Char) : size (s ++ t) = size s + size t := by
  rw [size, bytes, List.flatMap_append, List.length_append]
  rfl

theorem size_le (front back : List Char) : size front ≤ size (front ++ back) := by
  rw [size_append]
  exact Nat.le_add_right ..

theorem lt_size (front : List Char) (c : Char) (back : List Char) :
    size front < size (front ++ c :: back) := by
  have := c.utf8Size_pos
  rw [size_append, size_cons]
  omega

theorem eq_nil_of_size {s : List Char} (h : size s = 0) : s = [] := by
  cases s with
  | nil => rfl
  | cons c s =>
    have := c.utf8Size_pos
    rw [size_cons] at h
    omega

theorem cutAt_eq_ok_iff {s front back : List Char} {n : Nat} :
    cutAt s n = .ok (front, back) ↔ s = front ++ back ∧ n = size front := by
  fun_induction cutAt s n generalizing front with
  | case1 s =>
    constructor
    · rintro ⟨⟩
      exact ⟨rfl, rfl⟩
    · rintro ⟨rfl, hsize⟩
      obtain rfl := eq_nil_of_size hsize.symm
      rfl
  | case2 n =>
    constructor
    · nofun
    · rintro ⟨hs, hsize⟩
      obtain ⟨rfl, -⟩ := List.append_eq_nil_iff.1 hs.symm
      cases hsize
  | case3 c s n hle ih =>
    rw [bind_eq_ok_iff]
    constructor
    · rintro ⟨⟨front', back'⟩, hcut, h⟩
      cases h
      obtain ⟨rfl, hsize⟩ := ih.1 hcut
      refine ⟨rfl, ?_⟩
      rw [size_cons, ← hsize]
      omega
    · rintro ⟨hs, hsize⟩
      cases front with
      | nil => cases hsize
      | cons d front =>
        obtain ⟨rfl, rfl⟩ := List.cons.inj hs
        rw [size_cons] at hsize
        exact ⟨(front, back), ih.2 ⟨rfl, by omega⟩, rfl⟩
  | case4 c s n hle =>
    constructor
    · nofun
    · rintro ⟨hs, hsize⟩
      cases front with
      | nil => cases hsize
      | cons d front =>
        obtain ⟨rfl, rfl⟩ := List.cons.inj hs
        rw [size_cons] at hsize
        omega

theorem slice_eq_ok_iff {s middle : List Char} {i j : Nat} :
    slice s i j = .ok middle ↔
      ∃ front back, s = front ++ middle ++ back ∧ i = size front ∧ j = size (front ++ middle) := by
  unfold slice
  constructor
  · intro h
    split at h
    · obtain ⟨⟨front, back⟩, hfront, hrest⟩ := bind_eq_ok_iff.1 h
      obtain ⟨⟨start, middle'⟩, hmiddle, hend⟩ := bind_eq_ok_iff.1 hrest
      obtain ⟨rfl, hj⟩ := cutAt_eq_ok_iff.1 hfront
      obtain ⟨rfl, hi⟩ := cutAt_eq_ok_iff.1 hmiddle
      cases hend
      exact ⟨start, back, rfl, hi, hj⟩
    · cases h
  · rintro ⟨front, back, rfl, rfl, rfl⟩
    have hfront : cutAt (front ++ middle ++ back) (size (front ++ middle)) =
        .ok (front ++ middle, back) := cutAt_eq_ok_iff.2 ⟨rfl, rfl⟩
    have hmiddle : cutAt (front ++ middle) (size front) = .ok (front, middle) :=
      cutAt_eq_ok_iff.2 ⟨rfl, rfl⟩
    rw [if_pos (size_le front middle), hfront]
    show (cutAt (front ++ middle) (size front) >>= _) = _
    rw [hmiddle]
    rfl

/-! ## Comments and strings -/

section Scanners

variable (bs : List UInt8)

def opensComment (i : Nat) : Bool :=
  bs[i]? == some (byte '/') && bs[i + 1]? == some (byte '*')

/-- The offset behind the next comment end, or the end of the bytes. -/
def commentEndFrom (i : Nat) : Nat :=
  if h : i + 1 < bs.length then
    if bs[i] == byte '*' && bs[i + 1] == byte '/' then i + 2 else commentEndFrom (i + 1)
  else bs.length
termination_by bs.length - i

/-- The end of the comment that starts at an offset. -/
def commentEnd (start : Nat) : Nat := commentEndFrom bs (start + 2)

/-- The offset behind the next quote that is not escaped, or the end of the bytes. -/
def stringEndFrom (quote : UInt8) (i : Nat) : Nat :=
  if h : i < bs.length then
    if bs[i] == byte '\\' then stringEndFrom quote (i + 2)
    else if bs[i] == quote then i + 1
    else stringEndFrom quote (i + 1)
  else bs.length
termination_by bs.length - i

/-- The end of the string that starts at an offset. -/
def stringEnd (start : Nat) (h : start < bs.length) : Nat :=
  stringEndFrom bs bs[start] (start + 1)

variable {bs}

theorem le_commentEndFrom (i : Nat) : min i bs.length ≤ commentEndFrom bs i := by
  fun_induction commentEndFrom bs i with
  | case1 => omega
  | case2 i h _ ih => omega
  | case3 => omega

theorem le_stringEndFrom (quote : UInt8) (i : Nat) :
    min i bs.length ≤ stringEndFrom bs quote i := by
  fun_induction stringEndFrom bs quote i with
  | case1 i h _ ih => omega
  | case2 => omega
  | case3 i h _ _ ih => omega
  | case4 => omega

theorem lt_commentEnd {i : Nat} (h : i < bs.length) : i < commentEnd bs i := by
  have hle := @le_commentEndFrom bs (i + 2)
  unfold commentEnd
  omega

theorem lt_stringEnd {i : Nat} (h : i < bs.length) : i < stringEnd bs i h := by
  have hle := @le_stringEndFrom bs bs[i] (i + 1)
  unfold stringEnd
  omega

variable (bs)

/-! ## Statements -/

/-- The first `{`, `;` or `}` outside comments and strings, at an offset or behind it. -/
def preludeEnd? (i : Nat) : Option (Nat × UInt8) :=
  if h : i < bs.length then
    if opensComment bs i then preludeEnd? (commentEnd bs i)
    else if isQuoteByte bs[i] then preludeEnd? (stringEnd bs i h)
    else if bs[i] == byte '{' || bs[i] == byte ';' || bs[i] == byte '}' then some (i, bs[i])
    else preludeEnd? (i + 1)
  else none
termination_by bs.length - i
decreasing_by
  · have := lt_commentEnd h
    omega
  · have := lt_stringEnd h
    omega
  · omega

/-- The `}` that closes the blocks that are open at an offset, or the end of the bytes. -/
def blockEndFrom (depth i : Nat) : Checked Nat :=
  if h : i < bs.length then
    if opensComment bs i then blockEndFrom depth (commentEnd bs i)
    else if isQuoteByte bs[i] then blockEndFrom depth (stringEnd bs i h)
    else if bs[i] == byte '{' then blockEndFrom (depth + 1) (i + 1)
    else if bs[i] == byte '}' then do
      let depth ← less depth 1
      if depth = 0 then return i else blockEndFrom depth (i + 1)
    else blockEndFrom depth (i + 1)
  else .ok bs.length
termination_by bs.length - i
decreasing_by
  · have := lt_commentEnd h
    omega
  · have := lt_stringEnd h
    omega
  all_goals omega

/-- The `}` of the block that opens at an offset, or the end of the bytes. -/
def blockEnd (start : Nat) : Checked Nat := blockEndFrom bs 0 start

/-- The end of the bytes of some kind that follow an offset. -/
def runEnd (p : UInt8 → Bool) (i : Nat) : Nat :=
  if h : i < bs.length then
    if p bs[i] then runEnd p (i + 1) else i
  else i
termination_by bs.length - i

variable {bs} in
theorem le_runEnd (p : UInt8 → Bool) (i : Nat) : i ≤ runEnd bs p i := by
  fun_induction runEnd bs p i with
  | case1 i h _ ih => omega
  | case2 => omega
  | case3 => omega

variable {bs} in
theorem lt_of_opensComment {i : Nat} (h : opensComment bs i = true) : i < bs.length := by
  refine Nat.lt_of_not_le fun hlen => ?_
  rw [opensComment, List.getElem?_eq_none hlen] at h
  simp at h

/-- The end of the blanks and comments that follow an offset. -/
def triviaEnd (i : Nat) : Nat :=
  if _h : opensComment bs (runEnd bs isBlankByte i) then
    triviaEnd (commentEnd bs (runEnd bs isBlankByte i))
  else runEnd bs isBlankByte i
termination_by bs.length - i
decreasing_by
  have hlt := lt_of_opensComment _h
  have hle := @le_runEnd bs isBlankByte i
  have := lt_commentEnd hlt
  omega

/-- The first colon outside brackets, or the end of the bytes. -/
def colonFrom (depth i : Nat) : Nat :=
  if h : i < bs.length then
    if bs[i] == byte ':' && depth == 0 then i else colonFrom (weighByte bs[i] depth) (i + 1)
  else bs.length
termination_by bs.length - i

end Scanners

/-! ## Selectors -/

/-- The pieces of a text that end at a delimiter outside brackets and strings; the first of them
starts at `start`, and the scanner is at `i`. -/
def splitFrom (text : List Char) (delimiter : UInt8) (depth start i : Nat) :
    Checked (List (List Char)) :=
  if h : i < (bytes text).length then
    if isQuoteByte (bytes text)[i] then
      splitFrom text delimiter depth start (stringEnd (bytes text) i h)
    else if (bytes text)[i] == delimiter && depth == 0 then do
      let piece ← slice text start i
      let pieces ← splitFrom text delimiter depth (i + 1) (i + 1)
      return piece :: pieces
    else splitFrom text delimiter (weighByte (bytes text)[i] depth) start (i + 1)
  else do
    let piece ← sliceFrom text start
    return [piece]
termination_by (bytes text).length - i
decreasing_by
  · have := lt_stringEnd h
    omega
  all_goals omega

def splitTop (delimiter : UInt8) (text : List Char) : Checked (List (List Char)) :=
  splitFrom text delimiter 0 0 0

/-- The trimmed arguments of a pseudo-class and the text after them, if a parenthesis opens. -/
def pseudoArguments? : List Char → Checked (Option (List Char × List Char))
  | '(' :: args => do
    let pieces ← splitTop (byte ')') args
    match pieces.head? with
    | none => return none
    | some inner =>
      let after ← sliceFrom args (min (size inner + 1) (size args))
      return some (trimChars inner, after)
  | _ => return none

def hostContext? (compound : List Char) : Checked (Option (List Char × List Char)) :=
  match ":host-context".toList.isPrefixOf? compound with
  | some rest => pseudoArguments? rest
  | none => return none

def scopeHost (scope : Scope) (rest : List Char) : Checked (List Char) := do
  match ← pseudoArguments? rest with
  | some (inner, after) => return inner ++ scope.host ++ after
  | none => return scope.host ++ rest

def scopeCompound (scope : Scope) (compound : List Char) : Checked (List Char) := do
  match ← hostContext? compound with
  | some (context, after) => return context ++ ' ' :: scope.host ++ after
  | none =>
    match hostRest? compound with
    | some rest => scopeHost scope rest
    | none =>
      let colon := colonFrom (bytes compound) 0 0
      let front ← slice compound 0 colon
      let back ← sliceFrom compound colon
      return front ++ scope.element ++ back

theorem lt_runEnd {bs : List UInt8} {p : UInt8 → Bool} {i : Nat} (h : i < bs.length)
    (hp : p bs[i] = true) : i < runEnd bs p i := by
  rw [runEnd, dif_pos h, if_pos hp]
  exact le_runEnd p (i + 1)

/-- The compound selector between two offsets, scoped, if they are apart. -/
def scopeBetween (scope : Scope) (selector : List Char) (start stop : Nat) :
    Checked (List Char) :=
  if start < stop then do scopeCompound scope (← slice selector start stop) else return []

/-- The rest of a selector, scoped; its first compound starts at `start`, and the scanner is at
`i`. -/
def complexFrom (scope : Scope) (selector : List Char) (depth start i : Nat) :
    Checked (List Char) :=
  if h : i < (bytes selector).length then
    if isQuoteByte (bytes selector)[i] then
      complexFrom scope selector depth start (stringEnd (bytes selector) i h)
    else if hsign : depth == 0 && isCombinatorByte (bytes selector)[i] then do
      let compound ← scopeBetween scope selector start i
      let behind := runEnd (bytes selector) isCombinatorByte i
      let signs ← slice selector i behind
      let rest ← complexFrom scope selector depth behind behind
      return compound ++ signs ++ rest
    else complexFrom scope selector (weighByte (bytes selector)[i] depth) start (i + 1)
  else scopeBetween scope selector start (size selector)
termination_by (bytes selector).length - i
decreasing_by
  · have := lt_stringEnd h
    omega
  · have := lt_runEnd h (Bool.and_eq_true _ _ ▸ hsign).2
    omega
  · omega

def scopeComplex (scope : Scope) (selector : List Char) : Checked (List Char) :=
  complexFrom scope selector 0 0 0

def scopeListItem (scope : Scope) (item : List Char) : Checked (List Char) :=
  if trimChars item = [] then return item
  else do
    let lead ← slice item 0 (← less (size item) (size (trimStart item)))
    let trail ← sliceFrom item (size (trimEnd item))
    return lead ++ (← scopeComplex scope (trimChars item)) ++ trail

def scopeSelectors (scope : Scope) (list : List Char) : Checked (List Char) := do
  let items ← splitTop (byte ',') list
  return List.intercalate [','] (← items.mapM (scopeListItem scope))

/-! ## Rules -/

def isConditional (head : List Char) : Checked Bool := do
  let nameEnd := size (head.takeWhile fun c => !isBlank c && c != '(')
  let name ← slice head 0 nameEnd
  return conditionalRules.contains (name.map Char.toLower)

/-- The text in front of a block, scoped, and whether the block holds rules. -/
def scopePrelude (scope : Scope) (prelude : List Char) : Checked (List Char × Bool) := do
  let lead ← cutAt prelude (triviaEnd (bytes prelude) 0)
  let selector := trimEnd lead.2
  let trail ← sliceFrom lead.2 (size selector)
  if selector.head? == some '@' then
    return (lead.1 ++ selector ++ trail, ← isConditional selector)
  else return (lead.1 ++ (← scopeSelectors scope selector) ++ trail, false)

theorem preludeEnd?_bounds {bs : List UInt8} {i place : Nat} {b : UInt8}
    (h : preludeEnd? bs i = some (place, b)) : i ≤ place ∧ place < bs.length := by
  fun_induction preludeEnd? bs i with
  | case1 i hi _ ih => exact ⟨Nat.le_trans (Nat.le_of_lt (lt_commentEnd hi)) (ih h).1, (ih h).2⟩
  | case2 i hi _ _ ih => exact ⟨Nat.le_trans (Nat.le_of_lt (lt_stringEnd hi)) (ih h).1, (ih h).2⟩
  | case3 i hi =>
    obtain ⟨rfl, -⟩ := Prod.mk.inj (Option.some.inj h)
    exact ⟨Nat.le_refl _, hi⟩
  | case4 i hi _ _ _ ih => exact ⟨Nat.le_trans (Nat.le_succ i) (ih h).1, (ih h).2⟩
  | case5 => cases h

/-- The rest of a style sheet from an offset on, scoped. -/
def rulesFrom (scope : Scope) (css : List Char) (pos : Nat) : Checked (List Char) :=
  if pos < size css then
    match _hend : preludeEnd? (bytes css) pos with
    | none => sliceFrom css pos
    | some (place, sign) =>
      if sign != byte '{' then do
        let text ← slice css pos (place + 1)
        return text ++ (← rulesFrom scope css (place + 1))
      else do
        let prelude ← slice css pos place
        let close ← blockEnd (bytes css) place
        match _hbody : slice css (place + 1) close with
        | .error fault => .error fault
        | .ok body =>
          let head ← scopePrelude scope prelude
          let inner ← (if head.2 then rulesFrom scope body 0 else pure body)
          let brace := if close < size css then ['}'] else []
          return head.1 ++ '{' :: inner ++ brace ++ (← rulesFrom scope css (close + 1))
  else return []
termination_by size css - pos
decreasing_by
  all_goals
    have hplace : pos ≤ place ∧ place < size css := preludeEnd?_bounds _hend
  · omega
  all_goals
    obtain ⟨front, back, rfl, hfront, hclose⟩ := slice_eq_ok_iff.1 _hbody
    simp only [size_append] at *
    omega

/-- Scopes a style sheet. -/
def scopeCss (css element host : String) : Checked String := do
  return String.ofList (← rulesFrom ⟨element.toList, host.toList⟩ css.toList 0)

end ComponentBundle.Css.Offset
