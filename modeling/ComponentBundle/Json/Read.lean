import ComponentBundle.Json.Basic

/-!
# Reading JSON text

The grammar of JSON without extensions: no comments, no trailing commas, no byte order mark,
no raw control characters in strings. Blanks may surround every token. A string whose escapes
hold half a surrogate pair, and an object with such a key, is read as a literal of its own.
-/

namespace ComponentBundle.Json

/-! ## Blanks -/

/-- Space, tab, line feed and carriage return. -/
def isGap (c : Char) : Bool := c == ' ' || c == '\t' || c == '\n' || c == '\r'

def skipGap (s : List Char) : List Char := s.dropWhile isGap

/-! ## Strings -/

/-- A piece of a string literal: a character, or a code unit from a hexadecimal escape. -/
inductive StringPiece where
  | char (c : Char)
  | unit (n : Nat)
  deriving DecidableEq

def hexValue? (c : Char) : Option Nat :=
  if c.isDigit then some (c.toNat - 0x30)
  else if 'a' ≤ c ∧ c ≤ 'f' then some (c.toNat - 0x57)
  else if 'A' ≤ c ∧ c ≤ 'F' then some (c.toNat - 0x37)
  else none

/-- The code unit of four hexadecimal digits. -/
def unitOfHex? (a b c d : Char) : Option Nat := do
  let a ← hexValue? a
  let b ← hexValue? b
  let c ← hexValue? c
  let d ← hexValue? d
  return ((a * 16 + b) * 16 + c) * 16 + d

/-- The character that a letter after a backslash stands for. -/
def escaped? (c : Char) : Option Char :=
  if c = '"' ∨ c = '\\' ∨ c = '/' then some c
  else if c = 'b' then some '\x08'
  else if c = 'f' then some '\x0c'
  else if c = 'n' then some '\n'
  else if c = 'r' then some '\r'
  else if c = 't' then some '\t'
  else none

/-- The pieces of a string up to its closing quote, and the text after it. -/
def readPieces : List Char → Option (List StringPiece × List Char)
  | [] => none
  | '"' :: rest => some ([], rest)
  | '\\' :: 'u' :: a :: b :: c :: d :: rest => do
    let n ← unitOfHex? a b c d
    let (pieces, rest) ← readPieces rest
    return (.unit n :: pieces, rest)
  | '\\' :: e :: rest => do
    let c ← escaped? e
    let (pieces, rest) ← readPieces rest
    return (.char c :: pieces, rest)
  | c :: rest =>
    if c.toNat < 0x20 then none
    else do
      let (pieces, rest) ← readPieces rest
      return (.char c :: pieces, rest)

/-- Whether a code unit is the first half of a surrogate pair. -/
def isHighUnit (n : Nat) : Bool := 0xD800 ≤ n && n < 0xDC00

/-- Whether a code unit is the second half of a surrogate pair. -/
def isLowUnit (n : Nat) : Bool := 0xDC00 ≤ n && n < 0xE000

/-- The characters of a string literal; half a surrogate pair spells none. -/
def charsOfPieces? : List StringPiece → Option (List Char)
  | [] => some []
  | .char c :: rest => (charsOfPieces? rest).map (c :: ·)
  | .unit high :: .unit low :: rest =>
    if isHighUnit high && isLowUnit low then
      (charsOfPieces? rest).map
        (Char.ofNat (0x10000 + (high - 0xD800) * 0x400 + (low - 0xDC00)) :: ·)
    else if isHighUnit high || isLowUnit high then none
    else (charsOfPieces? (.unit low :: rest)).map (Char.ofNat high :: ·)
  | .unit n :: rest =>
    if isHighUnit n || isLowUnit n then none
    else (charsOfPieces? rest).map (Char.ofNat n :: ·)

/-- A string after its opening quote: its text, unless it spells none, and what follows. -/
def readText (s : List Char) : Option (Option String × List Char) :=
  (readPieces s).map fun r => ((charsOfPieces? r.1).map String.ofList, r.2)

/-! ## Numerals -/

/-- The number that decimal digits spell. -/
def digitsValue (digits : List Char) : Nat :=
  digits.foldl (fun n c => 10 * n + (c.toNat - 0x30)) 0

/-- Digits after a mark, if the mark is there; then there is at least one digit. -/
def readFraction : List Char → Option (List Char × List Char)
  | '.' :: rest =>
    let digits := rest.takeWhile Char.isDigit
    if digits = [] then none else some ('.' :: digits, rest.dropWhile Char.isDigit)
  | s => some ([], s)

def readSign : List Char → List Char × List Char
  | '+' :: rest => (['+'], rest)
  | '-' :: rest => (['-'], rest)
  | s => ([], s)

/-- An exponent, if its mark is there. -/
def readExponent : List Char → Option (List Char × List Char)
  | [] => some ([], [])
  | c :: rest =>
    if c = 'e' ∨ c = 'E' then
      let sign := readSign rest
      let digits := sign.2.takeWhile Char.isDigit
      if digits = [] then none
      else some (c :: sign.1 ++ digits, sign.2.dropWhile Char.isDigit)
    else some ([], c :: rest)

/-- A numeral: digits without sign, fraction and exponent are a natural number. -/
def readNumeral (s : List Char) : Option (Json × List Char) := do
  let (sign, s) := match s with
    | '-' :: rest => (['-'], rest)
    | s => ([], s)
  let digits := s.takeWhile Char.isDigit
  if digits = [] ∨ (digits.head? = some '0' ∧ 1 < digits.length) then none
  let (fraction, s) ← readFraction (s.dropWhile Char.isDigit)
  let (exponent, s) ← readExponent s
  if sign = [] ∧ fraction = [] ∧ exponent = [] then return (nat (digitsValue digits), s)
  return (other (String.ofList (sign ++ digits ++ fraction ++ exponent)), s)

/-! ## Values -/

/-- The text between a place and a later one. -/
def consumed (start rest : List Char) : String :=
  String.ofList (start.take (start.length - rest.length))

/-- The members of an object whose keys all spell a text. -/
def spelledMembers? : List (Option String × Json) → Option (List (String × Json))
  | [] => some []
  | (some key, value) :: rest => (spelledMembers? rest).map ((key, value) :: ·)
  | (none, _) :: _ => none

mutual

/-- A value and the text after it, at most `fuel` steps deep. -/
def readValue : Nat → List Char → Option (Json × List Char)
  | 0, _ => none
  | fuel + 1, s =>
    let start := skipGap s
    match start with
    | '"' :: rest => do
      let (text, rest) ← readText rest
      return (match text with | some text => str text | none => other (consumed start rest), rest)
    | '[' :: rest =>
      match skipGap rest with
      | ']' :: rest => some (arr [], rest)
      | _ => (readItems fuel rest).map fun r => (arr r.1, r.2)
    | '\x7b' :: rest =>
      match skipGap rest with
      | '\x7d' :: rest => some (obj [], rest)
      | _ => do
        let (members, rest) ← readMembers fuel rest
        return (match spelledMembers? members with
          | some members => obj members
          | none => other (consumed start rest), rest)
    | 'n' :: 'u' :: 'l' :: 'l' :: rest => some (null, rest)
    | 't' :: 'r' :: 'u' :: 'e' :: rest => some (bool true, rest)
    | 'f' :: 'a' :: 'l' :: 's' :: 'e' :: rest => some (bool false, rest)
    | start => readNumeral start

/-- One or more items up to the bracket that closes the array. -/
def readItems : Nat → List Char → Option (List Json × List Char)
  | 0, _ => none
  | fuel + 1, s => do
    let (item, rest) ← readValue fuel s
    match skipGap rest with
    | ',' :: rest => (readItems fuel rest).map fun r => (item :: r.1, r.2)
    | ']' :: rest => some ([item], rest)
    | _ => none

/-- One or more members up to the brace that closes the object. -/
def readMembers : Nat → List Char → Option (List (Option String × Json) × List Char)
  | 0, _ => none
  | fuel + 1, s =>
    match skipGap s with
    | '"' :: rest => do
      let (key, rest) ← readText rest
      match skipGap rest with
      | ':' :: rest => do
        let (value, rest) ← readValue fuel rest
        match skipGap rest with
        | ',' :: rest => (readMembers fuel rest).map fun r => ((key, value) :: r.1, r.2)
        | '\x7d' :: rest => some ([(key, value)], rest)
        | _ => none
      | _ => none
    | _ => none

end

/-- The value of a whole text. Every step but those that open a value takes a character. -/
def read? (text : String) : Option Json :=
  match readValue (2 * text.toList.length + 2) text.toList with
  | some (value, rest) => if skipGap rest = [] then some value else none
  | none => none

end ComponentBundle.Json
