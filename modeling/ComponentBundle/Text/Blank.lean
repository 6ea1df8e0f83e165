/-!
# Blank characters and trimming

`isBlank` is the Unicode property `White_Space`; `isAsciiBlank` is the space, tab, line feed,
form feed and carriage return that separate tokens in style sheets (not the vertical tab).

* `trimEnd_append_blankEnd`, `blankStart_append_trimStart` : trimming cuts a text in two parts
  and loses nothing;
* `isBlank_of_isAsciiBlank` : the narrow class lies in the wide one.
-/

namespace ComponentBundle.Text

/-- The Unicode property `White_Space`. -/
def isBlank (c : Char) : Bool :=
  let n := c.toNat
  (0x09 ≤ n && n ≤ 0x0D) || n == 0x20 || n == 0x85 || n == 0xA0 || n == 0x1680 ||
    (0x2000 ≤ n && n ≤ 0x200A) || n == 0x2028 || n == 0x2029 || n == 0x202F || n == 0x205F ||
    n == 0x3000

/-- Space, tab, line feed, form feed and carriage return. -/
def isAsciiBlank (c : Char) : Bool :=
  c == ' ' || c == '\t' || c == '\n' || c == '\x0c' || c == '\r'

theorem isBlank_of_isAsciiBlank {c : Char} (h : isAsciiBlank c) : isBlank c := by
  simp only [isAsciiBlank, Bool.or_eq_true, beq_iff_eq] at h
  rcases h with (((rfl | rfl) | rfl) | rfl) | rfl <;> decide

/-! ## Trimming -/

def trimStart (s : List Char) : List Char := s.dropWhile isBlank

def blankStart (s : List Char) : List Char := s.takeWhile isBlank

def trimEnd (s : List Char) : List Char := (s.reverse.dropWhile isBlank).reverse

def blankEnd (s : List Char) : List Char := (s.reverse.takeWhile isBlank).reverse

def trimChars (s : List Char) : List Char := trimEnd (trimStart s)

def trim (s : String) : String := String.ofList (trimChars s.toList)

theorem blankStart_append_trimStart (s : List Char) : blankStart s ++ trimStart s = s :=
  List.takeWhile_append_dropWhile

theorem trimEnd_append_blankEnd (s : List Char) : trimEnd s ++ blankEnd s = s := by
  rw [trimEnd, blankEnd, ← List.reverse_append, List.takeWhile_append_dropWhile,
    List.reverse_reverse]

end ComponentBundle.Text
