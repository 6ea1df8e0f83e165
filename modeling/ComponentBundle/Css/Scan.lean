import ComponentBundle.Text.Blank
import ComponentBundle.Text.Comment

/-!
# Cutting style sheets

A scanner walks over a text lexeme by lexeme and cuts it at the first character where it stops.
Comments and strings may count as one lexeme, so that nothing inside them is structure; a depth
counts the brackets that are open.

* `lexeme_append`, `cut_append`, `leadingTrivia_append` : cutting loses nothing;
* `cut_rest` : what a cut leaves is empty or starts where the scanner stops;
* every loop ends because the text that is left grows shorter.
-/

namespace ComponentBundle.Css
open Text

/-! ## Lexemes -/

/-- A string's text after its opening quote: up to and with the closing one, and what follows. A
backslash takes the next character with it. -/
def stringTail (quote : Char) : List Char → List Char × List Char
  | [] => ([], [])
  | '\\' :: c :: rest =>
    let more := stringTail quote rest
    ('\\' :: c :: more.1, more.2)
  | c :: rest =>
    if c = quote then ([c], rest)
    else
      let more := stringTail quote rest
      (c :: more.1, more.2)

/-- Which constructs count as one lexeme. -/
structure Skips where
  comments : Bool
  strings : Bool

def isQuote (c : Char) : Bool := c == '"' || c == '\''

/-- The lexeme that starts with `c`, and the text after it. -/
def lexeme (skips : Skips) (c : Char) (rest : List Char) : List Char × List Char :=
  if skips.comments && c == '/' && rest.head? == some '*' then
    let tail := commentTail rest.tail
    ('/' :: '*' :: tail.1, tail.2)
  else if skips.strings && isQuote c then
    let tail := stringTail c rest
    (c :: tail.1, tail.2)
  else ([c], rest)

theorem stringTail_append (quote : Char) (s : List Char) :
    (stringTail quote s).1 ++ (stringTail quote s).2 = s := by
  fun_induction stringTail quote s with
  | case1 => rfl
  | case2 c rest more ih => simp [more, ih]
  | case3 rest _ => rfl
  | case4 c rest _ _ more ih => simp [more, ih]

theorem lexeme_append (skips : Skips) (c : Char) (rest : List Char) :
    (lexeme skips c rest).1 ++ (lexeme skips c rest).2 = c :: rest := by
  unfold lexeme
  split
  · rename_i h
    simp only [Bool.and_eq_true, beq_iff_eq] at h
    obtain ⟨⟨-, rfl⟩, h⟩ := h
    cases rest with
    | nil => simp at h
    | cons d rest =>
      simp only [List.head?_cons, Option.some.injEq] at h
      simp [h, commentTail_append]
  · split
    · simp [stringTail_append]
    · rfl

theorem lexeme_length (skips : Skips) (c : Char) (rest : List Char) :
    (lexeme skips c rest).2.length ≤ rest.length := by
  have h := congrArg List.length (lexeme_append skips c rest)
  have hpos : 0 < (lexeme skips c rest).1.length := by
    unfold lexeme
    split
    · simp
    · split <;> simp
  simp only [List.length_append, List.length_cons] at h
  omega

/-! ## Scanners -/

/-- How a text is walked: what is skipped whole, how characters change the depth, and where the
walk stops. -/
structure Scanner where
  skips : Skips
  weigh : Char → Nat → Nat
  stops : Nat → Char → Bool

/-- Cuts a text at the first lexeme that starts where the scanner stops. -/
def cut (sc : Scanner) (depth : Nat) : List Char → List Char × List Char
  | [] => ([], [])
  | c :: rest =>
    if sc.stops depth c then ([], c :: rest)
    else
      let taken := lexeme sc.skips c rest
      let more := cut sc (sc.weigh c depth) taken.2
      (taken.1 ++ more.1, more.2)
termination_by s => s.length
decreasing_by exact Nat.lt_succ_of_le (lexeme_length sc.skips c rest)

theorem cut_append (sc : Scanner) (depth : Nat) (s : List Char) :
    (cut sc depth s).1 ++ (cut sc depth s).2 = s := by
  fun_induction cut sc depth s with
  | case1 => rfl
  | case2 => rfl
  | case3 depth c rest _ taken more ih =>
    rw [List.append_assoc, ih]
    exact lexeme_append sc.skips c rest

theorem cut_length_le (sc : Scanner) (depth : Nat) (s : List Char) :
    (cut sc depth s).2.length ≤ s.length := by
  have h := congrArg List.length (cut_append sc depth s)
  simp only [List.length_append] at h
  omega

theorem cut_length_lt {sc : Scanner} {depth : Nat} {c : Char} (rest : List Char)
    (h : sc.stops depth c = false) : (cut sc depth (c :: rest)).2.length < (c :: rest).length := by
  rw [cut]
  simp only [h, Bool.false_eq_true, if_false]
  exact Nat.lt_succ_of_le 
    (Nat.le_trans (cut_length_le sc _ _) (lexeme_length sc.skips c rest))

theorem cut_rest (sc : Scanner) (depth : Nat) (s : List Char) :
    (cut sc depth s).2 = [] ∨
      ∃ d c rest, (cut sc depth s).2 = c :: rest ∧ sc.stops d c = true := by
  fun_induction cut sc depth s with
  | case1 => exact .inl rfl
  | case2 depth c rest h => exact .inr ⟨depth, c, rest, rfl, h⟩
  | case3 depth c rest _ taken more ih => exact ih

/-! ## Trivia -/

/-- The blanks and comments at the start of a text, and what follows. -/
def leadingTrivia : List Char → List Char × List Char
  | [] => ([], [])
  | c :: rest =>
    if isAsciiBlank c || (c == '/' && rest.head? == some '*') then
      let taken := lexeme ⟨true, false⟩ c rest
      let more := leadingTrivia taken.2
      (taken.1 ++ more.1, more.2)
    else ([], c :: rest)
termination_by s => s.length
decreasing_by exact Nat.lt_succ_of_le (lexeme_length ⟨true, false⟩ c rest)

theorem leadingTrivia_append (s : List Char) :
    (leadingTrivia s).1 ++ (leadingTrivia s).2 = s := by
  fun_induction leadingTrivia s with
  | case1 => rfl
  | case2 c rest _ taken more ih =>
    rw [List.append_assoc, ih]
    exact lexeme_append ⟨true, false⟩ c rest
  | case3 => rfl

end ComponentBundle.Css
