import ComponentBundle.Css.Scan

/-!
# Scoped style sheets

`scopeCss` qualifies every compound selector of every style rule with an attribute selector, so
that `h1 p` becomes `h1[data-x] p[data-x]`, and replaces `:host` by the host's own selector. Rules
inside conditional group rules are scoped as well; other at-rules pass unchanged.

Texts that are cut off in the middle of a block, a string or a comment count as closed at the end
of the text.
-/

namespace ComponentBundle.Css
open Text

/-- The attribute selectors that qualify content selectors and stand for the host element. -/
structure Scope where
  element : List Char
  host : List Char

/-! ## Where texts are cut -/

/-- Comments and strings are skipped whole. -/
def plainSkips : Skips := ⟨true, true⟩

/-- Stops at the end of the text in front of a block: `{`, `;` or `}`. -/
def statementScanner : Scanner :=
  ⟨plainSkips, fun _ depth => depth, fun _ c => c == '{' || c == ';' || c == '}'⟩

/-- Stops at the `}` that closes the block. -/
def blockScanner : Scanner :=
  ⟨plainSkips,
    fun c depth => if c == '{' then depth + 1 else if c == '}' then depth - 1 else depth,
    fun depth c => depth == 0 && c == '}'⟩

/-- Counts parentheses and square brackets; a closing one too many is ignored. -/
def weighBrackets (c : Char) (depth : Nat) : Nat :=
  if c == '(' || c == '[' then depth + 1
  else if c == ')' || c == ']' then depth - 1
  else depth

/-- Stops at a delimiter outside brackets and strings. -/
def delimiterScanner (delimiter : Char) : Scanner :=
  ⟨⟨false, true⟩, weighBrackets, fun depth c => depth == 0 && c == delimiter⟩

def isCombinator (c : Char) : Bool := isAsciiBlank c || c == '>' || c == '+' || c == '~'

/-- Stops at a combinator outside brackets and strings. -/
def compoundScanner : Scanner :=
  ⟨⟨false, true⟩, weighBrackets, fun depth c => depth == 0 && isCombinator c⟩

/-- Stops at a colon outside brackets. -/
def pseudoScanner : Scanner :=
  ⟨⟨false, false⟩, weighBrackets, fun depth c => depth == 0 && c == ':'⟩

/-! ## Selectors -/

/-- The pieces of a text between the delimiters outside brackets and strings. -/
def splitTop (delimiter : Char) (s : List Char) : List (List Char) :=
  match _h : cut (delimiterScanner delimiter) 0 s with
  | (piece, []) => [piece]
  | (piece, _ :: rest) => piece :: splitTop delimiter rest
termination_by s.length
decreasing_by
  have := cut_length_le (delimiterScanner delimiter) 0 s
  rw [_h] at this
  exact this

/-- The trimmed arguments of a pseudo-class and the text after them, if a parenthesis opens. -/
def pseudoArguments? : List Char → Option (List Char × List Char)
  | '(' :: args =>
    let parts := cut (delimiterScanner ')') 0 args
    some (trimChars parts.1, parts.2.drop 1)
  | _ => none

/-- Whether a character continues the name `:host` to another one. -/
def continuesName (c : Char) : Bool := c == '-' || c == '_' || c.isAlphanum

/-- The text after `:host` becomes a selector of the host element. -/
def scopeHost (scope : Scope) (rest : List Char) : List Char :=
  match pseudoArguments? rest with
  | some (inner, after) => inner ++ scope.host ++ after
  | none => scope.host ++ rest

/-- The text that a compound selector has after `:host-context` with arguments. -/
def hostContext? (compound : List Char) : Option (List Char × List Char) :=
  (":host-context".toList.isPrefixOf? compound).bind pseudoArguments?

def hostRest? (compound : List Char) : Option (List Char) :=
  match ":host".toList.isPrefixOf? compound with
  | some rest => if rest.head?.any continuesName then none else some rest
  | none => none

/-- Qualifies one compound selector: in front of its first pseudo-class or pseudo-element, or at
its end. References to the host are replaced. -/
def scopeCompound (scope : Scope) (compound : List Char) : List Char :=
  match hostContext? compound with
  | some (context, after) => context ++ ' ' :: scope.host ++ after
  | none =>
    match hostRest? compound with
    | some rest => scopeHost scope rest
    | none =>
      let parts := cut pseudoScanner 0 compound
      parts.1 ++ scope.element ++ parts.2

/-- Qualifies every compound selector between combinators. -/
def scopeComplex (scope : Scope) : List Char → List Char
  | [] => []
  | c :: rest =>
    if _h : isCombinator c then c :: scopeComplex scope rest
    else
      let parts := cut compoundScanner 0 (c :: rest)
      scopeCompound scope parts.1 ++ scopeComplex scope parts.2
termination_by s => s.length
decreasing_by
  · simp
  · exact cut_length_lt rest (by simp [compoundScanner, _h])

/-- Qualifies one selector of a list and keeps the blanks around it. -/
def scopeListItem (scope : Scope) (item : List Char) : List Char :=
  if trimChars item = [] then item
  else blankStart item ++ scopeComplex scope (trimChars item) ++ blankEnd item

def scopeSelectors (scope : Scope) (list : List Char) : List Char :=
  List.intercalate [','] ((splitTop ',' list).map (scopeListItem scope))

/-! ## Rules -/

/-- The at-rules whose blocks hold style rules. -/
def conditionalRules : List (List Char) :=
  ["@media", "@supports", "@document", "@-moz-document", "@layer", "@container"].map String.toList

/-- Whether the text in front of a block starts with the name of a conditional group rule. -/
def isConditional (head : List Char) : Bool :=
  conditionalRules.contains
    ((head.takeWhile fun c => !isBlank c && c != '(').map Char.toLower)

/-- Scopes a style sheet, statement by statement. -/
def scopeRules (scope : Scope) (css : List Char) : List Char :=
  match _hcut : cut statementScanner 0 css with
  | (text, []) => text
  | (text, d :: inner) =>
    if d = '{' then
      let block := cut blockScanner 0 inner
      let trivia := leadingTrivia text
      let selector := trimEnd trivia.2
      let head :=
        if selector.head? == some '@' then selector else scopeSelectors scope selector
      let body :=
        if selector.head? == some '@' && isConditional selector then scopeRules scope block.1
        else block.1
      trivia.1 ++ head ++ blankEnd trivia.2 ++ '{' :: body ++ block.2.take 1 ++
        scopeRules scope (block.2.drop 1)
    else text ++ d :: scopeRules scope inner
termination_by css.length
decreasing_by
  all_goals
    have hlen := congrArg List.length (cut_append statementScanner 0 css)
    rw [_hcut] at hlen
    simp only [List.length_append, List.length_cons] at hlen
  · have hblock := congrArg List.length (cut_append blockScanner 0 inner)
    simp only [List.length_append] at hblock
    omega
  · have hblock := cut_length_le blockScanner 0 inner
    simp only [List.length_drop]
    omega
  · omega

/-- Scopes a style sheet: `element` qualifies content selectors, `host` replaces `:host`. -/
def scopeCss (css element host : String) : String :=
  String.ofList (scopeRules ⟨element.toList, host.toList⟩ css.toList)

end ComponentBundle.Css
