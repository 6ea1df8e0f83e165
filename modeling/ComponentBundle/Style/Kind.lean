import ComponentBundle.FilePath

/-!
# Kinds of style files

The extension of a path says how a style file is compiled: `.css` is read as it is, `.scss` and
`.sass` go through a preprocessor. Case does not count, and the long s counts as an `s`.
-/

namespace ComponentBundle

inductive StyleKind where
  | preprocessed
  | css
  deriving DecidableEq

namespace StyleKind

/-- Whether a character is a lower-case letter in any case. -/
def sameLetter (c letter : Char) : Bool := c.toLower == letter || (c == 'ſ' && letter == 's')

/-- Whether a text starts with letters in any case. -/
def startsWithLetters : List Char → List Char → Bool
  | _, [] => true
  | [], _ :: _ => false
  | c :: s, letter :: letters => sameLetter c letter && startsWithLetters s letters

/-- Whether a path ends in an extension, in any case. -/
def hasExtension (p : FilePath) (extension : String) : Bool :=
  startsWithLetters p.text.toList.reverse extension.toList.reverse

def isPreprocessorFile (p : FilePath) : Bool := hasExtension p ".scss" || hasExtension p ".sass"

def isCssFile (p : FilePath) : Bool := hasExtension p ".css"

/-- The kind of a style file, if it can be compiled. -/
def ofPath? (p : FilePath) : Option StyleKind :=
  if isPreprocessorFile p then some preprocessed
  else if isCssFile p then some css
  else none

end StyleKind

end ComponentBundle
