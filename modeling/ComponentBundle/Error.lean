import ComponentBundle.FilePath

/-!
# Bundle errors

What can stop an operation on bundles, as causes. Their wording is in `BundleError.message` alone.
-/

namespace ComponentBundle

/-- Why an operation on bundles cannot go on. -/
inductive BundleError where
  /-- An input could not be read; `source` is the operating system's text. -/
  | io (path : FilePath) (source : String)
  | config (reason : String)
  | preprocess (path : FilePath) (reason : String)
  /-- A style file of a kind that cannot be compiled. -/
  | unsupportedStyle (path : FilePath) (tag : String)
  /-- An input that is not JSON of the expected shape. -/
  | json
  deriving DecidableEq

namespace BundleError

def message : BundleError → String
  | io path source => "failed to read " ++ path.text ++ ": " ++ source
  | config reason => "invalid bundle config: " ++ reason
  | preprocess path reason => "failed to preprocess " ++ path.text ++ ": " ++ reason
  | unsupportedStyle path tag =>
    "style url \"" ++ path.text ++ "\", in component \"" ++ tag ++
      "\", is not a supported file type"
  | json => "invalid JSON input"

def path? : BundleError → Option FilePath
  | io path _ => some path
  | preprocess path _ => some path
  | unsupportedStyle path _ => some path
  | config _ => none
  | json => none

end BundleError

end ComponentBundle
