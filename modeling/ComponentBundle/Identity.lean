import ComponentBundle.Component
import ComponentBundle.Config
import ComponentBundle.Digest.Sha256

/-!
# Bundle ids

A bundle file is named by the digest of its text or by its first component and mode. The loader
builds its requests by the same rules.
-/

namespace ComponentBundle

/-- The first `length` digits of the digest of a text. -/
def contentHash (content : String) (length : Nat) : String :=
  String.ofList ((Digest.hexDigest content).take length)

/-- The id of a bundle in a mode. `content` is the text of the file before its id is put in. -/
def bundleId (config : Config) (firstTag : String) (mode : Option String) (content : String) :
    String :=
  if config.hashFileNames then contentHash content config.hashLength
  else
    match mode with
    | some mode => if mode = defaultMode then firstTag else firstTag ++ "." ++ mode
    | none => firstTag

/-- The id of the variant whose styles are scoped by attributes. -/
def scopedId (id : String) : String := id ++ ".sc"

def bundleFileName (id : String) : String := id ++ ".js"

/-! ## Scope attributes -/

/-- The attribute that marks the elements of a component. -/
def scopeAttribute (tag : String) : String := "data-" ++ tag

def scopeSelector (tag : String) : String := "[" ++ scopeAttribute tag ++ "]"

def hostSelector (tag : String) : String := "[" ++ scopeAttribute tag ++ "-host]"

end ComponentBundle
