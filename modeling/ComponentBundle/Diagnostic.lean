import ComponentBundle.Error
import ComponentBundle.Json.Codec

/-!
# Diagnostics

Problems of a build are recorded and do not stop it. Every diagnostic has a code that names its
kind; `DiagnosticLog` collects diagnostics until its owner takes them.

* `ofError` : every bundle error has a diagnostic, whose code follows from the error's cause.
-/

namespace ComponentBundle

inductive DiagnosticLevel where
  | error
  | warning
  deriving DecidableEq

structure Diagnostic where
  code : String
  level : DiagnosticLevel
  message : String
  file : Option String
  deriving DecidableEq

namespace Diagnostic

/-! ## Codes -/

/-- A style file of a kind that cannot be compiled. -/
def unsupportedStyle : String := "BND-STYLE-001"
/-- A style file on which the preprocessor failed. -/
def preprocessFailed : String := "BND-STYLE-002"
/-- A style file that could not be read. -/
def styleReadFailed : String := "BND-STYLE-003"
/-- A style text that could not be minified, or only in part. -/
def styleMinify : String := "BND-MINIFY-001"
/-- A module text that could not be minified. -/
def scriptMinify : String := "BND-MINIFY-002"
/-- A bundle without components. -/
def emptyBundle : String := "BND-BUNDLE-001"
/-- A configuration or another input that was refused. -/
def invalidInput : String := "BND-INPUT-001"

def error (code message : String) : Diagnostic := ⟨code, .error, message, none⟩

def warning (code message : String) : Diagnostic := ⟨code, .warning, message, none⟩

def withFile (d : Diagnostic) (path : FilePath) : Diagnostic := { d with file := some path.text }

def isError (d : Diagnostic) : Bool := d.level == .error

def codeOf : BundleError → String
  | .unsupportedStyle .. => unsupportedStyle
  | .preprocess .. => preprocessFailed
  | .io .. => styleReadFailed
  | .config _ => invalidInput
  | .json => invalidInput

def ofError (e : BundleError) : Diagnostic :=
  ⟨codeOf e, .error, e.message, e.path?.map (·.text)⟩

@[simp] theorem isError_ofError (e : BundleError) : (ofError e).isError = true := rfl

end Diagnostic

/-! ## Collecting -/

/-- Diagnostics in the order in which they were recorded. -/
structure DiagnosticLog where
  entries : List Diagnostic
  deriving DecidableEq

namespace DiagnosticLog

instance : EmptyCollection DiagnosticLog := ⟨⟨[]⟩⟩

def push (log : DiagnosticLog) (d : Diagnostic) : DiagnosticLog := ⟨log.entries ++ [d]⟩

def extend (log : DiagnosticLog) (ds : List Diagnostic) : DiagnosticLog := ⟨log.entries ++ ds⟩

/-- Hands out everything recorded and starts anew. -/
def takeAll (log : DiagnosticLog) : List Diagnostic × DiagnosticLog := (log.entries, ∅)

def size (log : DiagnosticLog) : Nat := log.entries.length

def isEmpty (log : DiagnosticLog) : Bool := log.entries.isEmpty

def hasErrors (log : DiagnosticLog) : Bool := log.entries.any Diagnostic.isError

end DiagnosticLog

/-! ## JSON -/

instance : JsonCodec DiagnosticLevel where
  encode
    | .error => .str "error"
    | .warning => .str "warning"
  decode j := do
    match ← j.case? with
    | "error" => some .error
    | "warning" => some .warning
    | _ => none

instance : JsonCodec Diagnostic where
  encode d := .obj [("code", encode d.code), ("level", encode d.level),
    ("message", encode d.message), ("file", encode d.file)]
  decode j := do
    let slot ← j.record? ["code", "level", "message", "file"]
    return {
      code := ← (slot "code").required
      level := ← (slot "level").required
      message := ← (slot "message").required
      file := ← (slot "file").nullable }

end ComponentBundle
