import ComponentBundle.Diagnostic

/-!
# Minifying

Style sheets and scripts are read and written by libraries. What a library makes of a text is given
here as an outcome, and from the outcome follow the shorter text, if there is one, and the
diagnostics. Without an output the text stays.

* `SheetOutcome.output_isNone`, `ScriptOutcome.output_isNone` : exactly a failure has no output;
* `SheetOutcome.code_minified`, `ScriptOutcome.code_minified` : the problems of a language share a
  code.
-/

namespace ComponentBundle

/-- What a minifier makes of a text. -/
structure Minified where
  output : Option String
  diagnostics : List Diagnostic
  deriving DecidableEq

/-- The text to go on with: the output, or the text as it was. -/
def Minified.applyTo (m : Minified) (text : String) : String := m.output.getD text

/-! ## Style sheets -/

/-- How far a library gets with a style sheet. It reads on after a mistake and leaves a warning, but
warnings are looked at only once the sheet was to be written. -/
inductive SheetOutcome where
  | unparsed (reason : String)
  | unminified (reason : String)
  | unprinted (reason : String) (warnings : List String)
  | printed (text : String) (warnings : List String)
  deriving DecidableEq

namespace SheetOutcome

def failure (reason : String) : Diagnostic :=
  .error Diagnostic.styleMinify ("CSS minify failed: " ++ reason)

def recovered (warnings : List String) : List Diagnostic :=
  warnings.map (Diagnostic.warning Diagnostic.styleMinify)

def minified : SheetOutcome → Minified
  | unparsed reason | unminified reason => ⟨none, [failure reason]⟩
  | unprinted reason warnings => ⟨none, failure reason :: recovered warnings⟩
  | printed text warnings => ⟨some text, recovered warnings⟩

theorem output_isNone (o : SheetOutcome) :
    o.minified.output.isNone = o.minified.diagnostics.any Diagnostic.isError := by
  have hrecovered : ∀ warnings, (recovered warnings).any Diagnostic.isError = false := by
    intro warnings
    rw [recovered, List.any_map]
    exact List.any_eq_false.2 fun _ _ h => Bool.noConfusion h
  cases o with
  | unparsed | unminified | unprinted => rfl
  | printed text warnings => exact (hrecovered warnings).symm

theorem code_minified (o : SheetOutcome) :
    ∀ d ∈ o.minified.diagnostics, d.code = Diagnostic.styleMinify := by
  have hrecovered : ∀ {warnings d}, d ∈ recovered warnings → d.code = Diagnostic.styleMinify := by
    intro warnings d hd
    obtain ⟨w, -, rfl⟩ := List.mem_map.1 hd
    rfl
  intro d hd
  cases o with
  | unparsed reason | unminified reason =>
    obtain rfl := List.mem_singleton.1 hd
    rfl
  | unprinted reason warnings =>
    rcases List.mem_cons.1 hd with rfl | hd
    · rfl
    · exact hrecovered hd
  | printed text warnings => exact hrecovered hd

end SheetOutcome

/-! ## Scripts -/

/-- What a library makes of a script: whether its parser gave up, what it found wrong, and the text
that it writes of a script without mistakes. -/
structure ScriptOutcome where
  aborted : Bool := false
  errors : List String := []
  text : String := ""
  deriving DecidableEq

namespace ScriptOutcome

def failure (reason : String) : Diagnostic :=
  .error Diagnostic.scriptMinify ("JS minify failed: " ++ reason)

/-- Why there is no output. A parser that gives up need not say why. -/
def reasons (o : ScriptOutcome) : List String :=
  if o.errors = [] ∧ o.aborted = true then ["parser aborted"] else o.errors

def minified (o : ScriptOutcome) : Minified :=
  if o.reasons = [] then ⟨some o.text, []⟩ else ⟨none, o.reasons.map failure⟩

theorem output_isNone (o : ScriptOutcome) :
    o.minified.output.isNone = (o.aborted || !o.errors.isEmpty) := by
  unfold minified reasons
  cases o.errors <;> cases o.aborted <;> rfl

theorem code_minified (o : ScriptOutcome) :
    ∀ d ∈ o.minified.diagnostics, d.code = Diagnostic.scriptMinify := by
  intro d hd
  unfold minified at hd
  split at hd
  · cases hd
  · obtain ⟨reason, -, rfl⟩ := List.mem_map.1 hd
    rfl

end ScriptOutcome

/-! ## Minifiers -/

/-- The libraries that a build minifies with. -/
structure Minifiers where
  sheet : String → SheetOutcome
  script : String → ScriptOutcome

namespace Minifiers

def minifySheet (m : Minifiers) (css : String) : Minified := (m.sheet css).minified

def minifyScript (m : Minifiers) (code : String) : Minified := (m.script code).minified

end Minifiers

end ComponentBundle
