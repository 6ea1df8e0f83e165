import ComponentBundle.ReadError
import ComponentBundle.Style.Cache
import ComponentBundle.Style.Text

/-!
# Compiling styles

The style sources of a component in one mode are tasks that are numbered before any of them runs.
A task takes its text from the cache, the file system, the preprocessor or the component itself;
one that fails leaves an empty text and a diagnostic. Compiling changes nothing: it returns the
texts and a log of cache updates, diagnostics and preprocessor calls.

* `plan` : the tasks of a list of sources, and the paths that cannot be compiled;
* `compileMode`, `compileComponent`, `compileMembers` : one mode, all modes, several components.
-/

namespace ComponentBundle

/-! ## Surroundings -/

/-- The files, the preprocessor and the minifiers that a build sees. -/
structure StyleWorld where
  read : FilePath → Except ReadError String
  /-- The style sheet that the preprocessor makes of a file, minified or not. -/
  preprocess : FilePath → Bool → Except BundleError String
  minifiers : Minifiers

/-- A preprocessor that refuses every file. -/
def noPreprocessor (path : FilePath) (_ : Bool) : Except BundleError String :=
  .error (.preprocess path "no style preprocessor is configured")

/-- All that a style task may look at. -/
structure StyleEnv where
  config : Config
  cache : StyleCache
  change : Option ChangeSet
  world : StyleWorld

structure PreprocessorCall where
  path : FilePath
  minify : Bool
  deriving DecidableEq

/-- What compiling leaves beside the texts. -/
structure CompileLog where
  updates : List CacheUpdate := []
  diagnostics : List Diagnostic := []
  calls : List PreprocessorCall := []
  deriving DecidableEq

namespace CompileLog

instance : EmptyCollection CompileLog := ⟨{}⟩

instance : Append CompileLog where
  append a b := ⟨a.updates ++ b.updates, a.diagnostics ++ b.diagnostics, a.calls ++ b.calls⟩

/-- The logs of several compilations, one after another. -/
def concat (logs : List CompileLog) : CompileLog where
  updates := logs.flatMap (·.updates)
  diagnostics := logs.flatMap (·.diagnostics)
  calls := logs.flatMap (·.calls)

end CompileLog

/-! ## Tasks -/

inductive StyleTask where
  | preprocess (order : Nat) (path : FilePath)
  | css (order : Nat) (path : FilePath)
  | inlineText (order : Nat) (text : String)
  deriving DecidableEq

namespace StyleTask

def order : StyleTask → Nat
  | preprocess order _ => order
  | css order _ => order
  | inlineText order _ => order

/-- The task of a path, if its kind can be compiled. -/
def ofPath? (path : FilePath) (order : Nat) : Option StyleTask :=
  match StyleKind.ofPath? path with
  | some .preprocessed => some (preprocess order path)
  | some .css => some (css order path)
  | none => none

end StyleTask

namespace StyleSources

/-- The tasks of the sources: files are numbered from one by their place in the full list, the
text of the component comes after them. -/
def plan (sources : StyleSources) : List StyleTask :=
  (sources.paths.zipIdx 1).filterMap (fun p => StyleTask.ofPath? p.1 p.2) ++
    sources.inlineText.toList.map (.inlineText (sources.paths.length + 1))

/-- The paths that cannot be compiled. -/
def unsupported (sources : StyleSources) : List FilePath :=
  sources.paths.filter fun p => (StyleKind.ofPath? p).isNone

end StyleSources

/-! ## Running tasks -/

/-- The text of a source taken from the cache. -/
def SourceStyle.ofCached (c : Component) (order : Nat) (cached : CachedStyle) : SourceStyle :=
  match cached.plainText with
  | some text => .ofText c order text
  | none => { order := order }

/-- A text compiled afresh from a file, and its update of the cache. -/
def compiledFile (c : Component) (kind : StyleKind) (order : Nat) (path : FilePath)
    (text : String) : SourceStyle × List CacheUpdate :=
  let style := SourceStyle.ofText c order text
  (style, [⟨kind, path, ⟨style.plainText⟩⟩])

def compilePreprocessed (env : StyleEnv) (c : Component) (order : Nat) (path : FilePath) :
    SourceStyle × CompileLog :=
  match env.cache.reusablePreprocessed? env.change path c.modulePath with
  | some cached => (.ofCached c order cached, ∅)
  | none =>
    let calls := [⟨path, env.config.minifyStyles⟩]
    match env.world.preprocess path env.config.minifyStyles with
    | .ok text =>
      let (style, updates) := compiledFile c .preprocessed order path text
      (style, { updates := updates, calls := calls })
    | .error e => ({ order := order }, { diagnostics := [.ofError e], calls := calls })

/-- The diagnostic of a style sheet that cannot be read. -/
def unreadableCss (path : FilePath) (e : ReadError) : Diagnostic :=
  (Diagnostic.error Diagnostic.styleReadFailed
    ("Error opening CSS file. " ++ e.message)).withFile path

def compileCss (env : StyleEnv) (c : Component) (order : Nat) (path : FilePath) :
    SourceStyle × CompileLog :=
  match env.cache.reusableCss? env.change path with
  | some cached => (.ofCached c order cached, ∅)
  | none =>
    match env.world.read path with
    | .ok text =>
      let (style, updates) := compiledFile c .css order path text
      (style, { updates := updates })
    | .error e => ({ order := order }, { diagnostics := [unreadableCss path e] })

def StyleTask.run (env : StyleEnv) (c : Component) : StyleTask → SourceStyle × CompileLog
  | preprocess order path => compilePreprocessed env c order path
  | css order path => compileCss env c order path
  | inlineText order text => (.ofText c order text, ∅)

/-! ## Components -/

/-- Minifies styles if the configuration says so. -/
def minifyIfConfigured (config : Config) (minifiers : Minifiers) (styles : ModeStyles) :
    ModeStyles × List Diagnostic :=
  if config.minifyStyles then styles.minify minifiers else (styles, [])

/-- Compiles a component in one mode. A mode that is not declared has no sources. -/
def compileMode (env : StyleEnv) (c : Component) (mode : String) : ModeStyles × CompileLog :=
  let sources := (c.styles.get? mode).getD {}
  let results := sources.plan.map (StyleTask.run env c)
  let (styles, minifyDiagnostics) :=
    minifyIfConfigured env.config env.world.minifiers
      (.ofSources c.tag mode (results.map (·.1)))
  let refused := sources.unsupported.map fun p => Diagnostic.ofError (.unsupportedStyle p c.tag)
  (styles, { diagnostics := refused } ++ CompileLog.concat (results.map (·.2)) ++
    { diagnostics := minifyDiagnostics })

/-- Compiles a component in every mode that it declares, in order. -/
def compileComponent (env : StyleEnv) (c : Component) : List ModeStyles × CompileLog :=
  let results := c.styles.keys.map (compileMode env c)
  (results.map (·.1), CompileLog.concat (results.map (·.2)))

def compileMembers (env : StyleEnv) (components : List Component) :
    List ModeStyles × CompileLog :=
  let results := components.map (compileComponent env)
  (results.flatMap (·.1), CompileLog.concat (results.map (·.2)))

end ComponentBundle
