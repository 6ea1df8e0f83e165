import ComponentBundle.Registry

/-!
# Builds

A build compiles the styles of all bundles, assembles their files and writes them. The context
outlives it: it holds the style texts that a later change build may take and what was last
written, so that unchanged files are not written again.

* Bundles are compiled one after another, and each sees the style texts that earlier ones left;
  the members of one bundle do not see each other's.
* Problems are diagnostics of the results and never stop the build.
-/

namespace ComponentBundle

/-! ## Context -/

/-- What one build leaves to the next. -/
structure BuildContext where
  change : Option ChangeSet := none
  styleCache : StyleCache := ∅
  emitCache : EmitCache := ∅
  deriving DecidableEq

namespace BuildContext

instance : EmptyCollection BuildContext := ⟨{}⟩

/-- The next builds are change builds after changes to these files. -/
def setChangedFiles (ctx : BuildContext) (files : List FilePath) : BuildContext :=
  { ctx with change := some ⟨files⟩ }

def clearChangedFiles (ctx : BuildContext) : BuildContext := { ctx with change := none }

def isChangeBuild (ctx : BuildContext) : Bool := ctx.change.isSome

end BuildContext

/-! ## Results -/

@[ext] structure BuildStats where
  preprocessCount : Nat := 0
  filesWritten : Nat := 0
  filesUnchanged : Nat := 0
  deriving DecidableEq

structure BuildResults where
  files : OutputFiles
  registry : Registry
  bundles : List EmittedBundle
  diagnostics : List Diagnostic
  stats : BuildStats
  deriving DecidableEq

def BuildResults.hasErrors (r : BuildResults) : Bool := r.diagnostics.any Diagnostic.isError

/-- A build's results, the context it leaves, and the preprocessor calls it made. -/
structure BuildOutcome where
  results : BuildResults
  context : BuildContext
  calls : List PreprocessorCall
  deriving DecidableEq

/-! ## Stages -/

/-- A bundle with the styles of its members. -/
structure CompiledBundle where
  bundle : ManifestBundle
  styles : List ModeStyles
  deriving DecidableEq

/-- Compiles bundles one after another; the cache takes the texts of each before the next. -/
def compileBundles (config : Config) (world : StyleWorld) (change : Option ChangeSet) :
    StyleCache → List ManifestBundle → List CompiledBundle × CompileLog × StyleCache
  | cache, [] => ([], ∅, cache)
  | cache, bundle :: rest =>
    let (styles, log) := compileMembers ⟨config, cache, change, world⟩ bundle.components
    let (more, moreLog, final) :=
      compileBundles config world change (cache.apply log.updates) rest
    (⟨bundle, styles⟩ :: more, log ++ moreLog, final)

/-- The files of compiled bundles, in order, and what assembling them met. -/
def assembleBundles (config : Config) (minifiers : Minifiers) (compiled : List CompiledBundle) :
    List AssembledBundle × List Diagnostic :=
  let results := compiled.map fun b => assembleBundle config minifiers b.bundle b.styles
  (results.filterMap (·.1), results.flatMap (·.2))

def generateBundles (config : Config) (world : StyleWorld) (ctx : BuildContext)
    (bundles : List ManifestBundle) : BuildOutcome :=
  let (compiled, log, styleCache) :=
    compileBundles config world ctx.change ctx.styleCache bundles
  let (assembled, diagnostics) := assembleBundles config world.minifiers compiled
  let (emitted, emission) := emitBundles config { cache := ctx.emitCache } assembled
  { results :=
      { files := emission.files
        registry := Registry.ofBundles emitted
        bundles := emitted
        diagnostics := log.diagnostics ++ diagnostics
        stats :=
          { preprocessCount := styleCache.preprocessCount - ctx.styleCache.preprocessCount
            filesWritten := emission.written
            filesUnchanged := emission.unchanged } }
    context := { ctx with styleCache, emitCache := emission.cache }
    calls := log.calls }

/-- Builds once from JSON, without a preprocessor. The configuration is looked at first. -/
def generateFromJson (read : FilePath → Except ReadError String) (minifiers : Minifiers)
    (config bundles : Json) : Except BundleError BuildResults :=
  match Config.ofJson config with
  | .error e => .error e
  | .ok config =>
    match (decode bundles : Option (List ManifestBundle)) with
    | none => .error .json
    | some bundles =>
      .ok (generateBundles config ⟨read, noPreprocessor, minifiers⟩ ∅ bundles).results

end ComponentBundle
