import ComponentBundle.Bundle.Artifact

/-!
# Writing bundle files

A build queues its files for up to two output trees. A cache of what was last written to each path
of the web tree outlives the build: a file that has not changed is not queued again.

* `write_unchanged`, `write_written` : what a write leaves in the cache and the queues.
-/

namespace ComponentBundle

/-- Whether a file was queued. -/
inductive WriteOutcome where
  | written
  /-- The same text was written to the path before. -/
  | unchanged
  deriving DecidableEq

/-- The text last written to each path. -/
structure EmitCache where
  contents : SortedMap FilePath String := ∅
  deriving DecidableEq

namespace EmitCache

instance : EmptyCollection EmitCache := ⟨{}⟩

/-- Compares a text with the last one of its path and remembers it. -/
def store (cache : EmitCache) (path : FilePath) (content : String) : WriteOutcome × EmitCache :=
  if cache.contents.get? path = some content then (.unchanged, cache)
  else (.written, ⟨cache.contents.insert path content⟩)

def size (cache : EmitCache) : Nat := cache.contents.size

def isEmpty (cache : EmitCache) : Bool := cache.contents.isEmpty

end EmitCache

/-- The files queued for each output tree. -/
structure OutputFiles where
  www : SortedMap FilePath String := ∅
  dist : SortedMap FilePath String := ∅
  deriving DecidableEq

namespace OutputFiles

instance : EmptyCollection OutputFiles := ⟨{}⟩

def size (files : OutputFiles) : Nat := files.www.size + files.dist.size

def isEmpty (files : OutputFiles) : Bool := files.www.isEmpty && files.dist.isEmpty

end OutputFiles

def wwwPath (config : Config) (fileName : String) : FilePath :=
  (config.buildDir.join config.outputDir).join ⟨fileName⟩

def distPath (config : Config) (fileName : String) : FilePath :=
  (config.distDir.join config.outputDir).join ⟨fileName⟩

/-- Puts a file in the queue of every tree that the configuration writes. -/
def OutputFiles.queue (config : Config) (files : OutputFiles) (a : Artifact) : OutputFiles where
  www := if config.writesWww then files.www.insert (wwwPath config a.fileName) a.content
    else files.www
  dist := if config.writesDist then files.dist.insert (distPath config a.fileName) a.content
    else files.dist

/-! ## Writing -/

/-- The state of writing: the cache, the queues, and how many files were queued or not. -/
structure Emission where
  cache : EmitCache := ∅
  files : OutputFiles := ∅
  written : Nat := 0
  unchanged : Nat := 0
  deriving DecidableEq

namespace Emission

/-- Writes a file. The path in the web tree is its key in the cache, whatever trees are written. -/
def write (config : Config) (s : Emission) (a : Artifact) : WriteOutcome × Emission :=
  match s.cache.store (wwwPath config a.fileName) a.content with
  | (.unchanged, _) => (.unchanged, { s with unchanged := s.unchanged + 1 })
  | (.written, cache) =>
    (.written, { s with cache, files := s.files.queue config a, written := s.written + 1 })

theorem write_unchanged {config : Config} {s : Emission} {a : Artifact}
    (h : s.cache.contents.get? (wwwPath config a.fileName) = some a.content) :
    s.write config a = (.unchanged, { s with unchanged := s.unchanged + 1 }) := by
  simp [write, EmitCache.store, h]

theorem write_written {config : Config} {s : Emission} {a : Artifact}
    (h : s.cache.contents.get? (wwwPath config a.fileName) ≠ some a.content) :
    s.write config a =
      (.written,
        { cache := ⟨s.cache.contents.insert (wwwPath config a.fileName) a.content⟩
          files := s.files.queue config a
          written := s.written + 1
          unchanged := s.unchanged }) := by
  simp [write, EmitCache.store, h]

end Emission

structure EmittedVariant where
  mode : Option String
  bundleId : String
  hasScoped : Bool
  outcome : WriteOutcome
  deriving DecidableEq

structure EmittedBundle where
  components : List Component
  variants : List EmittedVariant
  deriving DecidableEq

/-- Written if one of two files was. -/
def WriteOutcome.either : WriteOutcome → WriteOutcome → WriteOutcome
  | unchanged, unchanged => unchanged
  | _, _ => written

/-- Writes the files of a variant: the plain one, then the scoped one. -/
def emitVariant (config : Config) (s : Emission) (v : AssembledVariant) :
    EmittedVariant × Emission :=
  let (outcome, s) := s.write config v.plain
  let (outcome, s) :=
    match v.withScoped with
    | some artifact =>
      let (scopedOutcome, s) := s.write config artifact
      (outcome.either scopedOutcome, s)
    | none => (outcome, s)
  (⟨v.mode, v.bundleId, v.withScoped.isSome, outcome⟩, s)

def emitVariants (config : Config) : Emission → List AssembledVariant →
    List EmittedVariant × Emission
  | s, [] => ([], s)
  | s, v :: rest =>
    let (emitted, s) := emitVariant config s v
    let (more, s) := emitVariants config s rest
    (emitted :: more, s)

def emitBundles (config : Config) : Emission → List AssembledBundle →
    List EmittedBundle × Emission
  | s, [] => ([], s)
  | s, b :: rest =>
    let (variants, s) := emitVariants config s b.variants
    let (more, s) := emitBundles config s rest
    (⟨b.components, variants⟩ :: more, s)

end ComponentBundle
