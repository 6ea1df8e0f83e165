import ComponentBundle.Build

/-!
# Build results as JSON

What a build hands to its caller: the queued files by path, the registry, a summary of every
bundle, the diagnostics and the counts.
-/

namespace ComponentBundle

def WriteOutcome.label : WriteOutcome → String
  | written => "written"
  | unchanged => "unchanged"

/-- The queued files of one tree, by path. -/
def filesToJson (files : SortedMap FilePath String) : Json :=
  .obj (files.entries.map fun e => (e.1.text, encode e.2))

def OutputFiles.toJson (files : OutputFiles) : Json :=
  .obj [("www", filesToJson files.www), ("dist", filesToJson files.dist)]

def EmittedVariant.toJson (v : EmittedVariant) : Json :=
  .obj [("mode", encode v.mode), ("bundleId", encode v.bundleId),
    ("hasScoped", encode v.hasScoped), ("outcome", encode v.outcome.label)]

def EmittedBundle.toJson (b : EmittedBundle) : Json :=
  .obj [("components", encode b.components), ("variants", .arr (b.variants.map (·.toJson)))]

def BuildStats.toJson (s : BuildStats) : Json :=
  .obj [("preprocessCount", .nat s.preprocessCount), ("filesWritten", .nat s.filesWritten),
    ("filesUnchanged", .nat s.filesUnchanged)]

def BuildResults.toJson (r : BuildResults) : Json :=
  .obj [("files", r.files.toJson), ("registry", encode r.registry),
    ("bundles", .arr (r.bundles.map (·.toJson))), ("diagnostics", encode r.diagnostics),
    ("stats", r.stats.toJson)]

end ComponentBundle
