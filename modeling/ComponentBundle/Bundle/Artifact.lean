import ComponentBundle.Bundle.Payload
import ComponentBundle.Style.Compile

/-!
# Bundle files

A file of a bundle is a banner, the statement that hands over its styles, and the text of its
modules. Each variant has one file with plain styles and, where a member needs it, one with scoped
styles. Both are named after the plain text with its placeholder still in place.
-/

namespace ComponentBundle

structure Artifact where
  fileName : String
  content : String
  deriving DecidableEq

structure AssembledVariant where
  mode : Option String
  bundleId : String
  plain : Artifact
  withScoped : Option Artifact
  deriving DecidableEq

/-- The files of a bundle and the components in it. -/
structure AssembledBundle where
  components : List Component
  variants : List AssembledVariant
  deriving DecidableEq

/-- The banner, if the configuration has a text for it. -/
def preambleText (config : Config) : String :=
  match config.preamble with
  | some text =>
    if Text.trim text = "" then "" else "/*! " ++ Text.trim text ++ " */\n"
  | none => ""

/-- The banner, then the parts that are not empty, one on a line. -/
def assembleContent (config : Config) (parts : List String) : String :=
  preambleText config ++ "\n".intercalate (parts.filter (· ≠ ""))

/-- The module text of a bundle, minified if the configuration says so. -/
def moduleTextFor (config : Config) (minifiers : Minifiers) (text : String) :
    String × List Diagnostic :=
  if config.minifyScripts then
    let result := minifiers.minifyScript text
    (result.applyTo text, result.diagnostics)
  else (text, [])

/-- The text of a variant's file before its id is put in. -/
def variantContent (config : Config) (moduleText : String) (v : Variant) (wantsScoped : Bool) :
    String :=
  assembleContent config [loadStylesStatement config.appName v.styles wantsScoped, moduleText]

/-- The files of a variant. A variant without a mode has nothing to scope. -/
def assembleVariant (config : Config) (firstTag moduleText : String) (needsScoped : Bool)
    (v : Variant) : AssembledVariant :=
  let content := variantContent config moduleText v false
  let id := bundleId config firstTag v.mode content
  { mode := v.mode
    bundleId := id
    plain := ⟨bundleFileName id, fillBundleId content id⟩
    withScoped :=
      if needsScoped && v.mode.isSome then
        some ⟨bundleFileName (scopedId id),
          fillBundleId (variantContent config moduleText v true) (scopedId id)⟩
      else none }

/-- The files of a bundle from its compiled styles; a bundle without members has none. -/
def assembleBundle (config : Config) (minifiers : Minifiers) (bundle : ManifestBundle)
    (styles : List ModeStyles) : Option AssembledBundle × List Diagnostic :=
  match bundle.firstTag? with
  | none =>
    (none, [.warning Diagnostic.emptyBundle "bundle has no components and was skipped"])
  | some firstTag =>
    let (moduleText, diagnostics) := moduleTextFor config minifiers bundle.moduleText
    let variants := bundleVariants (bundleModes bundle.components) styles
    (some
      { components := bundle.components
        variants := variants.map (assembleVariant config firstTag moduleText
          (needsScopedVariants bundle.components)) },
      diagnostics)

/-- All files of a variant, in the order in which they are written. -/
def AssembledVariant.artifacts (v : AssembledVariant) : List Artifact :=
  v.plain :: v.withScoped.toList

/-- All files of a bundle, in the order in which they are written. -/
def AssembledBundle.artifacts (b : AssembledBundle) : List Artifact :=
  b.variants.flatMap AssembledVariant.artifacts

end ComponentBundle
