import ComponentBundle.Css.Scope
import ComponentBundle.Identity
import ComponentBundle.Minify

/-!
# Style texts

The texts of single style sources, and those of a component in one mode, which are joined from
its sources in declared order, two line ends apart. Each has a plain text, and a scoped one where
the component needs it.

* the scoped text is there when any source has one;
* only the plain text of a component is minified.
-/

namespace ComponentBundle

/-! ## Single sources -/

/-- The text of one style source; `order` is its place in the declaration. -/
structure SourceStyle where
  order : Nat
  plainText : Option String := none
  scopedText : Option String := none
  deriving DecidableEq

/-- The trimmed text of a source, and its scoped form if the component needs one. -/
def SourceStyle.ofText (c : Component) (order : Nat) (text : String) : SourceStyle :=
  let trimmed := Text.trim text
  { order := order
    plainText := some trimmed
    scopedText :=
      if c.encapsulation.needsScoped then
        some (Css.scopeCss trimmed (scopeSelector c.tag) (hostSelector c.tag))
      else none }

/-! ## Components -/

structure ModeStyles where
  tag : String
  mode : String
  plainText : String
  scopedText : Option String
  deriving DecidableEq

/-- The texts two line ends apart, trimmed; a source without text counts as empty. -/
def joinTexts (texts : List (Option String)) : String :=
  Text.trim ("\n\n".intercalate (texts.map (·.getD "")))

/-- The sources in declared order; sources of the same order keep theirs. -/
def sortSources (sources : List SourceStyle) : List SourceStyle :=
  sources.mergeSort fun a b => a.order ≤ b.order

/-- The styles of a component in one mode, joined from its sources. -/
def ModeStyles.ofSources (tag mode : String) (sources : List SourceStyle) : ModeStyles :=
  let sorted := sortSources sources
  { tag := tag
    mode := mode
    plainText := joinTexts (sorted.map (·.plainText))
    scopedText :=
      if sources.any (·.scopedText.isSome) then some (joinTexts (sorted.map (·.scopedText)))
      else none }

/-- The styles with their plain text minified, and what the minifier met. -/
def ModeStyles.minify (minifiers : Minifiers) (styles : ModeStyles) :
    ModeStyles × List Diagnostic :=
  if styles.plainText = "" then (styles, [])
  else
    let result := minifiers.minifySheet styles.plainText
    ({ styles with plainText := result.applyTo styles.plainText }, result.diagnostics)

/-! ## JSON -/

instance : JsonCodec SourceStyle where
  encode s := .obj [("order", .nat s.order), ("unscopedStyles", encode s.plainText),
    ("scopedStyles", encode s.scopedText)]
  decode j := do
    let slot ← j.record? ["order", "unscopedStyles", "scopedStyles"]
    return {
      order := ← (slot "order").requiredWord
      plainText := ← (slot "unscopedStyles").nullable
      scopedText := ← (slot "scopedStyles").nullable }

instance : JsonCodec ModeStyles where
  encode s := .obj [("tag", encode s.tag), ("mode", encode s.mode),
    ("unscopedStyles", encode s.plainText), ("scopedStyles", encode s.scopedText)]
  decode j := do
    let slot ← j.record? ["tag", "mode", "unscopedStyles", "scopedStyles"]
    return {
      tag := ← (slot "tag").required
      mode := ← (slot "mode").required
      plainText := ← (slot "unscopedStyles").required
      scopedText := ← (slot "scopedStyles").nullable }

end ComponentBundle
