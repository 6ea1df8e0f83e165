import ComponentBundle.Style.Text

/-!
# Variants of a bundle

A bundle is written once for each way its styles can be combined.

* No member declares a mode: one variant without styles.
* Only `$`, or only named modes: one variant for each mode.
* Both: one variant for each named mode; the `$` styles of all members come first and the styles
  of the mode after them, so that those win by their place.
-/

namespace ComponentBundle

/-- The styles of one variant; no mode means that no member declares one. -/
structure Variant where
  mode : Option String
  styles : List ModeStyles
  deriving DecidableEq

/-- The modes that the members of a bundle declare, in order and each once. -/
def bundleModes (components : List Component) : List String :=
  (SortedMap.ofList (components.flatMap fun c => c.styles.keys.map fun mode => (mode, ()))).keys

def hasDefaultMode (modes : List String) : Bool := modes.any (· == defaultMode)

def hasNamedMode (modes : List String) : Bool := modes.any (· != defaultMode)

def stylesOfMode (styles : List ModeStyles) (mode : String) : List ModeStyles :=
  styles.filter (·.mode == mode)

def bundleVariants (modes : List String) (styles : List ModeStyles) : List Variant :=
  if hasDefaultMode modes && hasNamedMode modes then
    (modes.filter (· != defaultMode)).map fun mode =>
      ⟨some mode, stylesOfMode styles defaultMode ++ stylesOfMode styles mode⟩
  else if modes = [] then [⟨none, []⟩]
  else modes.map fun mode => ⟨some mode, stylesOfMode styles mode⟩

/-- Whether a bundle has scoped variants: a member has styles, and a member needs them scoped. -/
def needsScopedVariants (components : List Component) : Bool :=
  components.any Component.hasStyles && components.any (·.encapsulation.needsScoped)

end ComponentBundle
