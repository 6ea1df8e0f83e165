import ComponentBundle.Identity
import ComponentBundle.Registry

/-!
# Which bundle a component needs

The id of the bundle to request follows from the component, the mode of its element, and whether
the host has native shadow trees.
-/

namespace ComponentBundle

/-- Why no bundle can be requested for an element. -/
inductive LoaderError where
  | unknownComponent (tag : String)
  | missingBundleIds (tag : String)
  /-- Neither the mode nor a fallback has a bundle. -/
  | unresolvedMode (tag mode : String)
  deriving DecidableEq

def LoaderError.message : LoaderError → String
  | unknownComponent tag => "no component is registered for tag \"" ++ tag ++ "\""
  | missingBundleIds tag => "component \"" ++ tag ++ "\" has no bundle ids"
  | unresolvedMode tag mode =>
    "component \"" ++ tag ++ "\" has no bundle for mode \"" ++ mode ++ "\" and no default"

/-- Whether a component is drawn in a native shadow tree. -/
def usesShadowDom (nativeShadow : Bool) (c : Component) : Bool :=
  nativeShadow && c.encapsulation == .shadowDom

/-- Whether a component needs styles that are scoped by attributes. -/
def usesScopedCss (nativeShadow : Bool) (c : Component) : Bool :=
  match c.encapsulation with
  | .none => false
  | .scopedCss => true
  | .shadowDom => !nativeShadow

/-- The first of the mode, the default mode and `$` that has an id. -/
def idForMode? (ids : SortedMap String String) (mode fallback : Option String) : Option String :=
  (mode.toList ++ fallback.toList ++ [defaultMode]).findSome? ids.get?

/-- The id of the bundle to request for a component in a mode. A bundle with one id for all modes
has no styles, so its id is taken as it is. -/
def resolveBundleId (nativeShadow : Bool) (c : Component) (mode fallback : Option String) :
    Except LoaderError String :=
  match c.bundleIds with
  | none => .error (.missingBundleIds c.tag)
  | some (.single id) => .ok id
  | some (.perMode ids) =>
    match idForMode? ids mode fallback with
    | none => .error (.unresolvedMode c.tag ((mode.or fallback).getD defaultMode))
    | some id => .ok (if usesScopedCss nativeShadow c then scopedId id else id)

end ComponentBundle
