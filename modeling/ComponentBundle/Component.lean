import ComponentBundle.Json.Codec

/-!
# Components

What is known of a component before it is bundled: its tag, how its styles are kept apart from the
page, its style sources for every mode. The mode `$` stands for "no mode selected".
-/

namespace ComponentBundle

/-- The mode of styles that belong to no named mode. -/
def defaultMode : String := "$"

/-- How a component's styles are kept apart from the rest of the page. -/
inductive Encapsulation where
  | none
  | scopedCss
  | shadowDom
  deriving DecidableEq

/-- Whether a component needs style texts that are scoped by attributes. A shadow tree needs them
where the host has no native one. -/
def Encapsulation.needsScoped : Encapsulation → Bool
  | none => false
  | scopedCss => true
  | shadowDom => true

/-- The style sources of a component in one mode: files in order, and a text of its own. -/
structure StyleSources where
  paths : List FilePath := []
  inlineText : Option String := none
  deriving DecidableEq

/-- The ids under which the bundle of a component is requested. -/
inductive BundleIds where
  | single (id : String)
  | perMode (ids : SortedMap String String)
  deriving DecidableEq

structure Component where
  tag : String
  encapsulation : Encapsulation := .none
  /-- The style sources of every mode that the component declares. -/
  styles : SortedMap String StyleSources := ∅
  /-- The compiled module of the component. -/
  modulePath : Option FilePath := none
  bundleIds : Option BundleIds := none
  deriving DecidableEq

def Component.hasStyles (c : Component) : Bool := !c.styles.isEmpty

/-- Components that are bundled together, with the text of their modules. -/
structure ManifestBundle where
  components : List Component
  moduleText : String
  deriving DecidableEq

/-- The tag of the first member, which names the bundle when names are not hashed. -/
def ManifestBundle.firstTag? (b : ManifestBundle) : Option String := b.components.head?.map (·.tag)

/-! ## JSON -/

instance : JsonCodec Encapsulation where
  encode
    | .none => .str "none"
    | .scopedCss => .str "scoped-css"
    | .shadowDom => .str "shadow-dom"
  decode j := do
    match ← j.case? with
    | "none" => some .none
    | "scoped-css" => some .scopedCss
    | "shadow-dom" => some .shadowDom
    | _ => Option.none

instance : JsonCodec StyleSources where
  encode s := .obj [("absolutePaths", encode s.paths), ("styleStr", encode s.inlineText)]
  decode j := do
    let slot ← j.record? ["absolutePaths", "styleStr"]
    return {
      paths := ← (slot "absolutePaths").orElse []
      inlineText := ← (slot "styleStr").orElse none }

/-- One id is a string, ids for each mode are an object. -/
instance : JsonCodec BundleIds where
  encode
    | .single id => encode id
    | .perMode ids => encode ids
  decode
    | .str id => some (.single id)
    | j => (decode j).map .perMode

instance : JsonCodec Component where
  encode c := .obj [("tagName", encode c.tag), ("encapsulation", encode c.encapsulation),
    ("styles", encode c.styles), ("modulePath", encode c.modulePath),
    ("bundleIds", encode c.bundleIds)]
  decode j := do
    let slot ← j.record? ["tagName", "encapsulation", "styles", "modulePath", "bundleIds"]
    return {
      tag := ← (slot "tagName").required
      encapsulation := ← (slot "encapsulation").orElse .none
      styles := ← (slot "styles").orElse ∅
      modulePath := ← (slot "modulePath").orElse none
      bundleIds := ← (slot "bundleIds").orElse none }

instance : JsonCodec ManifestBundle where
  encode b := .obj [("components", encode b.components), ("moduleText", encode b.moduleText)]
  decode j := do
    let slot ← j.record? ["components", "moduleText"]
    return {
      components := ← (slot "components").required
      moduleText := ← (slot "moduleText").required }

end ComponentBundle
