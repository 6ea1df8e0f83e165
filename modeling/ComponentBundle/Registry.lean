import ComponentBundle.Bundle.Emission

/-!
# Component registry

The registry tells the loader, for every tag, the component and the ids of its bundle. It is
ordered by tag, and the last component of a tag is the one it holds.
-/

namespace ComponentBundle

/-- Components by tag. -/
abbrev Registry := SortedMap String Component

/-- The registry of components; the last one of a tag stays. -/
def Registry.ofComponents (components : List Component) : Registry :=
  SortedMap.ofList (components.map fun c => (c.tag, c))

/-- The ids of a bundle: one id if its only variant has no mode, else an id for each mode. -/
def EmittedBundle.bundleIds? (b : EmittedBundle) : Option BundleIds :=
  match b.variants with
  | [] => none
  | [⟨none, id, _, _⟩] => some (.single id)
  | variants => some (.perMode (SortedMap.ofList
      (variants.filterMap fun v => v.mode.map fun mode => (mode, v.bundleId))))

/-- The components of a bundle with their bundle ids filled in. -/
def EmittedBundle.registered (b : EmittedBundle) : List Component :=
  match b.bundleIds? with
  | some ids => b.components.map fun c => { c with bundleIds := some ids }
  | none => []

/-- The registry of all written bundles. -/
def Registry.ofBundles (bundles : List EmittedBundle) : Registry :=
  .ofComponents (bundles.flatMap EmittedBundle.registered)

end ComponentBundle
