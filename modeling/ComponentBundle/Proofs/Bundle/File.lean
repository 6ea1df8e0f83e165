import ComponentBundle.Proofs.Bundle.Assembly
import Mathlib.Data.List.Nodup
import Mathlib.Data.List.Pairwise

/-!
# The files of bundles

Each variant of a bundle has a file with plain styles and, if it has a mode and a member needs
scoped styles, one with scoped styles.

* `StyleFile.mem_bundleFiles` : these are the files that a build writes;
* `DistinctTags.unique` : a tag leads to one member of one bundle, if no two members share one.
-/

namespace ComponentBundle

/-- A file of a bundle: the variant that it is of, and the kind of styles that it carries. -/
structure StyleFile where
  bundle : CompiledBundle
  variant : Variant
  isScoped : Bool

namespace StyleFile

section Contents

variable (config : Config) (minifiers : Minifiers) (f : StyleFile)

def id : String :=
  let plain := variantId config minifiers (f.bundle.bundle.firstTag?.getD "") f.bundle.bundle
    f.variant
  if f.isScoped then scopedId plain else plain

def artifact : Artifact :=
  ⟨bundleFileName (f.id config minifiers),
    fillBundleId (variantContent config (moduleTextFor config minifiers
      f.bundle.bundle.moduleText).1 f.variant f.isScoped) (f.id config minifiers)⟩

end Contents

/-- Whether compiled bundles have such a file. -/
structure IsOf (compiled : List CompiledBundle) (f : StyleFile) : Prop where
  bundle : f.bundle ∈ compiled
  members : f.bundle.bundle.components ≠ []
  variant : f.variant ∈ bundleVariants (bundleModes f.bundle.bundle.components) f.bundle.styles
  needs : f.isScoped = true →
    (needsScopedVariants f.bundle.bundle.components && f.variant.mode.isSome) = true

theorem mem_bundleFiles {config : Config} {minifiers : Minifiers} {b : CompiledBundle}
    {a : Artifact} : a ∈ bundleFiles config minifiers b ↔
      ∃ f : StyleFile, f.IsOf [b] ∧ a = f.artifact config minifiers := by
  cases htag : b.bundle.firstTag? with
  | none =>
    have hnone : b.bundle.components = [] := by
      simpa [ManifestBundle.firstTag?] using htag
    refine iff_of_false ?_ ?_
    · unfold bundleFiles
      rw [assembleBundle_fst, htag]
      simp
    · rintro ⟨f, hf, -⟩
      have hbundle := List.mem_singleton.1 hf.bundle
      exact hf.members (hbundle ▸ hnone)
  | some tag =>
    have hmembers : b.bundle.components ≠ [] := by
      intro h
      simp [ManifestBundle.firstTag?, h] at htag
    rw [mem_bundleFiles_iff htag]
    constructor
    · rintro ⟨_, hv, ha⟩
      obtain ⟨v, hvariant, rfl⟩ := List.mem_map.1 hv
      rcases List.mem_cons.1 ha with rfl | ha
      · refine ⟨⟨b, v, false⟩, ⟨List.mem_singleton_self b, hmembers, hvariant, by simp⟩, ?_⟩
        simp only [artifact, id, htag]
        rfl
      · unfold assembleVariant at ha
        simp only [Option.mem_toList] at ha
        split at ha
        · rename_i hneeds
          obtain rfl := Option.some.inj ha
          refine ⟨⟨b, v, true⟩,
            ⟨List.mem_singleton_self b, hmembers, hvariant, fun _ => hneeds⟩, ?_⟩
          simp only [artifact, id, htag]
          rfl
        · cases ha
    · rintro ⟨⟨_, v, isScoped⟩, hf, rfl⟩
      obtain rfl := List.mem_singleton.1 hf.bundle
      refine ⟨_, List.mem_map.2 ⟨v, hf.variant, rfl⟩, ?_⟩
      cases isScoped with
      | false =>
        refine List.mem_cons.2 (.inl ?_)
        simp only [artifact, id, htag]
        rfl
      | true =>
        have hneeds := hf.needs rfl
        dsimp only at hneeds
        refine List.mem_cons.2 (.inr ?_)
        unfold assembleVariant
        simp only [hneeds, if_true, Option.toList_some, artifact, id, htag]
        exact List.mem_singleton.2 rfl

theorem artifact_mem (config : Config) (minifiers : Minifiers) {compiled : List CompiledBundle}
    {f : StyleFile} (hf : f.IsOf compiled) :
    f.artifact config minifiers ∈ bundleFiles config minifiers f.bundle :=
  mem_bundleFiles.2 ⟨f, ⟨List.mem_singleton_self _, hf.members, hf.variant, hf.needs⟩, rfl⟩

end StyleFile

/-! ## Members -/

/-- No two members have the same tag, in whatever bundles they are. -/
def DistinctTags (bundles : List ManifestBundle) : Prop :=
  ((bundles.flatMap (·.components)).map (·.tag)).Nodup

instance (bundles : List ManifestBundle) : Decidable (DistinctTags bundles) :=
  inferInstanceAs (Decidable (List.Nodup _))

theorem DistinctTags.unique {compiled : List CompiledBundle}
    (h : DistinctTags (compiled.map (·.bundle))) {b d : CompiledBundle}
    (hb : b ∈ compiled) (hd : d ∈ compiled) {m n : Component} (hm : m ∈ b.bundle.components)
    (hn : n ∈ d.bundle.components) (htag : m.tag = n.tag) : b = d ∧ m = n := by
  unfold DistinctTags at h
  have hmember : ∀ {e : CompiledBundle} {k : Component}, e ∈ compiled → k ∈ e.bundle.components →
      k ∈ (compiled.map (·.bundle)).flatMap (·.components) := by
    intro e k he hk
    exact List.mem_flatMap.2 ⟨e.bundle, List.mem_map_of_mem he, hk⟩
  refine ⟨?_, List.inj_on_of_nodup_map h (hmember hb hm) (hmember hd hn) htag⟩
  by_contra hne
  rw [List.map_flatMap, List.flatMap_map, List.nodup_flatMap] at h
  have hsymm : Std.Symm (Function.onFun List.Disjoint
      fun b : CompiledBundle => b.bundle.components.map (·.tag)) :=
    ⟨fun _ _ hxy _ hx hy => hxy hy hx⟩
  exact h.2.forall hb hd hne (List.mem_map_of_mem hm) (htag ▸ List.mem_map_of_mem hn)

end ComponentBundle
