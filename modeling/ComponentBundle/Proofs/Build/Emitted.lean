import ComponentBundle.Proofs.Bundle.Assembly
import ComponentBundle.Proofs.Bundle.Partition

/-!
# What is emitted of each bundle

A build emits every bundle that has members, in the order of the manifest, whatever it met while it
compiled their styles and whatever was written before.

* `mem_offeredModes_iff`, `needsScopedVariants_iff` : the modes and the twins of a bundle, read off
  its members;
* `emitted_isOf` : the emitted bundles belong to the bundles with members, one to one and in order.
-/

namespace ComponentBundle

def ManifestBundle.hasMembers (b : ManifestBundle) : Bool := !b.components.isEmpty

/-- Whether a member of a bundle declares a mode. -/
def ManifestBundle.DeclaresMode (b : ManifestBundle) : Prop :=
  ∃ c ∈ b.components, c.styles.keys ≠ []

/-- Whether a bundle has variants for a mode: a member declares it, and `$` stands back behind the
named modes. -/
def ManifestBundle.Offers (b : ManifestBundle) (mode : String) : Prop :=
  (∃ c ∈ b.components, mode ∈ c.styles.keys) ∧
    (mode = defaultMode → ∀ c ∈ b.components, ∀ m ∈ c.styles.keys, m = defaultMode)

/-- Whether an emitted bundle is that of a bundle of the manifest. -/
structure EmittedBundle.IsOf (b : ManifestBundle) (e : EmittedBundle) : Prop where
  components : e.components = b.components
  unstyled : ¬ b.DeclaresMode → ∃ v, e.variants = [v] ∧ v.mode = none
  styled : b.DeclaresMode → ∃ modes : List String, e.variants.map (·.mode) = modes.map some ∧
    modes.Pairwise (· < ·) ∧ ∀ mode, mode ∈ modes ↔ b.Offers mode
  hasScoped : ∀ v ∈ e.variants,
    v.hasScoped = true ↔ b.DeclaresMode ∧ ∃ c ∈ b.components, c.encapsulation ≠ .none

section Bundle

variable {b : ManifestBundle}

theorem declaresMode_iff : b.DeclaresMode ↔ bundleModes b.components ≠ [] := by
  rw [Ne, bundleModes_eq_nil_iff]
  simp [ManifestBundle.DeclaresMode]

theorem mem_offeredModes_iff {mode : String} :
    mode ∈ offeredModes (bundleModes b.components) ↔ b.Offers mode := by
  rw [mem_offeredModes, mem_bundleModes]
  refine and_congr_right fun _ => forall_congr' fun _ => ?_
  rw [← Bool.not_eq_true, hasNamedMode_iff]
  simp only [mem_bundleModes, not_exists, not_and, not_not]
  exact ⟨fun h c hc m hm => h m ⟨c, hc, hm⟩, fun h m ⟨c, hc, hm⟩ => h c hc m hm⟩

theorem exists_offered (h : b.DeclaresMode) : ∃ mode, b.Offers mode := by
  rw [declaresMode_iff] at h
  obtain ⟨mode, hmode⟩ := List.exists_mem_of_ne_nil _ (mt offeredModes_eq_nil_iff.1 h)
  exact ⟨mode, mem_offeredModes_iff.1 hmode⟩

theorem needsScopedVariants_iff :
    needsScopedVariants b.components = true ↔
      b.DeclaresMode ∧ ∃ c ∈ b.components, c.encapsulation ≠ .none := by
  unfold needsScopedVariants ManifestBundle.DeclaresMode
  rw [Bool.and_eq_true, List.any_eq_true, List.any_eq_true]
  have hstyles : ∀ c : Component, c.hasStyles = true ↔ c.styles.keys ≠ [] := by
    intro c
    unfold Component.hasStyles SortedMap.isEmpty SortedMap.keys
    simp
  have hscoped : ∀ c : Component, c.encapsulation.needsScoped = true ↔ c.encapsulation ≠ .none := by
    intro c
    cases c.encapsulation <;> simp [Encapsulation.needsScoped]
  simp only [hstyles, hscoped]

theorem isOf_of_announced {config : Config} {minifiers : Minifiers} {tag : String}
    {styles : List ModeStyles} {e : EmittedBundle} (hcomponents : e.components = b.components)
    (h : e.variants.map EmittedVariant.announced =
      (assembledVariants config minifiers tag b styles).map AssembledVariant.announced) :
    e.IsOf b := by
  -- the announced modes and twins are those of the variants that the bundle's modes give
  have hannounced : e.variants.map (fun v => (v.mode, v.hasScoped)) =
      (bundleVariants (bundleModes b.components) styles).map fun v =>
        (v.mode, needsScopedVariants b.components && v.mode.isSome) := by
    have hpairs := congrArg (List.map fun a : Option String × String × Bool => (a.1, a.2.2)) h
    rw [List.map_map, assembledVariants, List.map_map, List.map_map] at hpairs
    refine hpairs.trans (List.map_congr_left fun v _ => ?_)
    rw [Function.comp, Function.comp, announced_assembleVariant]
  have hmodes : e.variants.map (·.mode) =
      (bundleVariants (bundleModes b.components) styles).map (·.mode) := by
    have hfirst := congrArg (List.map Prod.fst) hannounced
    rwa [List.map_map, List.map_map] at hfirst
  rw [bundleVariants_eq] at hmodes
  refine ⟨hcomponents, fun hnone => ?_, fun hsome => ?_, fun v hv => ?_⟩
  · rw [declaresMode_iff, not_not] at hnone
    rw [if_pos hnone] at hmodes
    obtain ⟨v, hv, hmode⟩ := List.map_eq_singleton_iff.1 hmodes
    exact ⟨v, hv, hmode⟩
  · rw [if_neg (declaresMode_iff.1 hsome), List.map_map] at hmodes
    exact ⟨offeredModes (bundleModes b.components), hmodes,
      pairwise_offeredModes (pairwise_bundleModes b.components), fun mode => mem_offeredModes_iff⟩
  · have hmem : (v.mode, v.hasScoped) ∈ e.variants.map fun v => (v.mode, v.hasScoped) :=
      List.mem_map_of_mem hv
    rw [hannounced] at hmem
    obtain ⟨w, hw, heq⟩ := List.mem_map.1 hmem
    obtain ⟨-, htwin⟩ := Prod.mk.inj heq
    rw [← htwin, Bool.and_eq_true, needsScopedVariants_iff]
    refine and_iff_left_of_imp fun hneeds => ?_
    by_contra hnone
    exact declaresMode_iff.1 hneeds.1 (eq_nil_of_mode_eq_none hw (by simpa using hnone))

end Bundle

theorem forall₂_emitBundles (config : Config) (minifiers : Minifiers) (s : Emission)
    (compiled : List CompiledBundle) :
    List.Forall₂ EmittedBundle.IsOf
      ((compiled.map (·.bundle)).filter ManifestBundle.hasMembers)
      (emitBundles config s (assembleBundles config minifiers compiled).1).1 := by
  rw [assembleBundles_fst]
  induction compiled generalizing s with
  | nil => exact .nil
  | cons b compiled ih =>
    rw [List.map_cons, List.filter_cons, List.filterMap_cons, assembleBundle_fst]
    cases hcomponents : b.bundle.components with
    | nil =>
      have hnone : b.bundle.firstTag? = none := by
        rw [ManifestBundle.firstTag?, hcomponents, List.head?_nil, Option.map_none]
      simp only [ManifestBundle.hasMembers, hcomponents, hnone]
      exact ih s
    | cons c rest =>
      have hsome : b.bundle.firstTag? = some c.tag := by
        rw [ManifestBundle.firstTag?, hcomponents, List.head?_cons, Option.map_some]
      simp only [ManifestBundle.hasMembers, hcomponents, hsome]
      have hvariants := emitVariants_announced config s
        (assembledVariants config minifiers c.tag b.bundle b.styles)
      exact .cons (isOf_of_announced hcomponents.symm hvariants) (ih _)

theorem emitted_isOf (config : Config) (world : StyleWorld) (ctx : BuildContext)
    (bundles : List ManifestBundle) :
    List.Forall₂ EmittedBundle.IsOf
      (bundles.filter ManifestBundle.hasMembers)
      (generateBundles config world ctx bundles).results.bundles := by
  have h := forall₂_emitBundles config world.minifiers { cache := ctx.emitCache }
    (compileBundles config world ctx.change ctx.styleCache bundles).1
  rw [map_bundle_compileBundles] at h
  exact h

end ComponentBundle
