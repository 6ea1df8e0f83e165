import ComponentBundle.Proofs.Build.Reuse

/-!
# Full builds

A full build takes nothing from the style cache. So it compiles every bundle as if that were the
only one, whatever was compiled before, and what it compiles, reports and remembers is put together
bundle by bundle.

* `compileMembers_anew` : the members of a bundle compile the same with every cache;
* `compileBundles_anew`, `log_compileBundles_anew`, `cache_compileBundles_anew` : the styles, the
  log and the cache of a full build;
* `assembledFiles_of_full`, `announced_of_full`, `registry_of_full`, `diagnostics_of_full`,
  `preprocessCount_of_full` : its results, which are the same in all contexts.
-/

namespace ComponentBundle

/-- Surroundings in which every text is compiled anew. -/
def StyleEnv.anew (config : Config) (world : StyleWorld) : StyleEnv := ⟨config, ∅, none, world⟩

/-- A bundle with the styles that a full build gives it, whatever else is built. -/
def ManifestBundle.compiledAlone (b : ManifestBundle) (config : Config) (world : StyleWorld) :
    CompiledBundle :=
  ⟨b, (compileMembers (.anew config world) b.components).1⟩

/-- What a full build logs of a bundle, whatever else is built. -/
def ManifestBundle.logAlone (b : ManifestBundle) (config : Config) (world : StyleWorld) :
    CompileLog :=
  (compileMembers (.anew config world) b.components).2

section Full

variable (config : Config) (world : StyleWorld) (cache : StyleCache)

theorem run_anew (c : Component) (task : StyleTask) :
    task.run ⟨config, cache, none, world⟩ c = task.run (.anew config world) c := by
  cases task <;> rfl

theorem compileMembers_anew (components : List Component) :
    compileMembers ⟨config, cache, none, world⟩ components =
      compileMembers (.anew config world) components := by
  have hcomponent : ∀ c, compileComponent ⟨config, cache, none, world⟩ c =
      compileComponent (.anew config world) c := by
    intro c
    unfold compileComponent compileMode
    rw [funext (run_anew config world cache c)]
    rfl
  unfold compileMembers
  rw [funext hcomponent]

theorem compileBundles_anew (bundles : List ManifestBundle) :
    (compileBundles config world none cache bundles).1 =
      bundles.map fun b => b.compiledAlone config world := by
  induction bundles generalizing cache with
  | nil => rfl
  | cons b bundles ih =>
    rw [compileBundles, compileMembers_anew, List.map_cons]
    exact congrArg (_ :: ·) (ih _)

theorem log_compileBundles_anew (bundles : List ManifestBundle) :
    (compileBundles config world none cache bundles).2.1 =
      .concat (bundles.map fun b => b.logAlone config world) := by
  induction bundles generalizing cache with
  | nil => rfl
  | cons b bundles ih =>
    rw [compileBundles, compileMembers_anew]
    exact congrArg (b.logAlone config world ++ ·) (ih _)

theorem cache_compileBundles_anew (bundles : List ManifestBundle) :
    (compileBundles config world none cache bundles).2.2 =
      cache.apply (bundles.flatMap fun b => (b.logAlone config world).updates) := by
  induction bundles generalizing cache with
  | nil => rfl
  | cons b bundles ih =>
    rw [compileBundles, compileMembers_anew, List.flatMap_cons, StyleCache.apply_append, ← ih]
    rfl

end Full

/-! ## Results -/

/-- What is announced of a bundle; nothing of one without members. -/
def ManifestBundle.announcedAlone (b : ManifestBundle) (config : Config) (world : StyleWorld) :
    List (List Component × List (Option String × String × Bool)) :=
  ((assembleBundle config world.minifiers b (b.compiledAlone config world).styles).1.map
    AssembledBundle.announced).toList

section Results

variable {config : Config} {world : StyleWorld} {ctx : BuildContext}

theorem assembledFiles_of_full (hfull : ctx.change = none) (bundles : List ManifestBundle) :
    assembledFiles config world ctx bundles =
      bundles.flatMap fun b =>
        bundleFiles config world.minifiers (b.compiledAlone config world) := by
  rw [assembledFiles, hfull, compileBundles_anew, artifacts_assembleBundles, List.flatMap_map]

theorem announced_of_full (hfull : ctx.change = none) (bundles : List ManifestBundle) :
    (generateBundles config world ctx bundles).results.bundles.map EmittedBundle.announced =
      bundles.flatMap fun b => b.announcedAlone config world := by
  refine (emitBundles_announced config { cache := ctx.emitCache } (assembleBundles config
    world.minifiers (compileBundles config world ctx.change ctx.styleCache bundles).1).1).trans ?_
  rw [hfull, compileBundles_anew, assembleBundles_fst, List.map_filterMap, List.filterMap_map,
    List.filterMap_eq_flatMap_toList]
  rfl

theorem registry_of_full (hfull : ctx.change = none) (bundles : List ManifestBundle) :
    (generateBundles config world ctx bundles).results.registry =
      .ofComponents (bundles.flatMap fun b =>
        registeredMembers config world.minifiers b (b.compiledAlone config world).styles) := by
  refine (ofBundles_emitBundles config world.minifiers _ { cache := ctx.emitCache }).trans ?_
  rw [hfull, compileBundles_anew, List.flatMap_map]
  rfl

theorem diagnostics_of_full (hfull : ctx.change = none) (bundles : List ManifestBundle) :
    (generateBundles config world ctx bundles).results.diagnostics =
      (bundles.flatMap fun b => (b.logAlone config world).diagnostics) ++
        bundles.flatMap fun b => (assembleBundle config world.minifiers b []).2 := by
  rw [diagnostics_generateBundles, hfull, log_compileBundles_anew]
  exact congrArg (· ++ _) (List.flatMap_map ..)

theorem preprocessCount_of_full (hfull : ctx.change = none) (bundles : List ManifestBundle) :
    (generateBundles config world ctx bundles).results.stats.preprocessCount =
      (bundles.flatMap fun b => (b.logAlone config world).updates).countP
        (·.kind == .preprocessed) := by
  show (compileBundles config world ctx.change ctx.styleCache bundles).2.2.preprocessCount -
    ctx.styleCache.preprocessCount = _
  rw [hfull, cache_compileBundles_anew, StyleCache.preprocessCount_apply, Nat.add_sub_cancel_left]

end Results

end ComponentBundle
