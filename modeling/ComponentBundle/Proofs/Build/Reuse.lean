import ComponentBundle.Proofs.Build.Incremental

/-!
# Remembered styles do not show

While the files stay as they are, bundles may be regrouped and components may change their tags,
encapsulations, modes, paths and modules from build to build. A change build then gives what a full
build gives in a new context (`reuse_is_transparent`).

What a context remembers of a file depends on nothing but the file: a slot of the cache is empty or
holds the text that its file yields (`StyleCache.Current`). One build keeps that, so any number of
builds do (`current_contextOver`), and a cache of which it holds neither serves a wrong text nor
hides a failure.
-/

namespace ComponentBundle

/-! ## Builds that agree -/

/-- The files that a build assembles, written or not. -/
def assembledFiles (config : Config) (world : StyleWorld) (ctx : BuildContext)
    (bundles : List ManifestBundle) : List Artifact :=
  (assembleBundles config world.minifiers
    (compileBundles config world ctx.change ctx.styleCache bundles).1).1.flatMap
      AssembledBundle.artifacts

/-- Whether builds in two contexts give the same, apart from which files they write. -/
structure BuildsAlike (config : Config) (world : StyleWorld) (ctx ctx' : BuildContext)
    (bundles : List ManifestBundle) : Prop where
  styles : (compileBundles config world ctx.change ctx.styleCache bundles).1 =
    (compileBundles config world ctx'.change ctx'.styleCache bundles).1
  ids : (generateBundles config world ctx bundles).results.bundleIds =
    (generateBundles config world ctx' bundles).results.bundleIds
  files : assembledFiles config world ctx bundles = assembledFiles config world ctx' bundles
  registry : (generateBundles config world ctx bundles).results.registry =
    (generateBundles config world ctx' bundles).results.registry
  diagnostics : (generateBundles config world ctx bundles).results.diagnostics.Perm
    (generateBundles config world ctx' bundles).results.diagnostics

section Alike

variable {config : Config} {world : StyleWorld} {bundles : List ManifestBundle}

theorem bundleIds_generateBundles (config : Config) (world : StyleWorld) (ctx : BuildContext)
    (bundles : List ManifestBundle) :
    (generateBundles config world ctx bundles).results.bundleIds =
      (assembleBundles config world.minifiers (compileBundles config world ctx.change
        ctx.styleCache bundles).1).1.map fun b => b.variants.map (·.bundleId) := by
  let assembled := (assembleBundles config world.minifiers
    (compileBundles config world ctx.change ctx.styleCache bundles).1).1
  have hannounced := emitBundles_announced config { cache := ctx.emitCache } assembled
  have hids := congrArg (List.map fun b => b.2.map fun v => v.2.1) hannounced
  rw [List.map_map, List.map_map] at hids
  calc (generateBundles config world ctx bundles).results.bundleIds
      = (emitBundles config { cache := ctx.emitCache } assembled).1.map
          ((fun b => b.2.map fun v => v.2.1) ∘ EmittedBundle.announced) := by
        refine List.map_congr_left fun b _ => ?_
        rw [Function.comp, EmittedBundle.announced, List.map_map]
        rfl
    _ = assembled.map ((fun b => b.2.map fun v => v.2.1) ∘ AssembledBundle.announced) := hids
    _ = assembled.map fun b => b.variants.map (·.bundleId) := by
        refine List.map_congr_left fun b _ => ?_
        rw [Function.comp, AssembledBundle.announced, List.map_map]
        rfl

theorem buildsAlike_of_compiled {ctx ctx' : BuildContext}
    (hstyles : (compileBundles config world ctx.change ctx.styleCache bundles).1 =
      (compileBundles config world ctx'.change ctx'.styleCache bundles).1)
    (hdiagnostics : (compileBundles config world ctx.change ctx.styleCache
        bundles).2.1.diagnostics =
      (compileBundles config world ctx'.change ctx'.styleCache bundles).2.1.diagnostics) :
    BuildsAlike config world ctx ctx' bundles where
  styles := hstyles
  ids := by rw [bundleIds_generateBundles, bundleIds_generateBundles, hstyles]
  files := by rw [assembledFiles, assembledFiles, hstyles]
  registry := by
    have hregistry : ∀ ctx : BuildContext,
        (generateBundles config world ctx bundles).results.registry =
          .ofComponents ((compileBundles config world ctx.change ctx.styleCache
            bundles).1.flatMap fun b =>
              registeredMembers config world.minifiers b.bundle b.styles) :=
      fun ctx => ofBundles_emitBundles config world.minifiers _ _
    rw [hregistry, hregistry, hstyles]
  diagnostics := by
    rw [diagnostics_generateBundles, diagnostics_generateBundles, hdiagnostics]

end Alike

/-! ## What is remembered -/

/-- Whether every text that a cache remembers of a listed file is the one that the file yields. -/
def StyleCache.Current (cache : StyleCache) (world : StyleWorld) (minify : Bool)
    (listed : List ManifestBundle) : Prop :=
  ∀ kind p cached, Listed listed kind p → cache.slot? kind p = some cached →
    ∃ text, world.outcome minify kind p = .ok text ∧ cached = remembered text

section Current

variable {env : StyleEnv} {bundles listed : List ManifestBundle} {c : Component}
  {kind : StyleKind} {p : FilePath}

theorem current_empty (world : StyleWorld) (minify : Bool) :
    (∅ : StyleCache).Current world minify listed := by
  intro kind p cached _ hslot
  rw [StyleCache.slot?_empty] at hslot
  cases hslot

theorem StyleCache.Current.after (hworld : env.world.Pathwise env.config.minifyStyles listed)
    (h : env.cache.Current env.world env.config.minifyStyles listed) (hsub : bundles ⊆ listed) :
    (cacheAfter env bundles).Current env.world env.config.minifyStyles listed := by
  intro kind p cached hp hslot
  rcases slot?_compileBundles hworld hp hsub with ⟨text, hout, hfilled⟩ | hkept
  · exact ⟨text, hout, Option.some.inj (hslot.symm.trans hfilled)⟩
  · exact h kind p cached hp (hkept.symm.trans hslot)

theorem StyleCache.Current.faithful
    (h : env.cache.Current env.world env.config.minifyStyles listed) (hp : Listed listed kind p) :
    env.Faithful c kind p := by
  intro text cached hout hreuse
  obtain ⟨text', hout', rfl⟩ := h kind p cached hp (StyleEnv.slot?_of_reusable hreuse)
  obtain rfl : text = text' := Except.ok.inj (hout.symm.trans hout')
  rfl

theorem StyleCache.Current.not_hides
    (h : env.cache.Current env.world env.config.minifyStyles listed) (hp : Listed listed kind p) :
    ¬ env.Hides c kind p := by
  rintro ⟨⟨d, herror⟩, cached, hreuse⟩
  obtain ⟨text, hout, -⟩ := h kind p cached hp (StyleEnv.slot?_of_reusable hreuse)
  have hboth : (Except.error d : Except Diagnostic String) = .ok text := herror.symm.trans hout
  cases hboth

end Current

/-! ## Builds over the same files -/

/-- A build of some bundles over files that stay as they are, and what it is told of changes if it
is a change build. What it is told need not be true. -/
structure SteadyBuild where
  bundles : List ManifestBundle
  changed : Option (List FilePath) := none

def SteadyBuild.run (config : Config) (world : StyleWorld) (ctx : BuildContext)
    (b : SteadyBuild) : BuildOutcome :=
  BuildRound.run config b.bundles ctx ⟨world, b.changed⟩

/-- The context that builds one after another leave, from a new one on. -/
def contextOver (config : Config) (world : StyleWorld) (builds : List SteadyBuild) :
    BuildContext :=
  builds.foldl (fun ctx b => (b.run config world ctx).context) ∅

section Builds

variable {config : Config} {world : StyleWorld} {listed : List ManifestBundle}

theorem current_run (hworld : world.Pathwise config.minifyStyles listed) {ctx : BuildContext}
    (h : ctx.styleCache.Current world config.minifyStyles listed) {b : SteadyBuild}
    (hsub : b.bundles ⊆ listed) :
    (b.run config world ctx).context.styleCache.Current world config.minifyStyles listed := by
  let round : BuildRound := ⟨world, b.changed⟩
  have hcache : (round.enter ctx).styleCache.Current world config.minifyStyles listed := by
    rw [BuildRound.enter_styleCache]
    exact h
  let env := (round.enter ctx).styleEnv config world
  have henv : env.cache.Current env.world env.config.minifyStyles listed := hcache
  exact henv.after hworld hsub

theorem current_contextOver (hworld : world.Pathwise config.minifyStyles listed)
    {builds : List SteadyBuild} (hsub : ∀ b ∈ builds, b.bundles ⊆ listed) :
    (contextOver config world builds).styleCache.Current world config.minifyStyles listed := by
  unfold contextOver
  suffices h : ∀ ctx : BuildContext, ctx.styleCache.Current world config.minifyStyles listed →
      (builds.foldl (fun ctx b => (b.run config world ctx).context) ctx).styleCache.Current world
        config.minifyStyles listed from h ∅ (current_empty world config.minifyStyles)
  induction builds with
  | nil => exact fun ctx h => h
  | cons b builds ih =>
    intro ctx h
    exact ih (fun b hb => hsub b (List.mem_cons_of_mem _ hb)) _
      (current_run hworld h (hsub b List.mem_cons_self))

end Builds

/-- The bundles of all builds. -/
def allBundles (earlier : List SteadyBuild) (bundles : List ManifestBundle) :
    List ManifestBundle :=
  earlier.flatMap (·.bundles) ++ bundles

/-- **Remembered styles do not show.** While the files stay as they are, a change build after any
builds, of whatever bundles, gives what a full build gives in a new context. -/
theorem reuse_is_transparent {config : Config} {world : StyleWorld} {earlier : List SteadyBuild}
    {bundles : List ManifestBundle}
    (hworld : world.Pathwise config.minifyStyles (allBundles earlier bundles))
    (changed : List FilePath) :
    BuildsAlike config world ((contextOver config world earlier).setChangedFiles changed) ∅
      bundles := by
  let ctx := (contextOver config world earlier).setChangedFiles changed
  let env := ctx.styleEnv config world
  have hsub : bundles ⊆ allBundles earlier bundles := List.subset_append_right _ _
  have hearlier : ∀ b ∈ earlier, b.bundles ⊆ allBundles earlier bundles := fun b hb _ hd =>
    List.mem_append_left _ (List.mem_flatMap.2 ⟨b, hb, hd⟩)
  have hcurrent : env.cache.Current env.world env.config.minifyStyles
      (allBundles earlier bundles) := current_contextOver hworld hearlier
  have hfull : ((∅ : BuildContext).styleEnv config world).IsFullOf env := ⟨rfl, rfl, rfl⟩
  have hfaithful : ∀ c kind p, HasSource bundles c kind p → env.Faithful c kind p :=
    fun c _ _ hsource => hcurrent.faithful (Listed.mono hsub ⟨c, hsource⟩)
  have hnothides : ∀ c kind p, HasSource bundles c kind p → ¬ env.Hides c kind p :=
    fun c _ _ hsource => hcurrent.not_hides (Listed.mono hsub ⟨c, hsource⟩)
  obtain ⟨hstyles, hdiagnostics⟩ := compileBundles_full hfull hworld hsub hfaithful hnothides
  exact buildsAlike_of_compiled hstyles hdiagnostics

/-- The sheet of the sample card, read by a component of another tag whose styles are scoped. -/
def scopedReader : ManifestBundle where
  components := [{ tag := "x-page", encapsulation := .scopedCss,
                   styles := .ofList [("ios", { paths := [⟨"a.css"⟩, ⟨"b.css"⟩] })] }]
  moduleText := ""

/-- The text that the card left is scoped for its new reader as if it had been read anew. -/
theorem rescoped_sheet_is_transparent :
    sheetWorld.Pathwise false (allBundles [⟨[sampleSheet], none⟩] [scopedReader]) ∧
      BuildsAlike {} sheetWorld
        ((contextOver {} sheetWorld [⟨[sampleSheet], none⟩]).setChangedFiles [⟨"x.txt"⟩])
        ∅ [scopedReader] := by
  have hworld : sheetWorld.Pathwise ({} : Config).minifyStyles
      (allBundles [⟨[sampleSheet], none⟩] [scopedReader]) :=
    sheetWorld_pathwise (by decide +kernel)
  exact ⟨hworld, reuse_is_transparent hworld _⟩

end ComponentBundle
