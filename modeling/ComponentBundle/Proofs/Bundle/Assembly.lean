import ComponentBundle.Build
import ComponentBundle.Proofs.Bundle.Emission
import ComponentBundle.Proofs.Bundle.Variant
import ComponentBundle.Proofs.FilePath

/-!
# Ids and files of an assembled bundle

A bundle announces one id if its members declare no mode, and else an id for each mode that it has a
variant for. Each id, and each scoped id where a member needs it, has a file.

* `members_assembled` : the members of an assembled bundle carry its ids;
* `exists_of_mem_bundleFiles` : a file is a text with the id put in that it is named after.
-/

namespace ComponentBundle

/-! ## Ids -/

section Ids

variable (config : Config) (minifiers : Minifiers)

/-- The text of a variant's plain file before its id is put in. -/
def plainContent (b : ManifestBundle) (v : Variant) : String :=
  variantContent config (moduleTextFor config minifiers b.moduleText).1 v false

def variantId (firstTag : String) (b : ManifestBundle) (v : Variant) : String :=
  bundleId config firstTag v.mode (plainContent config minifiers b v)

def modeVariant (b : ManifestBundle) (styles : List ModeStyles) (mode : String) : Variant :=
  ⟨some mode, layeredStyles (bundleModes b.components) styles mode⟩

/-- The ids that a bundle announces. -/
def announcedIds (firstTag : String) (b : ManifestBundle) (styles : List ModeStyles) :
    BundleIds :=
  if bundleModes b.components = [] then
    .single (variantId config minifiers firstTag b ⟨none, []⟩)
  else .perMode (SortedMap.ofList ((offeredModes (bundleModes b.components)).map fun mode =>
    (mode, variantId config minifiers firstTag b (modeVariant b styles mode))))

def assembledVariants (firstTag : String) (b : ManifestBundle) (styles : List ModeStyles) :
    List AssembledVariant :=
  (bundleVariants (bundleModes b.components) styles).map
    (assembleVariant config firstTag (moduleTextFor config minifiers b.moduleText).1
      (needsScopedVariants b.components))

theorem assembleBundle_fst (b : ManifestBundle) (styles : List ModeStyles) :
    (assembleBundle config minifiers b styles).1 = b.firstTag?.map fun tag =>
      ⟨b.components, assembledVariants config minifiers tag b styles⟩ := by
  unfold assembleBundle
  cases b.firstTag? <;> rfl

theorem announced_assembleVariant (firstTag : String) (b : ManifestBundle) (v : Variant) :
    (assembleVariant config firstTag (moduleTextFor config minifiers b.moduleText).1
        (needsScopedVariants b.components) v).announced =
      (v.mode, variantId config minifiers firstTag b v,
        needsScopedVariants b.components && v.mode.isSome) := by
  unfold assembleVariant AssembledVariant.announced variantId plainContent
  cases hs : needsScopedVariants b.components && v.mode.isSome <;> rfl

theorem idsOfVariants_some {α : Type} (mode : α → String) (id : α → String) (twin : α → Bool)
    {l : List α} (h : l ≠ []) :
    idsOfVariants (l.map fun a => (some (mode a), id a, twin a)) =
      some (.perMode (SortedMap.ofList (l.map fun a => (mode a, id a)))) := by
  have hfilter : (l.map fun a => (some (mode a), id a, twin a)).filterMap
      (fun v => v.1.map fun m => (m, v.2.1)) = l.map fun a => (mode a, id a) := by
    rw [List.filterMap_map]
    exact congrFun (List.filterMap_eq_map (f := fun a => (mode a, id a))) l
  rw [← hfilter]
  match l, h with
  | [a], _ => rfl
  | a :: b :: rest, _ => exact idsOfVariants_cons_cons _ _ _

theorem idsOfVariants_assembled (firstTag : String) (b : ManifestBundle)
    (styles : List ModeStyles) :
    idsOfVariants ((assembledVariants config minifiers firstTag b styles).map
      AssembledVariant.announced) = some (announcedIds config minifiers firstTag b styles) := by
  unfold assembledVariants announcedIds
  rw [List.map_map, bundleVariants_eq]
  split
  · simp only [List.map_cons, List.map_nil, Function.comp, announced_assembleVariant]
    rfl
  · rename_i hmodes
    have hne : offeredModes (bundleModes b.components) ≠ [] :=
      fun h => hmodes (offeredModes_eq_nil_iff.1 h)
    rw [List.map_map, ← idsOfVariants_some (fun mode => mode) _
      (fun _ => needsScopedVariants b.components) hne]
    congr 1
    refine List.map_congr_left fun mode _ => ?_
    rw [Function.comp, Function.comp, announced_assembleVariant, Option.isSome_some, Bool.and_true]
    rfl

/-- The members of a bundle as the registry holds them. -/
def registeredMembers (b : ManifestBundle) (styles : List ModeStyles) : List Component :=
  match b.firstTag? with
  | none => []
  | some tag => b.components.map fun c =>
    { c with bundleIds := some (announcedIds config minifiers tag b styles) }

theorem members_assembled (b : ManifestBundle) (styles : List ModeStyles) :
    (((assembleBundle config minifiers b styles).1.map AssembledBundle.announced).toList.flatMap
      membersOfAnnounced) = registeredMembers config minifiers b styles := by
  rw [assembleBundle_fst]
  unfold registeredMembers
  cases b.firstTag? with
  | none => rfl
  | some tag =>
    simp only [Option.map_some, Option.toList_some, List.flatMap_cons, List.flatMap_nil,
      List.append_nil, membersOfAnnounced, AssembledBundle.announced, idsOfVariants_assembled]

theorem tags_registeredMembers (b : ManifestBundle) (styles : List ModeStyles) :
    (registeredMembers config minifiers b styles).map (·.tag) = b.components.map (·.tag) := by
  unfold registeredMembers ManifestBundle.firstTag?
  cases h : b.components with
  | nil => rfl
  | cons c rest => simp

end Ids

/-! ## Files -/

section Files

variable (config : Config) (minifiers : Minifiers)

/-- Whether a text is what a file of a bundle is made from: the content of the file before its id
is put in. -/
def IsAssembledText (b : CompiledBundle) (text : String) : Prop :=
  b.bundle.components ≠ [] ∧
    ∃ v ∈ bundleVariants (bundleModes b.bundle.components) b.styles, ∃ wantsScoped : Bool,
      (wantsScoped = true → needsScopedVariants b.bundle.components && v.mode.isSome) ∧
      text = variantContent config (moduleTextFor config minifiers b.bundle.moduleText).1 v
        wantsScoped

/-- The files of a bundle; a bundle without members has none. -/
def bundleFiles (b : CompiledBundle) : List Artifact :=
  (assembleBundle config minifiers b.bundle b.styles).1.toList.flatMap AssembledBundle.artifacts

end Files

/-- The tags and modes of a bundle hold no separator of paths. -/
def ManifestBundle.NoSeparator (b : ManifestBundle) : Prop :=
  ∀ c ∈ b.components, '/' ∉ c.tag.toList ∧ ∀ mode ∈ c.styles.keys, '/' ∉ mode.toList

theorem notMem_bundleId {config : Config} {firstTag : String} {mode : Option String}
    {content : String} (htag : '/' ∉ firstTag.toList)
    (hmode : ∀ m, mode = some m → '/' ∉ m.toList) :
    '/' ∉ (bundleId config firstTag mode content).toList := by
  unfold bundleId
  split
  · intro h
    rw [contentHash, String.toList_ofList] at h
    have hdigit := Digest.isHexDigit_of_mem_hexDigest (List.mem_of_mem_take h)
    simp [Digest.isHexDigit] at hdigit
  · split
    · rename_i m
      split
      · exact htag
      · have hm := hmode m rfl
        simp [htag, hm]
    · exact htag

theorem isName_bundleFileName {id : String} (h : '/' ∉ id.toList) :
    FilePath.IsName (bundleFileName id) := by
  apply FilePath.isName_of_length
  · simp [bundleFileName, h]
  · simp [bundleFileName]

section Members

variable {config : Config} {minifiers : Minifiers} {b : CompiledBundle}

theorem exists_of_mem_bundleFiles
    (hsep : b.bundle.NoSeparator) {a : Artifact} (ha : a ∈ bundleFiles config minifiers b) :
    ∃ id text, '/' ∉ id.toList ∧ IsAssembledText config minifiers b text ∧
      a = ⟨bundleFileName id, fillBundleId text id⟩ := by
  unfold bundleFiles at ha
  rw [assembleBundle_fst] at ha
  cases htag : b.bundle.firstTag? with
  | none => simp [htag] at ha
  | some tag =>
    simp only [htag, Option.map_some, Option.toList_some, List.flatMap_cons, List.flatMap_nil,
      List.append_nil, AssembledBundle.artifacts, assembledVariants, List.mem_flatMap,
      List.mem_map] at ha
    obtain ⟨_, ⟨v, hv, rfl⟩, ha⟩ := ha
    have hcomponents : b.bundle.components ≠ [] := by
      intro h
      simp [ManifestBundle.firstTag?, h] at htag
    -- the id is made of a tag, a mode and digits
    have hid : '/' ∉ (variantId config minifiers tag b.bundle v).toList := by
      apply notMem_bundleId
      · unfold ManifestBundle.firstTag? at htag
        obtain ⟨c, hc, rfl⟩ := Option.map_eq_some_iff.1 htag
        exact (hsep c (List.mem_of_head? hc)).1
      · intro m hm
        rw [bundleVariants_eq] at hv
        split at hv
        · obtain rfl := List.mem_singleton.1 hv
          simp at hm
        · obtain ⟨mode, hmode, rfl⟩ := List.mem_map.1 hv
          obtain rfl : mode = m := Option.some.inj hm
          obtain ⟨c, hc, hkey⟩ := mem_bundleModes.1 (mem_offeredModes.1 hmode).1
          exact (hsep c hc).2 mode hkey
    unfold AssembledVariant.artifacts assembleVariant at ha
    rcases List.mem_cons.1 ha with rfl | ha
    · exact ⟨_, _, hid, ⟨hcomponents, v, hv, false, by simp, rfl⟩, rfl⟩
    · simp only [Option.mem_toList] at ha
      split at ha
      · rename_i hneeds
        obtain rfl := Option.some.inj ha
        refine ⟨_, _, ?_, ⟨hcomponents, v, hv, true, fun _ => hneeds, rfl⟩, rfl⟩
        have hid' : '/' ∉ (scopedId (variantId config minifiers tag b.bundle v)).toList := by
          simp [scopedId, hid]
        exact hid'
      · simp at ha

theorem mem_bundleFiles_iff {tag : String} (htag : b.bundle.firstTag? = some tag) {a : Artifact} :
    a ∈ bundleFiles config minifiers b ↔
      ∃ v ∈ assembledVariants config minifiers tag b.bundle b.styles, a ∈ v.artifacts := by
  unfold bundleFiles
  rw [assembleBundle_fst, htag]
  simp [AssembledBundle.artifacts]

theorem plain_mem_bundleFiles {tag : String} (htag : b.bundle.firstTag? = some tag) {v : Variant}
    (hv : v ∈ bundleVariants (bundleModes b.bundle.components) b.styles) :
    ∃ content, ⟨bundleFileName (variantId config minifiers tag b.bundle v), content⟩ ∈
      bundleFiles config minifiers b :=
  ⟨_, (mem_bundleFiles_iff htag).2 ⟨_, List.mem_map.2 ⟨v, hv, rfl⟩, List.mem_cons_self⟩⟩

theorem scoped_mem_bundleFiles {tag : String} (htag : b.bundle.firstTag? = some tag) {v : Variant}
    (hv : v ∈ bundleVariants (bundleModes b.bundle.components) b.styles)
    (hneeds : needsScopedVariants b.bundle.components = true) (hmode : v.mode.isSome) :
    ∃ content, ⟨bundleFileName (scopedId (variantId config minifiers tag b.bundle v)), content⟩ ∈
      bundleFiles config minifiers b := by
  let id := scopedId (variantId config minifiers tag b.bundle v)
  let text := variantContent config (moduleTextFor config minifiers b.bundle.moduleText).1 v true
  refine ⟨fillBundleId text id, (mem_bundleFiles_iff htag).2 ⟨_, List.mem_map.2 ⟨v, hv, rfl⟩, ?_⟩⟩
  unfold AssembledVariant.artifacts assembleVariant
  simp only [hneeds, hmode, Bool.and_self, if_true]
  exact List.mem_cons_of_mem _ (List.mem_singleton.2 rfl)

end Members

/-! ## Builds -/

/-- What a full build in a new context compiles. -/
def compiledAnew (config : Config) (world : StyleWorld) (bundles : List ManifestBundle) :
    List CompiledBundle :=
  (compileBundles config world none ∅ bundles).1

theorem map_bundle_compileBundles (config : Config) (world : StyleWorld)
    (change : Option ChangeSet) (cache : StyleCache) (bundles : List ManifestBundle) :
    (compileBundles config world change cache bundles).1.map (·.bundle) = bundles := by
  induction bundles generalizing cache with
  | nil => rfl
  | cons b bundles ih => exact congrArg (b :: ·) (ih _)

theorem flatMap_filterMap {α β γ : Type} (f : α → Option β) (g : β → List γ) (l : List α) :
    (l.filterMap f).flatMap g = l.flatMap fun a => (f a).toList.flatMap g := by
  induction l with
  | nil => rfl
  | cons a l ih =>
    rw [List.filterMap_cons, List.flatMap_cons, ← ih]
    cases f a with
    | none => rfl
    | some b => simp

section Assembled

variable (config : Config) (minifiers : Minifiers) (compiled : List CompiledBundle)

theorem assembleBundles_fst :
    (assembleBundles config minifiers compiled).1 =
      compiled.filterMap fun b => (assembleBundle config minifiers b.bundle b.styles).1 :=
  List.filterMap_map

theorem assembleBundles_snd :
    (assembleBundles config minifiers compiled).2 =
      (compiled.map (·.bundle)).flatMap fun b => (assembleBundle config minifiers b []).2 := by
  have hone : ∀ b : CompiledBundle,
      (assembleBundle config minifiers b.bundle b.styles).2 =
        (assembleBundle config minifiers b.bundle []).2 := by
    intro b
    unfold assembleBundle
    cases b.bundle.firstTag? <;> rfl
  show (compiled.map fun b => assembleBundle config minifiers b.bundle b.styles).flatMap (·.2) = _
  rw [List.flatMap_map, List.flatMap_map, funext hone]

theorem artifacts_assembleBundles :
    (assembleBundles config minifiers compiled).1.flatMap AssembledBundle.artifacts =
      compiled.flatMap (bundleFiles config minifiers) := by
  rw [assembleBundles_fst, flatMap_filterMap]
  rfl

theorem ofBundles_emitBundles (s : Emission) :
    Registry.ofBundles (emitBundles config s (assembleBundles config minifiers compiled).1).1 =
      .ofComponents (compiled.flatMap fun b =>
        registeredMembers config minifiers b.bundle b.styles) := by
  rw [ofBundles_eq, emitBundles_announced, assembleBundles_fst, List.map_filterMap,
    flatMap_filterMap]
  congr 1
  refine congrArg (compiled.flatMap ·) (funext fun b => ?_)
  exact members_assembled config minifiers b.bundle b.styles

end Assembled

theorem diagnostics_generateBundles (config : Config) (world : StyleWorld) (ctx : BuildContext)
    (bundles : List ManifestBundle) :
    (generateBundles config world ctx bundles).results.diagnostics =
      (compileBundles config world ctx.change ctx.styleCache bundles).2.1.diagnostics ++
        bundles.flatMap fun b => (assembleBundle config world.minifiers b []).2 := by
  have h := assembleBundles_snd config world.minifiers
    (compileBundles config world ctx.change ctx.styleCache bundles).1
  rw [map_bundle_compileBundles] at h
  rw [← h]
  rfl

end ComponentBundle
