import ComponentBundle.Loader.Resolve
import ComponentBundle.Proofs.Bundle.Assembly
import ComponentBundle.Proofs.Style.Source

/-!
# Every request of a loader finds its file

The loader forms its requests from the registry alone, by rules of its own: which mode is taken,
and when the scoped twin is. `requested_file_is_queued` says that the build obeys the same rules.

* `variant_of_resolved`, `file_of_resolved` : what a member of a bundle resolves to is the id of a
  variant of the bundle, plain or scoped as the member uses it, and has a file;
* `resolve_fails_iff` : a member resolves to nothing exactly if its bundle declares named modes and
  neither the mode nor the default mode is one of them;
* `lastValue?_flatMap` : the registry holds the last member with a tag, and so its bundle is known;
* `www_of_mem_files` : a file that a build writes may be replaced by a later one of the same name,
  but that one is filled with the same id.
-/

namespace ComponentBundle

def ManifestBundle.DeclaresNamed (b : ManifestBundle) (mode : String) : Prop :=
  mode ≠ defaultMode ∧ ∃ c ∈ b.components, mode ∈ c.styles.keys

/-- The bundle of the component that the registry holds for a tag: the last one with such a
member. -/
def bundleOfTag? (bundles : List ManifestBundle) (tag : String) : Option ManifestBundle :=
  bundles.reverse.find? fun b => b.components.any (·.tag = tag)

/-! ## Resolving -/

section Resolve

variable {config : Config} {minifiers : Minifiers} {b : ManifestBundle}
  {styles : List ModeStyles} {tag : String} {c : Component} {nativeShadow : Bool}
  {mode fallback : Option String}

theorem declaresNamed_iff {m : String} :
    b.DeclaresNamed m ↔ m ≠ defaultMode ∧ m ∈ bundleModes b.components := by
  rw [ManifestBundle.DeclaresNamed, mem_bundleModes]

theorem hasNamedMode_bundleModes :
    hasNamedMode (bundleModes b.components) = true ↔ ∃ m, b.DeclaresNamed m := by
  rw [hasNamedMode_iff]
  exact exists_congr fun m => by rw [declaresNamed_iff, and_comm]

theorem announcedIds_eq_single {id : String}
    (hid : announcedIds config minifiers tag b styles = .single id) :
    bundleModes b.components = [] ∧ id = variantId config minifiers tag b ⟨none, []⟩ := by
  unfold announcedIds at hid
  split at hid
  · rename_i hmodes
    exact ⟨hmodes, (BundleIds.single.inj hid).symm⟩
  · cases hid

theorem announcedIds_eq_perMode {ids : SortedMap String String}
    (hids : announcedIds config minifiers tag b styles = .perMode ids) :
    bundleModes b.components ≠ [] ∧
      ids = .ofList ((offeredModes (bundleModes b.components)).map fun m =>
        (m, variantId config minifiers tag b (modeVariant b styles m))) := by
  unfold announcedIds at hids
  split at hids
  · cases hids
  · rename_i hmodes
    exact ⟨hmodes, (BundleIds.perMode.inj hids).symm⟩

theorem get?_announced {ids : SortedMap String String} {m id : String}
    (hids : announcedIds config minifiers tag b styles = .perMode ids) (h : ids.get? m = some id) :
    m ∈ offeredModes (bundleModes b.components) ∧
      id = variantId config minifiers tag b (modeVariant b styles m) := by
  obtain ⟨-, rfl⟩ := announcedIds_eq_perMode hids
  rw [SortedMap.get?_ofList] at h
  obtain ⟨m', hkey, hmem⟩ := SortedMap.mem_of_lastValue? h
  obtain rfl := Std.LawfulEqCmp.eq_of_compare hkey
  obtain ⟨m', hm', heq⟩ := List.mem_map.1 hmem
  obtain ⟨rfl, rfl⟩ := Prod.mk.inj heq
  exact ⟨hm', rfl⟩

theorem get?_announced_eq_none_iff {ids : SortedMap String String} {m : String}
    (hids : announcedIds config minifiers tag b styles = .perMode ids) :
    ids.get? m = none ↔ m ∉ offeredModes (bundleModes b.components) := by
  obtain ⟨-, rfl⟩ := announcedIds_eq_perMode hids
  rw [← Option.not_isSome_iff_eq_none, ← SortedMap.mem_keys, SortedMap.mem_keys_ofList]
  simp

theorem idForMode?_eq_none_iff {ids : SortedMap String String} :
    idForMode? ids mode fallback = none ↔
      (∀ m, mode = some m ∨ fallback = some m → ids.get? m = none) ∧
        ids.get? defaultMode = none := by
  unfold idForMode?
  rw [List.findSome?_eq_none_iff]
  simp only [List.mem_append, Option.mem_toList, List.mem_singleton]
  constructor
  · exact fun h => ⟨fun m hm => h m (.inl hm), h _ (.inr rfl)⟩
  · rintro ⟨h, hdefault⟩ m (hm | rfl)
    · exact h m hm
    · exact hdefault

theorem defaultMode_notMem_offered (h : bundleModes b.components ≠ []) :
    defaultMode ∉ offeredModes (bundleModes b.components) ↔ ∃ m, b.DeclaresNamed m := by
  rw [mem_offeredModes, ← hasNamedMode_bundleModes]
  cases hnamed : hasNamedMode (bundleModes b.components) with
  | true => simp
  | false =>
    obtain ⟨m, hm⟩ := List.exists_mem_of_ne_nil _ h
    have hdefault : m = defaultMode := by
      by_cases hne : m = defaultMode
      · exact hne
      · exact absurd (hasNamedMode_iff.2 ⟨m, hm, hne⟩) (by simp [hnamed])
    subst hdefault
    simp [hm]

/-- A member resolves to nothing exactly if its bundle declares named modes and neither the mode
nor the default mode is one of them. -/
theorem resolve_fails_iff
    (hids : c.bundleIds = some (announcedIds config minifiers tag b styles)) :
    (∃ e, resolveBundleId nativeShadow c mode fallback = .error e) ↔
      (∃ m, b.DeclaresNamed m) ∧
        ∀ m, mode = some m ∨ fallback = some m → ¬ b.DeclaresNamed m := by
  unfold resolveBundleId
  rw [hids]
  cases h : announcedIds config minifiers tag b styles with
  | single id =>
    -- one id for all modes: no member declares a mode, and nothing fails
    obtain ⟨hmodes, -⟩ := announcedIds_eq_single h
    simp [declaresNamed_iff, hmodes]
  | perMode ids =>
    obtain ⟨hmodes, -⟩ := announcedIds_eq_perMode h
    have hnone : idForMode? ids mode fallback = none ↔ (∃ m, b.DeclaresNamed m) ∧
        ∀ m, mode = some m ∨ fallback = some m → ¬ b.DeclaresNamed m := by
      rw [idForMode?_eq_none_iff, get?_announced_eq_none_iff h, defaultMode_notMem_offered hmodes,
        and_comm]
      refine and_congr_right fun hnamed => forall₂_congr fun m _ => ?_
      rw [get?_announced_eq_none_iff h, mem_offeredModes, declaresNamed_iff,
        hasNamedMode_bundleModes.2 hnamed]
      simp [and_comm]
    rw [← hnone]
    cases hfound : idForMode? ids mode fallback with
    | none => simp [hfound]
    | some id => simp [hfound]

theorem needsScoped_of_usesScopedCss {m : Component} (hm : m ∈ b.components)
    (hscoped : usesScopedCss nativeShadow m = true) (hmodes : bundleModes b.components ≠ []) :
    needsScopedVariants b.components = true := by
  obtain ⟨mode, hmode⟩ := List.exists_mem_of_ne_nil _ hmodes
  obtain ⟨d, hd, hkey⟩ := mem_bundleModes.1 hmode
  unfold needsScopedVariants
  rw [Bool.and_eq_true, List.any_eq_true, List.any_eq_true]
  refine ⟨⟨d, hd, ?_⟩, ⟨m, hm, ?_⟩⟩
  · unfold Component.hasStyles SortedMap.isEmpty
    unfold SortedMap.keys at hkey
    cases hentries : d.styles.entries with
    | nil => simp [hentries] at hkey
    | cons e l => rfl
  · unfold usesScopedCss at hscoped
    cases henc : m.encapsulation with
    | none => simp [henc] at hscoped
    | scopedCss => rfl
    | shadowDom => rfl

end Resolve

/-- What a member resolves to is the id of a variant of its bundle, or its scoped id where the
variant has a mode and the member uses scoped styles. -/
theorem variant_of_resolved {config : Config} {minifiers : Minifiers} {b : CompiledBundle}
    {tag : String} {m : Component} {nativeShadow : Bool} {mode fallback : Option String}
    {id : String}
    (h : resolveBundleId nativeShadow
      { m with bundleIds := some (announcedIds config minifiers tag b.bundle b.styles) } mode
        fallback = .ok id) :
    ∃ v ∈ bundleVariants (bundleModes b.bundle.components) b.styles,
      id = if v.mode.isSome && usesScopedCss nativeShadow m then
        scopedId (variantId config minifiers tag b.bundle v)
      else variantId config minifiers tag b.bundle v := by
  unfold resolveBundleId at h
  cases hids : announcedIds config minifiers tag b.bundle b.styles with
  | single found =>
    simp only [hids] at h
    obtain rfl := Except.ok.inj h
    obtain ⟨hmodes, rfl⟩ := announcedIds_eq_single hids
    refine ⟨⟨none, []⟩, ?_, rfl⟩
    rw [bundleVariants_eq, if_pos hmodes]
    exact List.mem_singleton.2 rfl
  | perMode ids =>
    simp only [hids] at h
    cases hfound : idForMode? ids mode fallback with
    | none => simp [hfound] at h
    | some found =>
      simp only [hfound] at h
      obtain ⟨hmodes, -⟩ := announcedIds_eq_perMode hids
      obtain ⟨n, -, hget⟩ := List.exists_of_findSome?_eq_some hfound
      obtain ⟨hoffered, rfl⟩ := get?_announced hids hget
      refine ⟨modeVariant b.bundle b.styles n, ?_, (Except.ok.inj h).symm⟩
      rw [bundleVariants_eq, if_neg hmodes]
      exact List.mem_map.2 ⟨n, hoffered, rfl⟩

theorem bundleModes_ne_nil {b : CompiledBundle} {v : Variant}
    (hv : v ∈ bundleVariants (bundleModes b.bundle.components) b.styles)
    (hmode : v.mode.isSome = true) : bundleModes b.bundle.components ≠ [] := by
  intro hmodes
  rw [bundleVariants_eq, if_pos hmodes] at hv
  rw [List.mem_singleton.1 hv] at hmode
  simp at hmode

theorem file_of_resolved {config : Config} {minifiers : Minifiers} {b : CompiledBundle}
    {tag : String} (htag : b.bundle.firstTag? = some tag) {m : Component}
    (hm : m ∈ b.bundle.components) {nativeShadow : Bool} {mode fallback : Option String}
    {id : String}
    (h : resolveBundleId nativeShadow
      { m with bundleIds := some (announcedIds config minifiers tag b.bundle b.styles) } mode
        fallback = .ok id) :
    ∃ content, ⟨bundleFileName id, content⟩ ∈ bundleFiles config minifiers b := by
  obtain ⟨v, hv, rfl⟩ := variant_of_resolved h
  split
  · rename_i hscoped
    rw [Bool.and_eq_true] at hscoped
    have hneeds := needsScoped_of_usesScopedCss hm hscoped.2 (bundleModes_ne_nil hv hscoped.1)
    exact scoped_mem_bundleFiles htag hv hneeds hscoped.1
  · exact plain_mem_bundleFiles htag hv

/-! ## The registry -/

theorem lastValue?_flatMap {α β : Type} (f : β → List (String × α)) {l : List β} {k : String}
    {v : α} (h : SortedMap.lastValue? (l.flatMap f) k = some v) :
    ∃ before b after, l = before ++ b :: after ∧ (k, v) ∈ f b ∧
      ∀ d ∈ after, ∀ e ∈ f d, e.1 ≠ k := by
  induction l with
  | nil => simp [SortedMap.lastValue?] at h
  | cons b l ih =>
    rw [List.flatMap_cons, SortedMap.lastValue?_append] at h
    cases hl : SortedMap.lastValue? (l.flatMap f) k with
    | some w =>
      rw [hl, Option.some_or] at h
      obtain ⟨before, b', after, rfl, hmem, hafter⟩ := ih (hl.trans h)
      exact ⟨b :: before, b', after, rfl, hmem, hafter⟩
    | none =>
      rw [hl, Option.none_or] at h
      obtain ⟨k', hkey, hmem⟩ := SortedMap.mem_of_lastValue? h
      obtain rfl := Std.LawfulEqCmp.eq_of_compare hkey
      refine ⟨[], b, l, rfl, hmem, fun d hd e he hk => ?_⟩
      have hne := SortedMap.lastValue?_eq_none_iff.1 hl e (List.mem_flatMap.2 ⟨d, hd, he⟩)
      rw [hk] at hne
      exact hne Std.ReflCmp.compare_self

/-- The component that the registry holds for a tag is a member of the last bundle with such a
member, with the ids that the bundle announces. -/
theorem member_of_registry {config : Config} {minifiers : Minifiers}
    {compiled : List CompiledBundle} {tag : String} {c : Component}
    (h : (Registry.ofComponents (compiled.flatMap fun b =>
      registeredMembers config minifiers b.bundle b.styles)).get? tag = some c) :
    ∃ b ∈ compiled, bundleOfTag? (compiled.map (·.bundle)) tag = some b.bundle ∧
      ∃ firstTag, b.bundle.firstTag? = some firstTag ∧ ∃ m ∈ b.bundle.components,
        c = { m with
          bundleIds := some (announcedIds config minifiers firstTag b.bundle b.styles) } := by
  unfold Registry.ofComponents at h
  rw [SortedMap.get?_ofList, List.map_flatMap] at h
  obtain ⟨before, b, after, rfl, hmem, hafter⟩ := lastValue?_flatMap _ h
  obtain ⟨c', hc, heq⟩ := List.mem_map.1 hmem
  obtain ⟨htag, rfl⟩ := Prod.mk.inj heq
  refine ⟨b, by simp, ?_, ?_⟩
  · have hany : ∀ d : CompiledBundle, d.bundle.components.any (·.tag = tag) = true ↔
        tag ∈ (registeredMembers config minifiers d.bundle d.styles).map (·.tag) := by
      intro d
      rw [tags_registeredMembers]
      simp
    unfold bundleOfTag?
    rw [List.map_append, List.map_cons, List.reverse_append, List.reverse_cons, List.append_assoc,
      List.find?_append, List.find?_eq_none.2, Option.none_or, List.singleton_append,
      List.find?_cons_of_pos]
    · exact (hany b).2 (List.mem_map.2 ⟨c', hc, htag⟩)
    · intro later hlater hany'
      obtain ⟨d, hd, rfl⟩ := List.mem_map.1 (List.mem_reverse.1 hlater)
      obtain ⟨e, he, hetag⟩ := List.mem_map.1 ((hany d).1 hany')
      exact hafter d hd _ (List.mem_map.2 ⟨e, he, rfl⟩) hetag
  · unfold registeredMembers at hc
    cases hfirst : b.bundle.firstTag? with
    | none => simp [hfirst] at hc
    | some firstTag =>
      simp only [hfirst] at hc
      obtain ⟨m, hm, rfl⟩ := List.mem_map.1 hc
      exact ⟨firstTag, rfl, m, hm, rfl⟩

/-! ## The queue of the web tree -/

theorem www_of_mem_files {config : Config} {minifiers : Minifiers} (hwww : config.writesWww = true)
    {compiled : List CompiledBundle} (hsep : ∀ b ∈ compiled, b.bundle.NoSeparator)
    {b : CompiledBundle} (hb : b ∈ compiled) {id content : String}
    (h : ⟨bundleFileName id, content⟩ ∈ bundleFiles config minifiers b) :
    ∃ d ∈ compiled, ∃ text, IsAssembledText config minifiers d text ∧
      (Emission.writeAll config {} (compiled.flatMap (bundleFiles config minifiers))).files.www.get?
        (wwwPath config (bundleFileName id)) = some (fillBundleId text id) := by
  rw [Emission.get?_www_writeAll hwww]
  generalize hfiles : (compiled.flatMap (bundleFiles config minifiers)).map
    (fun a => (wwwPath config a.fileName, a.content)) = files
  have hmem : (wwwPath config (bundleFileName id), content) ∈ files := by
    rw [← hfiles]
    exact List.mem_map.2 ⟨_, List.mem_flatMap.2 ⟨b, hb, h⟩, rfl⟩
  -- the last text written to the path may be that of another bundle with a file of this name
  obtain ⟨last, hlast⟩ := SortedMap.exists_lastValue? hmem
  rw [hlast]
  obtain ⟨path, hpath, hmem'⟩ := SortedMap.mem_of_lastValue? hlast
  rw [← hfiles] at hmem'
  obtain ⟨a, ha, heq⟩ := List.mem_map.1 hmem'
  obtain ⟨d, hd, ha⟩ := List.mem_flatMap.1 ha
  obtain ⟨id', text, hid', htext, rfl⟩ := exists_of_mem_bundleFiles (hsep d hd) ha
  obtain ⟨rfl, rfl⟩ := Prod.mk.inj heq
  obtain ⟨id'', _, hid'', -, hsame⟩ := exists_of_mem_bundleFiles (hsep b hb) h
  have hname : bundleFileName id = bundleFileName id'' := congrArg Artifact.fileName hsame
  have hids : bundleFileName id = bundleFileName id' := by
    rw [hname]
    rw [hname] at hpath
    exact FilePath.eq_of_compare_join (isName_bundleFileName hid'') (isName_bundleFileName hid')
      hpath
  obtain rfl : id = id' := by
    apply String.toList_injective
    simpa [bundleFileName] using congrArg String.toList hids
  exact ⟨d, hd, text, htext, rfl⟩

/-- **Every request finds its file.** In a full build from a new context that writes the web tree,
whatever a component of the registry resolves to has a file, in which the placeholder became that
id; and a component resolves to nothing exactly if its bundle declares named modes and neither the
mode nor the default mode is one of them. -/
theorem requested_file_is_queued {config : Config} (hwww : config.writesWww = true)
    (world : StyleWorld) {bundles : List ManifestBundle} (hsep : ∀ b ∈ bundles, b.NoSeparator)
    {tag : String} {c : Component}
    (hc : (generateBundles config world ∅ bundles).results.registry.get? tag = some c)
    (nativeShadow : Bool) (mode fallback : Option String) :
    (∀ id, resolveBundleId nativeShadow c mode fallback = .ok id →
      ∃ b ∈ compiledAnew config world bundles, ∃ text,
        IsAssembledText config world.minifiers b text ∧
        (generateBundles config world ∅ bundles).results.files.www.get?
          (wwwPath config (bundleFileName id)) = some (fillBundleId text id)) ∧
    ∃ b, bundleOfTag? bundles tag = some b ∧
      ((∃ e, resolveBundleId nativeShadow c mode fallback = .error e) ↔
        (∃ m, b.DeclaresNamed m) ∧
          ∀ m, mode = some m ∨ fallback = some m → ¬ b.DeclaresNamed m) := by
  have hbundles : (compiledAnew config world bundles).map (·.bundle) = bundles :=
    map_bundle_compileBundles config world none ∅ bundles
  have hregistry : (generateBundles config world ∅ bundles).results.registry =
      .ofComponents ((compiledAnew config world bundles).flatMap fun b =>
        registeredMembers config world.minifiers b.bundle b.styles) :=
    ofBundles_emitBundles config world.minifiers (compiledAnew config world bundles) _
  have hfiles : (generateBundles config world ∅ bundles).results.files =
      (Emission.writeAll config {}
        ((compiledAnew config world bundles).flatMap
          (bundleFiles config world.minifiers))).files := by
    rw [← artifacts_assembleBundles, ← emitBundles_emission]
    rfl
  have hsep' : ∀ b ∈ compiledAnew config world bundles, b.bundle.NoSeparator := by
    intro b hb
    refine hsep b.bundle ?_
    rw [← hbundles]
    exact List.mem_map.2 ⟨b, hb, rfl⟩
  rw [hregistry] at hc
  obtain ⟨b, hb, hof, firstTag, hfirst, m, hm, rfl⟩ := member_of_registry hc
  rw [hbundles] at hof
  refine ⟨fun id hid => ?_, b.bundle, hof, resolve_fails_iff rfl⟩
  obtain ⟨content, hfile⟩ := file_of_resolved hfirst hm hid
  rw [hfiles]
  exact www_of_mem_files hwww hsep' hb hfile

/-- A bundle of one component that is styled by attributes, with a mode besides `$`. -/
def sampleList : ManifestBundle where
  components := [{ tag := "x-list", encapsulation := .scopedCss,
                   styles := .ofList [("$", {}), ("ios", {})] }]
  moduleText := ""

/-- In its mode the sample list is requested by its scoped id. -/
theorem scoped_list_finds_its_file :
    let out := generateBundles {} emptyWorld ∅ [sampleList]
    ∃ c text, out.results.registry.get? "x-list" = some c ∧
      resolveBundleId false c (some "ios") none = .ok "x-list.ios.sc" ∧
      out.results.files.www.get? (wwwPath {} "x-list.ios.sc.js") =
        some (fillBundleId text "x-list.ios.sc") := by
  have hsep : ∀ b ∈ [sampleList], b.NoSeparator := by
    unfold ManifestBundle.NoSeparator
    decide
  obtain ⟨c, hc, hid⟩ : ∃ c, (generateBundles {} emptyWorld ∅ [sampleList]).results.registry.get?
      "x-list" = some c ∧ resolveBundleId false c (some "ios") none = .ok "x-list.ios.sc" := by
    exact ⟨_, rfl, rfl⟩
  obtain ⟨b, -, text, -, hfile⟩ :=
    (requested_file_is_queued rfl emptyWorld hsep hc false (some "ios") none).1 _ hid
  exact ⟨c, text, hc, hid, hfile⟩

end ComponentBundle
