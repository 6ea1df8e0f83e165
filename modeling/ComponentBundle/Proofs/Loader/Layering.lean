import ComponentBundle.Proofs.Build.Full
import ComponentBundle.Proofs.Bundle.Layers
import ComponentBundle.Proofs.Bundle.Statement
import ComponentBundle.Proofs.Loader.StyleKind

/-!
# Layers of styles at run time

What a build compiles for a member in `$` and in a mode is what a loader installs for it, the text
of the mode behind that of `$`. The texts go through the variants of the bundle, the statement of
the file and the grouping by the loader on their way.

* `StyleFile.handsOver?_eq` : a plain file hands over the texts of its layers;
* `BuildInput.encapsulation_registered` : the registry encapsulates a tag as its last member does;
* `Loader.Knows.template?_installStyles`, `Loader.Knows.newStyle?_eq` : what a loader with such a
  registry installs;
* `layering_survives` : all of it, from the configuration to the loader;
* `later_bundle_takes_template` : a member whose tag is declared anew by a later bundle.
-/

namespace ComponentBundle

/-! ## What a file hands over -/

namespace StyleFile

/-- What a file hands over when it runs: nothing but its id without a statement, and else what the
statement behind the banner says. -/
def handsOver? (config : Config) (minifiers : Minifiers) (f : StyleFile) :
    Option BundleRegistration :=
  if loadStylesStatement config.appName f.variant.styles f.isScoped = "" then
    some ⟨f.id config minifiers, []⟩
  else
    let banner := fillBundleId (preambleText config) (f.id config minifiers)
    (readStatement? config.appName
      ((f.artifact config minifiers).content.toList.drop banner.toList.length)).map (·.1)

theorem handsOver?_eq_registration {config : Config} {minifiers : Minifiers} {f : StyleFile}
    (hname : LacksPlaceholder config.appName.toList)
    (hentries : EntriesLackPlaceholder (f.registration config minifiers).styles)
    (hid : StandsInJson (f.id config minifiers)) :
    f.handsOver? config minifiers = some (f.registration config minifiers) := by
  unfold handsOver? registration
  split
  · rename_i hempty
    rw [loadStylesStatement_eq_empty_iff.1 hempty]
  · rename_i hsome
    have hne := mt loadStylesStatement_eq_empty_iff.2 hsome
    obtain ⟨rest, hrest⟩ : ∃ rest,
        (f.artifact config minifiers).content.toList = _ ++ (_ ++ rest) :=
      fill_variantContent hname hentries hid hne
    dsimp only
    rw [hrest, List.drop_left, readStatement?_statementText]
    rfl

end StyleFile

def StyleFile.members (f : StyleFile) : List Component := f.bundle.bundle.components

/-- The modes whose texts a file carries. -/
def StyleFile.layers (f : StyleFile) : List String := layersOf f.members f.variant.mode

namespace BuildInput

/-- The surroundings of a full build. -/
def anew (build : BuildInput) : StyleEnv := .anew build.config build.world

/-- The registration of a plain file: the texts of its layers. -/
def layered (build : BuildInput) (f : StyleFile) : BundleRegistration :=
  ⟨f.id build.config build.world.minifiers, layeredEntries build.anew f.layers f.members⟩

/-- Neither the name of the application nor a tag or plain text of a bundle holds the
placeholder. -/
structure FreeOfPlaceholder (build : BuildInput) (b : ManifestBundle) : Prop where
  name : LacksPlaceholder build.config.appName.toList
  tags : ∀ c ∈ b.components, LacksPlaceholder c.tag.toList
  texts : ∀ c ∈ b.components, ∀ mode ∈ c.styles.keys,
    LacksPlaceholder (plainTextOf build.anew mode c).toList

end BuildInput

section Files

variable {build : BuildInput} {f : StyleFile}

theorem BuildInput.compiled_of_full (hfull : build.context.change = none) :
    build.compiled = build.bundles.map fun b =>
      ⟨b, (compileMembers build.anew b.components).1⟩ := by
  unfold compiled
  rw [hfull, compileBundles_anew]
  rfl

theorem registration_of_full (hfull : build.context.change = none) (hf : f.IsOf build.compiled)
    (hplain : f.isScoped = false) :
    f.registration build.config build.world.minifiers = build.layered f := by
  have hstyles := hf.bundle
  rw [build.compiled_of_full hfull] at hstyles
  obtain ⟨b, -, hb⟩ := List.mem_map.1 hstyles
  unfold StyleFile.registration BuildInput.layered
  rw [hplain, styles_of_variant hf.variant, ← hb, payloadEntries_layers]
  unfold StyleFile.layers StyleFile.members
  rw [← hb]

theorem StyleFile.handsOver?_eq (hfull : build.context.change = none) (hf : f.IsOf build.compiled)
    (hplain : f.isScoped = false) (hfree : build.FreeOfPlaceholder f.bundle.bundle)
    (hid : StandsInJson (f.id build.config build.world.minifiers)) :
    f.handsOver? build.config build.world.minifiers = some (build.layered f) := by
  have hregistration := registration_of_full hfull hf hplain
  rw [← hregistration]
  refine handsOver?_eq_registration hfree.name (fun e he => ?_) hid
  rw [hregistration] at he
  obtain ⟨hmem, -⟩ := List.mem_filter.1 he
  obtain ⟨mode, -, hmem⟩ := List.mem_flatMap.1 hmem
  obtain ⟨c, hc, rfl⟩ := List.mem_map.1 hmem
  refine ⟨hfree.tags c hc, ?_⟩
  by_cases hmode : mode ∈ c.styles.keys
  · exact hfree.texts c hc mode hmode
  · rw [plainTextOf_undeclared hmode]
    exact lacksPlaceholder_nil

end Files

/-! ## The registry -/

/-- The last member of a manifest with a tag. -/
def lastMember? (bundles : List ManifestBundle) (tag : String) : Option Component :=
  (bundles.flatMap (·.components)).reverse.find? (·.tag = tag)

/-- Whether a tag is drawn in a shadow tree where hosts have them: the last member with the tag says
so. -/
def BuildInput.drawsInShadow (build : BuildInput) (tag : String) : Bool :=
  (lastMember? build.bundles tag).any (·.encapsulation == .shadowDom)

theorem exists_lastMember? {bundles : List ManifestBundle} {b : ManifestBundle} (hb : b ∈ bundles)
    {c : Component} (hc : c ∈ b.components) : ∃ d, lastMember? bundles c.tag = some d := by
  have hmem : c ∈ bundles.flatMap (·.components) := List.mem_flatMap.2 ⟨b, hb, hc⟩
  exact Option.isSome_iff_exists.1 (List.find?_isSome.2 ⟨c, List.mem_reverse.2 hmem, by simp⟩)

theorem map_lastMember? {α : Type} (f : Component → α) (bundles : List ManifestBundle)
    (tag : String) : (lastMember? bundles tag).map f =
      SortedMap.lastValue? ((bundles.flatMap (·.components)).map fun c => (c.tag, f c)) tag := by
  unfold lastMember? SortedMap.lastValue?
  rw [← List.map_reverse, List.find?_map, Option.map_map]
  have htag : (fun e : String × α => decide (compare tag e.1 = .eq)) ∘
      (fun c : Component => (c.tag, f c)) = fun c => decide (c.tag = tag) := by
    funext c
    exact decide_eq_decide.2 (Std.LawfulEqCmp.compare_eq_iff_eq.trans eq_comm)
  rw [htag]
  rfl

theorem encapsulations_registeredMembers (config : Config) (minifiers : Minifiers)
    (b : ManifestBundle) (styles : List ModeStyles) :
    (registeredMembers config minifiers b styles).map (fun c => (c.tag, c.encapsulation)) =
      b.components.map fun c => (c.tag, c.encapsulation) := by
  unfold registeredMembers ManifestBundle.firstTag?
  cases h : b.components with
  | nil => rfl
  | cons c rest => simp

/-- The registry encapsulates a tag as the last member of the manifest with the tag does. -/
theorem BuildInput.encapsulation_registered (build : BuildInput) (tag : String) :
    (build.registry.get? tag).map (·.encapsulation) =
      (lastMember? build.bundles tag).map (·.encapsulation) := by
  rw [map_lastMember?, build.registry_eq, Registry.ofComponents, SortedMap.get?_ofList,
    SortedMap.map_lastValue?, List.map_map, ← build.map_bundle_compiled, List.flatMap_map,
    List.map_flatMap, List.map_flatMap]
  congr 1
  exact List.flatMap_congr fun b _ => encapsulations_registeredMembers ..

theorem BuildInput.drawsInShadow_of_distinct {build : BuildInput}
    (h : DistinctTags build.bundles) {b : ManifestBundle} (hb : b ∈ build.bundles) {c : Component}
    (hc : c ∈ b.components) :
    build.drawsInShadow c.tag = (c.encapsulation == .shadowDom) := by
  have hmem : c ∈ build.bundles.flatMap (·.components) := List.mem_flatMap.2 ⟨b, hb, hc⟩
  obtain ⟨d, hd⟩ := exists_lastMember? hb hc
  have hdmem := List.mem_reverse.1 (List.mem_of_find?_eq_some hd)
  have htag : d.tag = c.tag := by simpa using List.find?_some hd
  unfold drawsInShadow
  rw [hd, List.inj_on_of_nodup_map h hdmem hmem htag]
  rfl

theorem BuildInput.get?_registry {build : BuildInput} {b : ManifestBundle}
    (hb : b ∈ build.bundles) {c : Component} (hc : c ∈ b.components) :
    ∃ m, build.registry.get? c.tag = some m ∧
      (m.encapsulation == .shadowDom) = build.drawsInShadow c.tag := by
  obtain ⟨d, hd⟩ := exists_lastMember? hb hc
  have hlast := build.encapsulation_registered c.tag
  rw [hd, Option.map_some] at hlast
  obtain ⟨m, hm, hsame⟩ := Option.map_eq_some_iff.1 hlast
  refine ⟨m, hm, ?_⟩
  unfold drawsInShadow
  rw [hd, hsame]
  rfl

/-! ## Loaders -/

/-- Members in the order of tags. -/
def membersOf (components : List Component) (tags : List String) : List Component :=
  tags.filterMap fun tag => components.find? (·.tag = tag)

/-- The text of a style element: the texts of the members that are not drawn in shadow trees, in the
order in which their tags first appear in the payload. -/
def documentText (shadow : String → Bool) (env : StyleEnv) (layers : List String)
    (components : List Component) : String :=
  String.join (((membersOf components (firstTags (layeredEntries env layers components))).filter
    (!shadow ·.tag)).map (layeredText env layers))

section Loaders

variable {σ κ : Type} [LoaderHost σ] {l : Loader σ κ} {shadow : String → Bool} {env : StyleEnv}
  {layers : List String} {components : List Component}

/-- The host has native shadow trees, and the registry knows which members are drawn in them. -/
structure Loader.Knows (l : Loader σ κ) (shadow : String → Bool) (components : List Component) :
    Prop where
  host : LoaderHost.hasNativeShadow l.host = true
  registry : ∀ c ∈ components, ∃ m, l.registry.get? c.tag = some m ∧
    (m.encapsulation == .shadowDom) = shadow c.tag

theorem Loader.Knows.isShadowEntry (h : l.Knows shadow components) {c : Component}
    (hc : c ∈ components) (text : String) :
    l.isShadowEntry (c.tag, text) = shadow c.tag := by
  obtain ⟨m, hget, hsame⟩ := h.registry c hc
  simp [Loader.isShadowEntry, hget, hsame, usesShadowDom, h.host]

theorem Loader.Knows.isDocumentEntry (h : l.Knows shadow components) {c : Component}
    (hc : c ∈ components) (text : String) :
    l.isDocumentEntry (c.tag, text) = !shadow c.tag := by
  obtain ⟨m, hget, hsame⟩ := h.registry c hc
  simp [Loader.isDocumentEntry, hget, hsame, usesShadowDom, h.host]

/-- The template of a member is made of its layers. -/
theorem Loader.Knows.template?_installStyles (h : l.Knows shadow components)
    (hnodup : (components.map (·.tag)).Nodup) {r : BundleRegistration}
    (hr : r.styles = layeredEntries env layers components) {c : Component} (hc : c ∈ components)
    (hnone : l.template? c.tag = none) :
    (l.installStyles r).template? c.tag =
      if shadow c.tag ∧ layeredText env layers c ≠ "" then some (layeredText env layers c)
      else none := by
  have hnonempty : ∀ e ∈ layeredEntries env layers components, e.2 ≠ "" := fun e he =>
    of_decide_eq_true (List.mem_filter.1 he).2
  have happears : c.tag ∈ firstTags (layeredEntries env layers components) ↔
      layeredText env layers c ≠ "" := by
    rw [mem_firstTags_iff hnonempty, joinedText_layeredEntries hnodup hc]
  rw [Loader.template?_installStyles, hnone, Option.none_or, hr, h.isShadowEntry hc,
    joinedText_layeredEntries hnodup hc]
  by_cases hempty : layeredText env layers c = "" <;> cases shadow c.tag <;>
    simp [happears, hempty]

theorem map_filter_groups {p : String × String → Bool} {q : Component → Bool}
    {f : String → String} {g : Component → String} {tags : List String}
    (htags : ∀ tag ∈ tags, ∃ c ∈ components, c.tag = tag)
    (hp : ∀ c ∈ components, p (c.tag, f c.tag) = q c) (hf : ∀ c ∈ components, f c.tag = g c) :
    ((tags.map fun tag => (tag, f tag)).filter p).map (·.2) =
      ((membersOf components tags).filter q).map g := by
  unfold membersOf
  induction tags with
  | nil => rfl
  | cons tag tags ih =>
    obtain ⟨c, hc, rfl⟩ : ∃ c ∈ components, c.tag = tag := htags tag List.mem_cons_self
    obtain ⟨d, hd⟩ := Option.isSome_iff_exists.1
      (List.find?_isSome (p := fun d => decide (d.tag = c.tag)).2 ⟨c, hc, by simp⟩)
    have hmem := List.mem_of_find?_eq_some hd
    have htag : d.tag = c.tag := by simpa using List.find?_some hd
    have hrest := ih fun tag htag => htags tag (List.mem_cons_of_mem _ htag)
    rw [List.map_cons, List.filterMap_cons, hd, List.filter_cons, List.filter_cons, ← htag,
      hp d hmem]
    cases q d with
    | true => simp [hrest, hf d hmem]
    | false => simpa using hrest

/-- The style element of a bundle is made of the layers of the other members. -/
theorem Loader.Knows.newStyle?_eq (h : l.Knows shadow components)
    (hnodup : (components.map (·.tag)).Nodup) {r : BundleRegistration}
    (hr : r.styles = layeredEntries env layers components)
    (hnew : l.appended.contains ("style-" ++ r.bundleId) = false) :
    l.newStyle? r =
      if documentText shadow env layers components = "" then none
      else some ⟨"style-" ++ r.bundleId, documentText shadow env layers components⟩ := by
  have htags : ∀ tag ∈ firstTags (layeredEntries env layers components),
      ∃ c ∈ components, c.tag = tag := by
    intro tag htag
    obtain ⟨e, he, rfl⟩ := List.mem_map.1 (mem_firstTags.1 htag)
    obtain ⟨mode, -, he⟩ := List.mem_flatMap.1 (List.mem_filter.1 he).1
    obtain ⟨c, hc, rfl⟩ := List.mem_map.1 he
    exact ⟨c, hc, rfl⟩
  have htext : String.join (((Loader.groupByTag r.styles).filter l.isDocumentEntry).map (·.2)) =
      documentText shadow env layers components := by
    unfold documentText
    rw [groupByTag_eq, hr]
    refine congrArg String.join (map_filter_groups htags (fun c hc => ?_)
      fun c hc => joinedText_layeredEntries hnodup hc)
    exact h.isDocumentEntry hc (joinedText (layeredEntries env layers components) c.tag)
  unfold Loader.newStyle?
  rw [htext, hnew]
  simp

end Loaders

/-! ## From the configuration to the loader -/

/-- **Layering survives to run time.** In a full build a plain file of a bundle with distinct tags
hands over the texts of its layers. Registering them, a new loader over the registry of the build,
on a host with native shadow trees, makes a template for each member with a text whose tag is drawn
in a shadow tree, and appends one style element for all others: for each member the `$` text, if the
bundle declares `$`, and right behind it the text for the mode of the file, if that is a named
one. -/
theorem layering_survives {build : BuildInput} (hfull : build.context.change = none)
    {f : StyleFile} (hf : f.IsOf build.compiled) (hplain : f.isScoped = false)
    (hdistinct : (f.members.map (·.tag)).Nodup) (hfree : build.FreeOfPlaceholder f.bundle.bundle)
    (hid : StandsInJson (f.id build.config build.world.minifiers)) {σ : Type} [LoaderHost σ]
    {host : σ} (hnative : LoaderHost.hasNativeShadow host = true) (options : LoaderOptions) :
    let l := ((build.loader host options).registerBundle (build.layered f)).1
    f.artifact build.config build.world.minifiers ∈
        bundleFiles build.config build.world.minifiers f.bundle ∧
      f.handsOver? build.config build.world.minifiers = some (build.layered f) ∧
      (∀ c ∈ f.members, l.template? c.tag =
        if build.drawsInShadow c.tag ∧ layeredText build.anew f.layers c ≠ "" then
          some (layeredText build.anew f.layers c)
        else none) ∧
      l.host.events =
        if documentText build.drawsInShadow build.anew f.layers f.members = "" then []
        else [.appendStyle ⟨"style-" ++ f.id build.config build.world.minifiers,
          documentText build.drawsInShadow build.anew f.layers f.members⟩] := by
  have hknows : (build.loader host options).Knows build.drawsInShadow f.members :=
    ⟨hnative, fun c hc => BuildInput.get?_registry hf.mem_bundles hc⟩
  have hstyles : (build.layered f).styles = layeredEntries build.anew f.layers f.members := rfl
  refine ⟨f.artifact_mem build.config build.world.minifiers hf,
    f.handsOver?_eq hfull hf hplain hfree hid, ?_, ?_⟩
  · intro c hc
    have hnone : (build.loader host options).template? c.tag = none := rfl
    rw [Loader.template?_registerBundle,
      hknows.template?_installStyles hdistinct hstyles hc hnone]
  · have hnew : (build.loader host options).appended = ∅ := rfl
    rw [Loader.host_registerBundle, Loader.installStyles_events,
      hknows.newStyle?_eq hdistinct hstyles (by rw [hnew]; rfl)]
    split <;> rfl

/-! ## A bundle with two layers -/

/-- A bundle with `$` styles and styles for a mode, of members that are encapsulated each in another
way. -/
def layeredBundle : ManifestBundle where
  components := [
    { tag := "x-a", encapsulation := .shadowDom,
      styles := .ofList [("$", { inlineText := some "h1\x7b\x7d" }),
        ("ios", { inlineText := some "p\x7b\x7d" })] },
    { tag := "x-b", encapsulation := .scopedCss,
      styles := .ofList [("ios", { inlineText := some "b\x7b\x7d" })] },
    { tag := "x-c", styles := .ofList [("$", { inlineText := some "i\x7b\x7d" })] }]
  moduleText := ""

def layeredBuild : BuildInput := ⟨{}, emptyWorld, ∅, [layeredBundle]⟩

/-- The plain file of the mode. -/
def layeredFile : StyleFile :=
  let styles := (compileMembers layeredBuild.anew layeredBundle.components).1
  ⟨⟨layeredBundle, styles⟩,
    ⟨some "ios", stylesOfMode styles defaultMode ++ stylesOfMode styles "ios"⟩, false⟩

theorem isOf_layeredFile : layeredFile.IsOf layeredBuild.compiled where
  bundle := by
    rw [layeredBuild.compiled_of_full rfl]
    exact List.mem_singleton_self _
  members := by simp [layeredFile, layeredBundle]
  variant := by decide +kernel
  needs := by decide +kernel

theorem freeOfPlaceholder_layeredBuild : layeredBuild.FreeOfPlaceholder layeredBundle := by
  refine ⟨?_, ?_, ?_⟩ <;> unfold LacksPlaceholder Text.Lacks <;> decide +kernel

/-- The mode's text of the first member stands behind its `$` text in its template, and the texts of
the other members in one style element. -/
theorem layered_bundle_survives :
    layeredFile.IsOf layeredBuild.compiled ∧ (layeredFile.members.map (·.tag)).Nodup ∧
      layeredBuild.FreeOfPlaceholder layeredBundle ∧ StandsInJson (layeredFile.id {} verbatim) ∧
      layeredFile.handsOver? {} verbatim = some ⟨"x-a.ios", [("x-a", "h1\x7b\x7d"),
        ("x-c", "i\x7b\x7d"), ("x-a", "p\x7b\x7d"), ("x-b", "b\x7b\x7d")]⟩ ∧
      (let host : DocumentLog := { nativeShadow := true }
      let l := ((layeredBuild.loader host {}).registerBundle (layeredBuild.layered layeredFile)).1
      l.template? "x-a" = some "h1\x7b\x7dp\x7b\x7d" ∧
        l.host.events = [.appendStyle ⟨"style-x-a.ios", "i\x7b\x7db\x7b\x7d"⟩]) := by
  have hdistinct : (layeredFile.members.map (·.tag)).Nodup := by decide
  have hid : StandsInJson (layeredFile.id {} verbatim) := by decide +kernel
  have hnative : LoaderHost.hasNativeShadow { nativeShadow := true : DocumentLog } = true := rfl
  obtain ⟨-, hhands, htemplates, hevents⟩ := layering_survives rfl isOf_layeredFile rfl hdistinct
    freeOfPlaceholder_layeredBuild hid hnative {}
  have hregistration : layeredBuild.layered layeredFile = ⟨"x-a.ios", [("x-a", "h1\x7b\x7d"),
      ("x-c", "i\x7b\x7d"), ("x-a", "p\x7b\x7d"), ("x-b", "b\x7b\x7d")]⟩ := by decide +kernel
  have hshadow : layeredBuild.drawsInShadow "x-a" = true :=
    BuildInput.drawsInShadow_of_distinct (b := layeredBundle) (by decide)
      (List.mem_singleton_self _) List.mem_cons_self
  refine ⟨isOf_layeredFile, hdistinct, freeOfPlaceholder_layeredBuild, hid,
    hhands.trans (congrArg some hregistration), ?_, ?_⟩
  · have hmember : layeredBundle.components.head (by decide) ∈ layeredFile.members :=
      List.head_mem _
    refine (htemplates _ hmember).trans ?_
    rw [if_pos ⟨hshadow, by decide +kernel⟩]
    decide +kernel
  · refine hevents.trans ?_
    decide +kernel

/-! ## A tag that is declared anew -/

/-- Two bundles with one tag, which only the first one draws in a shadow tree. -/
def redeclaredBuild : BuildInput where
  config := {}
  world := emptyWorld
  context := ∅
  bundles := [
    ⟨[{ tag := "x-b" },
      { tag := "x-a", encapsulation := .shadowDom,
        styles := .ofList [("$", { inlineText := some "h1\x7b\x7d" })] }], ""⟩,
    ⟨[{ tag := "x-c" }, { tag := "x-a" }], ""⟩]

/-- The plain file of the first bundle. -/
def redeclaredFile : StyleFile :=
  let bundle := redeclaredBuild.bundles.head (by decide)
  let styles := (compileMembers redeclaredBuild.anew bundle.components).1
  ⟨⟨bundle, styles⟩, ⟨some "$", styles⟩, false⟩

theorem isOf_redeclaredFile : redeclaredFile.IsOf redeclaredBuild.compiled where
  bundle := by
    rw [redeclaredBuild.compiled_of_full rfl]
    exact List.mem_cons_self
  members := by simp [redeclaredFile, redeclaredBuild]
  variant := by decide +kernel
  needs := by decide +kernel

theorem freeOfPlaceholder_redeclaredBuild :
    redeclaredBuild.FreeOfPlaceholder redeclaredFile.bundle.bundle := by
  refine ⟨?_, ?_, ?_⟩ <;> unfold LacksPlaceholder Text.Lacks <;> decide +kernel

/-- A later bundle takes the template. The file of the first bundle registers the text of a
member with a shadow tree. The registry holds the member of the second bundle, which has none, so no
template is made. -/
theorem later_bundle_takes_template :
    redeclaredFile.IsOf redeclaredBuild.compiled ∧ (redeclaredFile.members.map (·.tag)).Nodup ∧
      redeclaredBuild.FreeOfPlaceholder redeclaredFile.bundle.bundle ∧
      StandsInJson (redeclaredFile.id {} verbatim) ∧
      redeclaredFile.handsOver? {} verbatim = some (redeclaredBuild.layered redeclaredFile) ∧
      (let host : DocumentLog := { nativeShadow := true }
      let l := ((redeclaredBuild.loader host {}).registerBundle
        (redeclaredBuild.layered redeclaredFile)).1
      ¬ ∀ c ∈ redeclaredFile.members, c.encapsulation = .shadowDom → l.template? c.tag =
        if layeredText redeclaredBuild.anew redeclaredFile.layers c = "" then none
        else some (layeredText redeclaredBuild.anew redeclaredFile.layers c)) := by
  have hid : StandsInJson (redeclaredFile.id {} verbatim) := by decide +kernel
  have hhands := @StyleFile.handsOver?_eq redeclaredBuild redeclaredFile rfl isOf_redeclaredFile rfl
    freeOfPlaceholder_redeclaredBuild hid
  refine ⟨isOf_redeclaredFile, by decide, freeOfPlaceholder_redeclaredBuild, hid, hhands, ?_⟩
  intro host l h
  have hmember : redeclaredFile.members.getLast (by decide) ∈ redeclaredFile.members :=
    List.getLast_mem _
  have htemplate := h _ hmember (by decide)
  have hnone : l.template? "x-a" = none := by decide +kernel
  have htext : layeredText redeclaredBuild.anew redeclaredFile.layers
      (redeclaredFile.members.getLast (by decide)) = "h1\x7b\x7d" := by decide +kernel
  rw [htext, if_neg (by decide)] at htemplate
  cases hnone.symm.trans htemplate

end ComponentBundle
