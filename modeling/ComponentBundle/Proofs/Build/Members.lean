import ComponentBundle.Proofs.Build.Emitted

/-!
# The registry of a build

The registry holds one component for each tag: the last member of the manifest with that tag, as it
was given except for its ids, which lead to what the build emitted of its bundle.

* `leadTo_of_isOf` : the ids of an emitted bundle lead to its variants, one for each mode;
* `registered_eq` : what is registered are the members of the manifest, in order;
* `registry_lists_members` : the registry of any build.
-/

namespace ComponentBundle

/-! ## Ids -/

/-- Whether ids lead to the variants that were emitted of a bundle: one id if no member declares a
mode, and else an id for each mode that the bundle offers. -/
structure BundleIds.LeadTo (ids : BundleIds) (b : ManifestBundle) (e : EmittedBundle) : Prop where
  single_iff : (∃ id, ids = .single id) ↔ ¬ b.DeclaresMode
  single : ∀ id, ids = .single id → ∃ v, e.variants = [v] ∧ v.bundleId = id
  keys : ∀ table, ids = .perMode table → ∀ mode, mode ∈ table.keys ↔ b.Offers mode
  perMode : ∀ table, ids = .perMode table → ∀ mode id,
    table.get? mode = some id ↔ ∃ v ∈ e.variants, v.mode = some mode ∧ v.bundleId = id

section Ids

variable {b : ManifestBundle} {e : EmittedBundle}

theorem bundleIds?_of_styled (h : e.IsOf b) (hmodes : b.DeclaresMode) :
    ∃ mode : EmittedVariant → String,
      e.bundleIds? =
        some (.perMode (SortedMap.ofList (e.variants.map fun v => (mode v, v.bundleId)))) ∧
      (e.variants.map mode).Nodup ∧ (∀ m, m ∈ e.variants.map mode ↔ b.Offers m) ∧
      ∀ v ∈ e.variants, v.mode = some (mode v) := by
  obtain ⟨modes, hvariants, hsorted, hmem⟩ := h.styled hmodes
  let mode := fun v : EmittedVariant => v.mode.getD ""
  have hmode : e.variants.map mode = modes := by
    have hgot := congrArg (List.map (Option.getD · "")) hvariants
    rw [List.map_map, List.map_map] at hgot
    exact hgot.trans (List.map_id modes)
  have hsome : ∀ v ∈ e.variants, v.mode = some (mode v) := by
    intro v hv
    have hv' : v.mode ∈ modes.map some := hvariants ▸ List.mem_map_of_mem hv
    obtain ⟨m, -, hm⟩ := List.mem_map.1 hv'
    show v.mode = some (v.mode.getD "")
    rw [← hm, Option.getD_some]
  have hne : e.variants ≠ [] := by
    obtain ⟨m, hm⟩ := exists_offered hmodes
    rw [← hmem, ← hmode] at hm
    exact List.ne_nil_of_mem (List.mem_map.1 hm).choose_spec.1
  refine ⟨mode, ?_, ?_, fun m => by rw [hmode, hmem], hsome⟩
  · rw [e.bundleIds?_eq, ← idsOfVariants_some mode (·.bundleId) (·.hasScoped) hne]
    refine congrArg idsOfVariants (List.map_congr_left fun v hv => ?_)
    rw [EmittedVariant.announced, ← hsome v hv]
  · rw [hmode]
    refine List.Pairwise.imp (fun {m n} hlt heq => ?_) hsorted
    rw [heq] at hlt
    exact String.lt_irrefl n hlt

theorem leadTo_of_isOf (h : e.IsOf b) : ∃ ids, e.bundleIds? = some ids ∧ ids.LeadTo b e := by
  by_cases hmodes : b.DeclaresMode
  · obtain ⟨mode, hids, hnodup, hmem, hsome⟩ := bundleIds?_of_styled h hmodes
    refine ⟨_, hids, ?_⟩
    constructor
    case single_iff => simp [hmodes]
    case single => simp
    case keys =>
      rintro _ ⟨⟩ m
      rw [SortedMap.mem_keys_ofList, List.map_map, ← hmem]
      rfl
    case perMode =>
      rintro _ ⟨⟩ m id
      rw [SortedMap.get?_ofList, SortedMap.lastValue?_eq_some_iff, List.mem_map]
      · refine exists_congr fun v => and_congr_right fun hv => ?_
        rw [Prod.mk.injEq, hsome v hv, Option.some.injEq]
      · rw [List.map_map]
        exact hnodup
  · obtain ⟨⟨mode, id, hasScoped, outcome⟩, hvariants, rfl⟩ := h.unstyled hmodes
    have hids : e.bundleIds? = some (.single id) := by
      rw [EmittedBundle.bundleIds?, hvariants]
    refine ⟨_, hids, ?_⟩
    constructor
    case single_iff => simp [hmodes]
    case single =>
      rintro _ ⟨⟩
      exact ⟨_, hvariants, rfl⟩
    case keys => simp
    case perMode => simp

end Ids

/-! ## Members -/

/-- A member with its bundle and what was emitted of that. -/
structure Membership where
  bundle : ManifestBundle
  emitted : EmittedBundle
  component : Component

/-- The members of bundles, one bundle after the other. -/
def memberships (bundles : List ManifestBundle) (emitted : List EmittedBundle) :
    List Membership :=
  (bundles.zip emitted).flatMap fun p => p.1.components.map fun c => ⟨p.1, p.2, c⟩

/-- A member as it is registered. -/
def Membership.registered (m : Membership) : Component :=
  { m.component with bundleIds := m.emitted.bundleIds? }

section Members

variable {bundles : List ManifestBundle} {emitted : List EmittedBundle}

theorem component_memberships
    (h : List.Forall₂ EmittedBundle.IsOf bundles emitted) :
    (memberships bundles emitted).map (·.component) = bundles.flatMap (·.components) := by
  unfold memberships
  induction h with
  | nil => rfl
  | cons _ _ ih =>
    rw [List.zip_cons_cons, List.flatMap_cons, List.flatMap_cons, List.map_append, ih, List.map_map]
    exact congrArg (· ++ _) (List.map_id _)

theorem registered_eq (h : List.Forall₂ EmittedBundle.IsOf bundles emitted) :
    emitted.flatMap EmittedBundle.registered =
      (memberships bundles emitted).map Membership.registered := by
  unfold memberships
  induction h with
  | nil => rfl
  | cons hof _ ih =>
    obtain ⟨ids, hids, -⟩ := leadTo_of_isOf hof
    rw [List.zip_cons_cons, List.flatMap_cons, List.flatMap_cons, List.map_append, ih, List.map_map,
      EmittedBundle.registered, hids, hof.components]
    refine congrArg (· ++ _) (List.map_congr_left fun c _ => ?_)
    rw [Function.comp, Membership.registered, hids]

theorem isOf_of_mem (h : List.Forall₂ EmittedBundle.IsOf bundles emitted)
    {m : Membership} (hm : m ∈ memberships bundles emitted) : m.emitted.IsOf m.bundle := by
  obtain ⟨⟨b, e⟩, hpair, hm⟩ := List.mem_flatMap.1 hm
  obtain ⟨c, -, rfl⟩ := List.mem_map.1 hm
  exact List.forall₂_zip h hpair

end Members

/-! ## The registry -/

/-- Whether a registry lists the members of bundles that were emitted like this. -/
structure Registry.Lists (registry : Registry) (bundles : List ManifestBundle)
    (emitted : List EmittedBundle) : Prop where
  emittedInOrder : List.Forall₂ (fun b e => e.components = b.components) bundles emitted
  allMembers :
    (memberships bundles emitted).map (·.component) = bundles.flatMap (·.components)
  increasing : registry.keys.Pairwise (· < ·)
  tags : ∀ tag, tag ∈ registry.keys ↔ ∃ b ∈ bundles, ∃ c ∈ b.components, c.tag = tag
  /-- The component of a tag is the last member with the tag, with ids of its own bundle. -/
  last : ∀ tag c, registry.get? tag = some c →
    ∃ before m after, memberships bundles emitted = before ++ m :: after ∧
      m.component.tag = tag ∧ (∀ later ∈ after, later.component.tag ≠ tag) ∧
      ∃ ids, ids.LeadTo m.bundle m.emitted ∧ c = { m.component with bundleIds := some ids }
  /-- It makes no difference to sort the members by their tags first. -/
  sorted : registry = .ofComponents
    ((emitted.flatMap EmittedBundle.registered).mergeSort fun a b => (compare a.tag b.tag).isLE)

theorem ofComponents_mergeSort (components : List Component) :
    Registry.ofComponents (components.mergeSort fun a b => (compare a.tag b.tag).isLE) =
      .ofComponents components := by
  unfold Registry.ofComponents
  have hsorted : (components.mergeSort fun a b => (compare a.tag b.tag).isLE).map
      (fun c => (c.tag, c)) = (components.map fun c => (c.tag, c)).mergeSort
        fun a b => (compare a.1 b.1).isLE := List.map_mergeSort fun a _ b _ => rfl
  rw [hsorted]
  exact SortedMap.ofList_mergeSort _

theorem lists_ofBundles {bundles : List ManifestBundle} {emitted : List EmittedBundle}
    (h : List.Forall₂ EmittedBundle.IsOf bundles emitted) :
    (Registry.ofBundles emitted).Lists bundles emitted := by
  have hcomponents := component_memberships h
  have hentries : (emitted.flatMap EmittedBundle.registered).map (fun c => (c.tag, c)) =
      (memberships bundles emitted).map fun m => (m.component.tag, m.registered) := by
    rw [registered_eq h, List.map_map]
    rfl
  constructor
  case emittedInOrder => exact h.imp fun b e hof => hof.components
  case allMembers => exact hcomponents
  case increasing =>
    exact List.pairwise_map.2 ((SortedMap.sorted _).imp compareOfLessAndEq_eq_lt.1)
  case tags =>
    intro tag
    rw [Registry.ofBundles, Registry.ofComponents, hentries, SortedMap.mem_keys_ofList,
      List.map_map]
    have htags : (memberships bundles emitted).map (fun m => m.component.tag) =
        (bundles.flatMap (·.components)).map (·.tag) := by
      rw [← hcomponents, List.map_map]
      rfl
    show tag ∈ (memberships bundles emitted).map (fun m => m.component.tag) ↔ _
    rw [htags]
    simp only [List.mem_map, List.mem_flatMap]
    exact ⟨fun ⟨c, ⟨b, hb, hc⟩, htag⟩ => ⟨b, hb, c, hc, htag⟩,
      fun ⟨b, hb, c, hc, htag⟩ => ⟨c, ⟨b, hb, hc⟩, htag⟩⟩
  case last =>
    intro tag c hc
    rw [Registry.ofBundles, Registry.ofComponents, hentries, SortedMap.get?_ofList] at hc
    obtain ⟨before, key, after, hsplit, hkey, hafter⟩ := SortedMap.split_of_lastValue? hc
    obtain rfl := Std.LawfulEqCmp.eq_of_compare hkey
    obtain ⟨ms, rest, hms, rfl, hrest⟩ := List.map_eq_append_iff.1 hsplit
    obtain ⟨m, later, rfl, hm, rfl⟩ := List.map_eq_cons_iff.1 hrest
    obtain ⟨htag, hregistered⟩ := Prod.mk.inj hm
    have hmem : m ∈ memberships bundles emitted := by simp [hms]
    obtain ⟨ids, hids, hlead⟩ := leadTo_of_isOf (isOf_of_mem h hmem)
    refine ⟨ms, m, later, hms, htag, fun n hn heq => ?_, ids, hlead, ?_⟩
    · refine hafter _ (List.mem_map_of_mem hn) ?_
      rw [heq]
      exact Std.ReflCmp.compare_self
    · rw [← hregistered, Membership.registered, hids]
  case sorted => exact (ofComponents_mergeSort _).symm

/-- **The registry of a build** lists the members of the manifest, in any context, whatever was
written before. -/
theorem registry_lists_members (config : Config) (world : StyleWorld) (ctx : BuildContext)
    (bundles : List ManifestBundle) :
    let results := (generateBundles config world ctx bundles).results
    results.registry.Lists (bundles.filter ManifestBundle.hasMembers) results.bundles ∧
      ∀ emitCache, (generateBundles config world { ctx with emitCache } bundles).results.registry =
        results.registry := by
  intro results
  refine ⟨lists_ofBundles (emitted_isOf config world ctx bundles), fun emitCache => ?_⟩
  exact (ofBundles_emitBundles config world.minifiers _ { cache := emitCache }).trans
    (ofBundles_emitBundles config world.minifiers _ { cache := ctx.emitCache }).symm

end ComponentBundle
