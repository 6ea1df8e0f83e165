import ComponentBundle.Proofs.Bundle.Layers
import Mathlib.Data.List.FinRange

/-!
# Variants share out the styles

The styles of all members, one member after the other, are shared out among the variants of their
bundle. Members may have equal styles, so a style is followed by its place in that list.

* `map_placesOfMode` : the styles of a mode are those at its places;
* `drawsFrom_of_layers` : layers take each of their places once, the `$` places first;
* `variants_share_out_styles` : a named style goes to one variant, a `$` style to every one.
-/

namespace ComponentBundle

/-! ## Places -/

section Places

variable {styles : List ModeStyles}

/-- The places of the styles of a mode. -/
def placesOfMode (styles : List ModeStyles) (mode : String) : List (Fin styles.length) :=
  (List.finRange styles.length).filter fun i => styles[i].mode == mode

theorem mem_placesOfMode {mode : String} {i : Fin styles.length} :
    i ∈ placesOfMode styles mode ↔ styles[i].mode = mode := by
  simp [placesOfMode]

theorem map_placesOfMode (styles : List ModeStyles) (mode : String) :
    (placesOfMode styles mode).map styles.get = stylesOfMode styles mode := by
  unfold placesOfMode stylesOfMode
  conv_rhs => rw [← List.map_get_finRange styles]
  rw [List.filter_map]
  rfl

theorem pairwise_placesOfMode (styles : List ModeStyles) (mode : String) :
    (placesOfMode styles mode).Pairwise (· < ·) :=
  (List.pairwise_lt_finRange styles.length).filter _

end Places

/-! ## Drawing styles -/

/-- Whether the styles of a variant are those at some places of a list: the `$` styles first, then
those of the variant's mode, each of them once and in the order of the list. -/
structure Variant.DrawsFrom (v : Variant) (styles : List ModeStyles)
    (places : List (Fin styles.length)) : Prop where
  styles_eq : v.styles = places.map styles.get
  once : places.Nodup
  mem_iff : ∀ i, i ∈ places ↔ styles[i].mode = defaultMode ∨ v.mode = some styles[i].mode
  layered : places.Pairwise fun i j =>
    styles[j].mode = defaultMode → styles[i].mode = defaultMode
  inOrder : places.Pairwise fun i j =>
    (styles[i].mode = defaultMode ↔ styles[j].mode = defaultMode) → i < j

theorem pairwise_layersOf (components : List Component) (mode : Option String) :
    (layersOf components mode).Pairwise fun lower upper =>
      lower = defaultMode ∧ upper ≠ defaultMode := by
  refine List.pairwise_append.2 ⟨?_, ?_, fun lower hlower upper hupper => ⟨?_, ?_⟩⟩
  · split
    · exact List.pairwise_singleton _ _
    · exact .nil
  · cases mode with
    | none => exact .nil
    | some mode => exact (List.pairwise_singleton _ mode).filter _
  · split at hlower
    · exact List.mem_singleton.1 hlower
    · cases hlower
  · simpa using (List.mem_filter.1 hupper).2

theorem mem_layersOf {components : List Component} {mode : Option String} {layer : String}
    (hlayer : layer ∈ bundleModes components) :
    layer ∈ layersOf components mode ↔ layer = defaultMode ∨ mode = some layer := by
  unfold layersOf
  rw [List.mem_append, List.mem_filter, Option.mem_toList]
  by_cases hdefault : layer = defaultMode
  · subst hdefault
    simp [hlayer]
  · have hlower : layer ∉ if defaultMode ∈ bundleModes components then [defaultMode] else [] := by
      split <;> simp [hdefault]
    simp [hlower, hdefault]

theorem pairwise_placesOfLayers {styles : List ModeStyles} {layers : List String}
    (hlayers : layers.Pairwise fun lower upper => lower = defaultMode ∧ upper ≠ defaultMode)
    {R : Fin styles.length → Fin styles.length → Prop}
    (hsame : ∀ i j, styles[i].mode = styles[j].mode → i < j → R i j)
    (hlayer : ∀ i j, styles[i].mode = defaultMode → styles[j].mode ≠ defaultMode → R i j) :
    (layers.flatMap (placesOfMode styles)).Pairwise R := by
  refine List.pairwise_flatMap.2 ⟨fun layer _ => ?_, hlayers.imp fun hmodes i hi j hj => ?_⟩
  · refine (pairwise_placesOfMode styles layer).imp_of_mem fun {i j} hi hj hlt => ?_
    exact hsame i j ((mem_placesOfMode.1 hi).trans (mem_placesOfMode.1 hj).symm) hlt
  · refine hlayer i j ?_ ?_
    · rw [mem_placesOfMode.1 hi, hmodes.1]
    · rw [mem_placesOfMode.1 hj]
      exact hmodes.2

/-- The layers of a variant take each of their places once. -/
theorem drawsFrom_of_layers {components : List Component} {styles : List ModeStyles}
    (hmodes : ∀ s ∈ styles, s.mode ∈ bundleModes components) {v : Variant}
    (hstyles : v.styles = (layersOf components v.mode).flatMap (stylesOfMode styles)) :
    v.DrawsFrom styles ((layersOf components v.mode).flatMap (placesOfMode styles)) := by
  have hlayers := pairwise_layersOf components v.mode
  constructor
  case styles_eq =>
    rw [hstyles, List.map_flatMap]
    exact List.flatMap_congr fun layer _ => (map_placesOfMode styles layer).symm
  case once =>
    refine pairwise_placesOfLayers hlayers (fun i j _ hlt => Fin.ne_of_lt hlt) ?_
    intro i j hi hj heq
    exact hj (heq ▸ hi)
  case mem_iff =>
    intro i
    have hmem : styles[i] ∈ styles := List.getElem_mem i.isLt
    rw [← mem_layersOf (hmodes styles[i] hmem), List.mem_flatMap]
    simp only [mem_placesOfMode, exists_eq_right']
  case layered =>
    exact pairwise_placesOfLayers hlayers (fun i j heq _ hj => heq.trans hj) fun i j hi _ _ => hi
  case inOrder =>
    refine pairwise_placesOfLayers hlayers (fun i j _ hlt _ => hlt) ?_
    intro i j hi hj hiff
    exact absurd (hiff.1 hi) hj

/-! ## Sharing out -/

/-- Whether a variant has a mode and another one a later mode. -/
def Variant.Precedes (v w : Variant) : Prop :=
  ∃ m n, v.mode = some m ∧ w.mode = some n ∧ m < n

/-- Whether variants share out the styles of members: their modes increase, a style of a named mode
has one of them to go to, and each of them draws its own styles and the `$` styles. -/
structure SharesOut (components : List Component) (styles : List ModeStyles)
    (variants : List Variant) : Prop where
  increasing : variants.Pairwise Variant.Precedes
  unstyled_iff : variants = [⟨none, []⟩] ↔ ∀ c ∈ components, c.styles.keys = []
  modeless : ∀ v ∈ variants, v.mode = none → variants = [⟨none, []⟩]
  default : ∀ v ∈ variants, v.mode = some defaultMode →
    ∀ c ∈ components, ∀ mode ∈ c.styles.keys, mode = defaultMode
  named : ∀ s ∈ styles, s.mode ≠ defaultMode → ∃! v, v ∈ variants ∧ v.mode = some s.mode
  draws : ∀ v ∈ variants, ∃ places, v.DrawsFrom styles places

theorem pairwise_bundleModes (components : List Component) :
    (bundleModes components).Pairwise (· < ·) :=
  List.pairwise_map.2 ((SortedMap.sorted _).imp compareOfLessAndEq_eq_lt.1)

theorem bundleModes_eq_nil_iff {components : List Component} :
    bundleModes components = [] ↔ ∀ c ∈ components, c.styles.keys = [] := by
  simp only [List.eq_nil_iff_forall_not_mem, mem_bundleModes, not_exists, not_and]
  exact ⟨fun h c hc mode => h mode c hc, fun h mode c hc => h c hc mode⟩

theorem mode_mem_bundleModes {env : StyleEnv} {components : List Component} {s : ModeStyles}
    (hs : s ∈ (compileMembers env components).1) : s.mode ∈ bundleModes components := by
  rw [styles_compileMembers] at hs
  obtain ⟨c, hc, hs⟩ := List.mem_flatMap.1 hs
  obtain ⟨mode, hmode, rfl⟩ := List.mem_map.1 hs
  rw [mode_compileMode]
  exact mem_bundleModes.2 ⟨c, hc, hmode⟩

theorem mem_bundleVariants_of_mode {modes : List String} {styles : List ModeStyles} {v : Variant}
    {mode : String} (hmode : v.mode = some mode) :
    v ∈ bundleVariants modes styles ↔
      mode ∈ offeredModes modes ∧ v = ⟨some mode, layeredStyles modes styles mode⟩ := by
  obtain ⟨vmode, vstyles⟩ := v
  obtain rfl : vmode = some mode := hmode
  rw [bundleVariants_eq]
  split
  · rename_i hnil
    have hnone : offeredModes modes = [] := offeredModes_eq_nil_iff.2 hnil
    simp [hnone]
  · rw [List.mem_map]
    constructor
    · rintro ⟨m, hm, heq⟩
      obtain ⟨hmode, -⟩ := Variant.mk.inj heq
      obtain rfl := Option.some.inj hmode
      exact ⟨hm, heq.symm⟩
    · rintro ⟨hm, heq⟩
      exact ⟨mode, hm, heq.symm⟩

theorem pairwise_bundleVariants {modes : List String} (hmodes : modes.Pairwise (· < ·))
    (styles : List ModeStyles) : (bundleVariants modes styles).Pairwise Variant.Precedes := by
  have hoffered := pairwise_offeredModes hmodes
  rw [bundleVariants_eq]
  split
  · exact List.pairwise_singleton _ _
  · exact List.pairwise_map.2 (hoffered.imp fun {m n} hlt => ⟨m, n, rfl, rfl, hlt⟩)

theorem eq_nil_of_mode_eq_none {modes : List String} {styles : List ModeStyles} {v : Variant}
    (hv : v ∈ bundleVariants modes styles) (hnone : v.mode = none) : modes = [] := by
  rw [bundleVariants_eq] at hv
  split at hv
  · assumption
  · obtain ⟨mode, -, rfl⟩ := List.mem_map.1 hv
    cases hnone

theorem bundleVariants_eq_unstyled_iff {modes : List String} {styles : List ModeStyles} :
    bundleVariants modes styles = [⟨none, []⟩] ↔ modes = [] := by
  constructor
  · intro h
    have hmem : ⟨none, []⟩ ∈ bundleVariants modes styles := h ▸ List.mem_singleton_self _
    exact eq_nil_of_mode_eq_none hmem rfl
  · intro hnil
    rw [bundleVariants_eq, if_pos hnil]

/-- **The variants of a bundle share out the styles of its members.** -/
theorem variants_share_out_styles (env : StyleEnv) (components : List Component) :
    SharesOut components (compileMembers env components).1
      (bundleVariants (bundleModes components) (compileMembers env components).1) := by
  constructor
  case increasing => exact pairwise_bundleVariants (pairwise_bundleModes components) _
  case unstyled_iff => exact bundleVariants_eq_unstyled_iff.trans bundleModes_eq_nil_iff
  case modeless =>
    exact fun v hv hnone => bundleVariants_eq_unstyled_iff.2 (eq_nil_of_mode_eq_none hv hnone)
  case default =>
    intro v hv hdefault c hc mode hmode
    have hoffered := ((mem_bundleVariants_of_mode hdefault).1 hv).1
    have hnamed := (mem_offeredModes.1 hoffered).2 rfl
    by_contra hne
    have hname : hasNamedMode (bundleModes components) = true :=
      hasNamedMode_iff.2 ⟨mode, mem_bundleModes.2 ⟨c, hc, hmode⟩, hne⟩
    rw [hnamed] at hname
    cases hname
  case named =>
    intro s hs hne
    have hoffered : s.mode ∈ offeredModes (bundleModes components) :=
      mem_offeredModes.2 ⟨mode_mem_bundleModes hs, fun h => absurd h hne⟩
    refine ⟨_, ⟨(mem_bundleVariants_of_mode rfl).2 ⟨hoffered, rfl⟩, rfl⟩, fun w hw => ?_⟩
    exact ((mem_bundleVariants_of_mode hw.2).1 hw.1).2
  case draws =>
    intro v hv
    exact ⟨_, drawsFrom_of_layers (fun _ => mode_mem_bundleModes) (styles_of_variant hv)⟩

/-! ## Members that declare different modes -/

/-- Two members with one mode in common, of which the first one declares `$` as well. -/
def overlappingMembers : List Component :=
  [{ tag := "x-a"
     styles := .ofList [("dark", { inlineText := some "a" }), ("$", { inlineText := some "b" })] },
    { tag := "x-b"
      styles := .ofList [("light", { inlineText := some "c" }), ("dark", {})] }]

/-- The `$` style goes to both variants, and every other one to the variant of its mode, even if it
has no text. -/
theorem overlapping_modes_share_out :
    let styles := (compileMembers ⟨{}, ∅, none, emptyWorld⟩ overlappingMembers).1
    let variants := bundleVariants (bundleModes overlappingMembers) styles
    SharesOut overlappingMembers styles variants ∧
      variants.map (fun v => (v.mode, v.styles.map fun s => (s.tag, s.mode, s.plainText))) =
        [(some "dark", [("x-a", "$", "b"), ("x-a", "dark", "a"), ("x-b", "dark", "")]),
          (some "light", [("x-a", "$", "b"), ("x-b", "light", "c")])] :=
  ⟨variants_share_out_styles _ overlappingMembers, by decide +kernel⟩

end ComponentBundle
