import ComponentBundle.Proofs.Bundle.Payload
import ComponentBundle.Proofs.Bundle.Variant

/-!
# The layers of a payload

A variant of a named mode carries two layers if the bundle declares `$`: the `$` texts of all
members, then their texts for the mode. So the texts of one member, joined, are its `$` text and its
text for the mode, wherever those of other members stand between them.

* `styles_of_variant` : the styles of a variant are those of its layers;
* `payloadEntries_layers` : what the plain payload of the layers holds;
* `joinedText_layeredEntries` : the joined texts of a member.
-/

namespace ComponentBundle

/-! ## Texts of members -/

section Texts

variable (env : StyleEnv)

/-- The plain text of a component in a mode. -/
def plainTextOf (mode : String) (c : Component) : String := (compileMode env c mode).1.plainText

/-- The plain texts of a component in several modes, joined. -/
def layeredText (layers : List String) (c : Component) : String :=
  String.join (layers.map fun mode => plainTextOf env mode c)

variable {env} {mode : String} {c : Component}

theorem plainTextOf_undeclared (h : mode ∉ c.styles.keys) : plainTextOf env mode c = "" := by
  have hsources : c.styles.get? mode = none := by
    rwa [SortedMap.mem_keys, Bool.not_eq_true, Option.isSome_eq_false_iff,
      Option.isNone_iff_eq_none] at h
  have hjoined : (joinedStyles env c mode).plainText = "" := by
    unfold joinedStyles Component.plan
    rw [hsources]
    refine joinTexts_of_none fun t ht => ?_
    obtain ⟨source, hsource, -⟩ := List.mem_map.1 ht
    cases List.mem_mergeSort.1 hsource
  unfold plainTextOf
  rw [styles_compileMode, minifyIfConfigured, ModeStyles.minify, if_pos hjoined]
  split <;> exact hjoined

theorem mode_compileMode : (compileMode env c mode).1.mode = mode := by
  rw [styles_compileMode]
  unfold minifyIfConfigured ModeStyles.minify
  split
  · split <;> rfl
  · rfl

end Texts

/-! ## Layers of a variant -/

/-- The modes whose texts a variant carries, in order: `$` if a member declares it, and the mode of
the variant if that is a named one. -/
def layersOf (components : List Component) (mode : Option String) : List String :=
  (if defaultMode ∈ bundleModes components then [defaultMode] else []) ++
    mode.toList.filter (· ≠ defaultMode)

/-- The styles of a variant are those of its layers. -/
theorem styles_of_variant {components : List Component} {styles : List ModeStyles} {v : Variant}
    (hv : v ∈ bundleVariants (bundleModes components) styles) :
    v.styles = (layersOf components v.mode).flatMap (stylesOfMode styles) := by
  unfold layersOf
  rw [bundleVariants_eq] at hv
  split at hv
  · rename_i hmodes
    obtain rfl := List.mem_singleton.1 hv
    simp [hmodes]
  · obtain ⟨mode, hmode, rfl⟩ := List.mem_map.1 hv
    obtain ⟨hmem, hnamed⟩ := mem_offeredModes.1 hmode
    unfold layeredStyles
    by_cases hdefault : mode = defaultMode
    · subst hdefault
      simp [hmem, hnamed rfl]
    · have hname : hasNamedMode (bundleModes components) = true :=
        hasNamedMode_iff.2 ⟨mode, hmem, hdefault⟩
      by_cases hboth : defaultMode ∈ bundleModes components
      · simp [hboth, hasDefaultMode_iff.2 hboth, hname, hdefault]
      · have hnone : hasDefaultMode (bundleModes components) = false := by
          rw [Bool.eq_false_iff, ne_eq, hasDefaultMode_iff]
          exact hboth
        simp [hboth, hnone, hdefault]

theorem stylesOfMode_compileMembers (env : StyleEnv) (components : List Component)
    (mode : String) :
    stylesOfMode (compileMembers env components).1 mode =
      (components.filter (mode ∈ ·.styles.keys)).map fun c => (compileMode env c mode).1 := by
  have hone : ∀ c : Component,
      (c.styles.keys.map fun m => (compileMode env c m).1).filter (·.mode == mode) =
        if mode ∈ c.styles.keys then [(compileMode env c mode).1] else [] := by
    intro c
    have hmode : (fun s : ModeStyles => s.mode == mode) ∘ (fun m => (compileMode env c m).1) =
        (· == mode) := by
      funext m
      exact congrArg (· == mode) mode_compileMode
    rw [List.filter_map, hmode, List.filter_beq, c.styles.nodup_keys.count]
    split <;> rfl
  unfold stylesOfMode
  rw [styles_compileMembers]
  induction components with
  | nil => rfl
  | cons c components ih =>
    rw [List.flatMap_cons, List.filter_append, hone, ih, List.filter_cons]
    by_cases h : mode ∈ c.styles.keys <;> simp [h]

/-! ## Payloads of layers -/

section Payloads

variable (env : StyleEnv) (layers : List String) (components : List Component)

/-- The tags and plain texts of members, one layer after the other, without the empty ones. -/
def layeredEntries : List (String × String) :=
  (layers.flatMap fun mode => components.map fun c => (c.tag, plainTextOf env mode c)).filter
    (·.2 ≠ "")

/-- The plain payload of layers holds the texts of all members, layer by layer. -/
theorem payloadEntries_layers :
    payloadEntries false (layers.flatMap (stylesOfMode (compileMembers env components).1)) =
      layeredEntries env layers components := by
  unfold payloadEntries layeredEntries
  rw [List.map_flatMap, List.filter_flatMap, List.filter_flatMap]
  refine List.flatMap_congr fun mode _ => ?_
  rw [stylesOfMode_compileMembers, List.map_map, List.filter_map, List.filter_map,
    List.filter_filter]
  have hentry : (fun c : Component => (c.tag, plainTextOf env mode c)) =
      (fun s : ModeStyles => (s.tag, s.payloadText false)) ∘ fun c => (compileMode env c mode).1 :=
    funext fun c => Prod.ext (suits_compileMode env c mode).tag.symm rfl
  rw [hentry]
  refine congrArg _ (List.filter_congr fun c _ => ?_)
  -- a member that does not declare the mode has an empty text there, which is left out anyway
  by_cases hmode : mode ∈ c.styles.keys
  · simp [hmode]
  · have hempty : plainTextOf env mode c = "" := plainTextOf_undeclared hmode
    rw [← hentry]
    simp [hmode, hempty]

variable {env layers components}

/-- The joined texts of a member are those of the layers, if no other member has its tag. -/
theorem joinedText_layeredEntries (hnodup : (components.map (·.tag)).Nodup) {c : Component}
    (hc : c ∈ components) :
    joinedText (layeredEntries env layers components) c.tag = layeredText env layers c := by
  have hlayer : ∀ f : Component → String,
      joinedText (components.map fun d => (d.tag, f d)) c.tag = f c := by
    intro f
    induction components with
    | nil => cases hc
    | cons d components ih =>
      obtain ⟨hnew, hnodup⟩ := List.nodup_cons.1 hnodup
      rw [List.map_cons, joinedText_cons]
      rcases List.mem_cons.1 hc with rfl | hc
      · have hnone : c.tag ∉ (components.map fun d => (d.tag, f d)).map (·.1) := by
          rw [List.map_map]
          exact hnew
        rw [if_pos rfl, joinedText_of_notMem hnone, String.append_empty]
      · have hne : d.tag ≠ c.tag := fun h => hnew (List.mem_map.2 ⟨c, hc, h.symm⟩)
        rw [if_neg hne, String.empty_append, ih hnodup hc]
  unfold layeredEntries layeredText
  rw [joinedText_nonempty]
  induction layers with
  | nil => rfl
  | cons mode layers ih =>
    rw [List.flatMap_cons, joinedText_append, hlayer, ih, List.map_cons, String.join_cons]

end Payloads

end ComponentBundle
