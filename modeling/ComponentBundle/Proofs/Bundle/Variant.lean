import ComponentBundle.Bundle.Variant
import ComponentBundle.Proofs.SortedMap

/-!
# The modes of a bundle's variants

A bundle without modes has one variant without a mode. Otherwise every variant has a mode, and the
modes are those that the members declare, less `$` if a named mode is among them
(`bundleVariants_eq`, `mem_offeredModes`).
-/

namespace ComponentBundle

theorem mem_bundleModes {components : List Component} {mode : String} :
    mode ∈ bundleModes components ↔ ∃ c ∈ components, mode ∈ c.styles.keys := by
  unfold bundleModes
  rw [SortedMap.mem_keys_ofList, List.map_flatMap, List.mem_flatMap]
  simp

/-- The modes that a bundle with the given modes has variants for. -/
def offeredModes (modes : List String) : List String :=
  if hasDefaultMode modes && hasNamedMode modes then modes.filter (· != defaultMode) else modes

def layeredStyles (modes : List String) (styles : List ModeStyles) (mode : String) :
    List ModeStyles :=
  if hasDefaultMode modes && hasNamedMode modes then
    stylesOfMode styles defaultMode ++ stylesOfMode styles mode
  else stylesOfMode styles mode

theorem hasNamedMode_iff {modes : List String} :
    hasNamedMode modes = true ↔ ∃ mode ∈ modes, mode ≠ defaultMode := by
  simp [hasNamedMode]

theorem hasDefaultMode_iff {modes : List String} :
    hasDefaultMode modes = true ↔ defaultMode ∈ modes := by
  simp [hasDefaultMode]

theorem mem_offeredModes {modes : List String} {mode : String} :
    mode ∈ offeredModes modes ↔
      mode ∈ modes ∧ (mode = defaultMode → hasNamedMode modes = false) := by
  unfold offeredModes
  split
  · rename_i h
    rw [Bool.and_eq_true] at h
    rw [List.mem_filter, h.2]
    simp
  · rename_i h
    refine ⟨fun hmem => ⟨hmem, ?_⟩, And.left⟩
    rintro rfl
    rw [Bool.and_eq_true, not_and, hasDefaultMode_iff] at h
    exact Bool.eq_false_iff.2 (h hmem)

theorem pairwise_offeredModes {modes : List String} (h : modes.Pairwise (· < ·)) :
    (offeredModes modes).Pairwise (· < ·) := by
  unfold offeredModes
  split
  · exact h.filter _
  · exact h

theorem offeredModes_eq_nil_iff {modes : List String} : offeredModes modes = [] ↔ modes = [] := by
  constructor
  · intro h
    unfold offeredModes at h
    split at h
    · rename_i hboth
      rw [Bool.and_eq_true, hasNamedMode_iff] at hboth
      obtain ⟨mode, hmem, hne⟩ := hboth.2
      rw [List.filter_eq_nil_iff] at h
      exact absurd (by simpa using hne) (h mode hmem)
    · exact h
  · rintro rfl
    rfl

theorem bundleVariants_eq (modes : List String) (styles : List ModeStyles) :
    bundleVariants modes styles =
      if modes = [] then [⟨none, []⟩]
      else (offeredModes modes).map fun mode => ⟨some mode, layeredStyles modes styles mode⟩ := by
  unfold bundleVariants offeredModes layeredStyles
  by_cases hboth : (hasDefaultMode modes && hasNamedMode modes) = true
  · have hne : modes ≠ [] := by
      rintro rfl
      simp [hasDefaultMode] at hboth
    simp only [hboth, hne, if_true, if_false]
  · simp only [hboth, Bool.false_eq_true, if_false]

end ComponentBundle
