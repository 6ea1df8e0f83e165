import ComponentBundle.FileTree
import ComponentBundle.Proofs.FilePath

/-!
# Spellings of a path in a file tree

A walk through a tree follows the components of a path, so all spellings of a path read the same
file (`FileTree.read_congr`). Only the size of the text can tell them apart: separators and dots
that repeat add no component, but a path with too many of them is refused.
-/

namespace ComponentBundle

namespace FilePath

theorem mem_pieces {x : Char} (hx : x ≠ '/') (s : List Char) :
    x ∈ s ↔ ∃ piece ∈ pieces s, x ∈ piece := by
  induction s with
  | nil => simp [pieces]
  | cons c s ih =>
    obtain ⟨piece, more, h⟩ := List.exists_cons_of_ne_nil (pieces_ne_nil s)
    by_cases hc : c = '/'
    · subst hc
      rw [pieces_cons_slash, List.mem_cons, ih]
      simp [hx]
    · rw [pieces_cons hc s h, List.mem_cons, ih, h]
      simp only [List.mem_cons, exists_eq_or_imp]
      exact or_assoc.symm

theorem innerComponent?_of_mem {x : Char} (hx : x ≠ '.') {piece : List Char} (h : x ∈ piece) :
    innerComponent? piece = some (.name (String.ofList piece)) := by
  have hempty : piece ≠ [] := List.ne_nil_of_mem h
  have hhere : piece ≠ ['.'] := by
    rintro rfl
    exact hx (List.mem_singleton.1 h)
  have hup : piece ≠ ['.', '.'] := by
    rintro rfl
    rcases List.mem_cons.1 h with rfl | h
    · exact hx rfl
    · exact hx (List.mem_singleton.1 h)
  rw [innerComponent?, if_neg (by simp [hempty, hhere]), if_neg hup]

theorem innerComponent?_eq_name {piece : List Char} {n : String}
    (h : innerComponent? piece = some (.name n)) : n.toList = piece := by
  unfold innerComponent? at h
  split at h
  · cases h
  · split at h
    · cases h
    · obtain rfl := PathComponent.name.inj (Option.some.inj h)
      exact String.toList_ofList

theorem mem_components_name {p : FilePath} {n : String} :
    .name n ∈ p.components ↔
      ∃ piece ∈ pieces p.text.toList, innerComponent? piece = some (.name n) := by
  obtain ⟨first, rest, h⟩ := List.exists_cons_of_ne_nil (pieces_ne_nil p.text.toList)
  have hfirst : p.isAbsolute = true → first = [] := by
    intro habs
    obtain ⟨s, hs⟩ : ∃ s, p.text.toList = '/' :: s := by
      unfold isAbsolute at habs
      rw [beq_iff_eq, List.head?_eq_some_iff] at habs
      exact habs
    rw [hs, pieces_cons_slash] at h
    exact (List.cons.inj h).1.symm
  unfold components
  rw [h]
  simp only [List.mem_cons, exists_eq_or_imp]
  split
  · rename_i habs
    rw [hfirst habs]
    simp [innerComponent?]
  · split
    · rename_i hdot
      rw [hdot]
      simp [innerComponent?]
    · simp

theorem mem_text_iff {x : Char} (hslash : x ≠ '/') (hdot : x ≠ '.') (p : FilePath) :
    x ∈ p.text.toList ↔ ∃ n, .name n ∈ p.components ∧ x ∈ n.toList := by
  rw [mem_pieces hslash]
  constructor
  · rintro ⟨piece, hpiece, hx⟩
    refine ⟨String.ofList piece, ?_, by rwa [String.toList_ofList]⟩
    exact mem_components_name.2 ⟨piece, hpiece, innerComponent?_of_mem hdot hx⟩
  · rintro ⟨n, hn, hx⟩
    obtain ⟨piece, hpiece, hname⟩ := mem_components_name.1 hn
    exact ⟨piece, hpiece, innerComponent?_eq_name hname ▸ hx⟩

end FilePath

theorem FileTree.read_congr (tree : FileTree) {p q : FilePath} (h : compare p q = .eq)
    (hp : p.text.utf8ByteSize ≤ maxPathSize) (hq : q.text.utf8ByteSize ≤ maxPathSize) :
    tree.read p = tree.read q := by
  have hcomponents : p.components = q.components := FilePath.compare_eq_iff.1 h
  have hnull : p.text.toList.contains '\x00' = q.text.toList.contains '\x00' := by
    rw [Bool.eq_iff_iff, List.contains_iff_mem, List.contains_iff_mem,
      FilePath.mem_text_iff (by decide) (by decide), FilePath.mem_text_iff (by decide) (by decide),
      hcomponents]
  unfold read
  rw [hnull, hcomponents, if_neg (Nat.not_lt.2 hp), if_neg (Nat.not_lt.2 hq)]

end ComponentBundle
