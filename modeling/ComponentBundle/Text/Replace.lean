/-!
# Replacing a word in a text

`replaceAll word new` rewrites every occurrence of `word`, found from left to right and without
overlap. An empty word occurs nowhere.
-/

namespace ComponentBundle.Text

/-- Every occurrence of a word, from the left and without overlap, becomes the new text. -/
def replaceChars (word new : List Char) : List Char → List Char
  | [] => []
  | c :: rest =>
    if word ≠ [] ∧ word.isPrefixOf (c :: rest) then
      new ++ replaceChars word new ((c :: rest).drop word.length)
    else
      c :: replaceChars word new rest
termination_by s => s.length
decreasing_by
  · rename_i h
    have := List.length_pos_iff.2 h.1
    simp only [List.length_drop, List.length_cons]
    omega
  · simp

/-- Every occurrence of a word, from the left and without overlap, becomes the new text. -/
def replaceAll (text word new : String) : String :=
  String.ofList (replaceChars word.toList new.toList text.toList)

theorem replaceChars_word_append {word : List Char} (h : word ≠ []) (new rest : List Char) :
    replaceChars word new (word ++ rest) = new ++ replaceChars word new rest := by
  obtain ⟨c, w, rfl⟩ := List.exists_cons_of_ne_nil h
  rw [List.cons_append, replaceChars,
    if_pos ⟨h, List.isPrefixOf_iff_prefix.2 (List.prefix_append (c :: w) rest)⟩]
  simp

end ComponentBundle.Text
