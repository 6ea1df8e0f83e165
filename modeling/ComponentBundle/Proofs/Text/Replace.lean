import ComponentBundle.Text.Replace

/-!
# Where a word is replaced

A text that holds the word nowhere stays as it is (`replaceChars_of_lacks`). A character that the
word does not hold divides the text: what stands in front of it and what stands behind it are
rewritten apart (`replaceChars_append_cons`). If no character of the new text is one of the word, no
occurrence is left, not even one that overlapped another (`lacks_replaceChars`).
-/

namespace ComponentBundle.Text

/-- Whether a text holds a word nowhere. -/
def Lacks (word s : List Char) : Prop := ¬ word <:+: s

section Words

variable {word new a b s : List Char} {c : Char}

theorem replaceChars_of_lacks (h : Lacks word s) : replaceChars word new s = s := by
  induction s with
  | nil => rw [replaceChars]
  | cons c s ih =>
    rw [replaceChars, if_neg, ih fun hs => h (List.infix_cons hs)]
    exact fun hword => h (List.isPrefixOf_iff_prefix.1 hword.2).isInfix

theorem prefix_append_cons (hc : c ∉ word) : word <+: a ++ c :: b ↔ word <+: a := by
  constructor
  · intro h
    by_cases hlength : word.length ≤ a.length
    · exact List.prefix_of_prefix_length_le h (List.prefix_append a _) hlength
    · have hend : a ++ [c] <+: word := by
        refine List.prefix_of_prefix_length_le ⟨b, by simp⟩ h ?_
        rw [List.length_append, List.length_singleton]
        omega
      exact absurd (hend.subset (by simp)) hc
  · exact fun h => h.trans (List.prefix_append a _)

theorem replaceChars_append_cons (hc : c ∉ word) :
    replaceChars word new (a ++ c :: b) =
      replaceChars word new a ++ c :: replaceChars word new b := by
  induction a using replaceChars.induct word with
  | case1 =>
    have hword : ¬ (word ≠ [] ∧ word.isPrefixOf (c :: b)) := by
      rintro ⟨hne, hword⟩
      obtain ⟨d, w, rfl⟩ := List.exists_cons_of_ne_nil hne
      have hhead := (List.cons_prefix_cons.1 (List.isPrefixOf_iff_prefix.1 hword)).1
      exact hc (hhead ▸ List.mem_cons_self)
    simp only [List.nil_append, replaceChars, if_neg hword]
  | case2 d a hword ih =>
    have hprefix := List.isPrefixOf_iff_prefix.1 hword.2
    have hword' : word ≠ [] ∧ word.isPrefixOf (d :: (a ++ c :: b)) :=
      ⟨hword.1, List.isPrefixOf_iff_prefix.2 ((prefix_append_cons hc).2 hprefix)⟩
    have hdrop : (d :: (a ++ c :: b)).drop word.length = (d :: a).drop word.length ++ c :: b :=
      List.drop_append_of_le_length hprefix.length_le
    rw [List.cons_append, replaceChars, if_pos hword', hdrop, ih, replaceChars, if_pos hword,
      List.append_assoc]
  | case3 d a hword ih =>
    have hword' : ¬ (word ≠ [] ∧ word.isPrefixOf (d :: (a ++ c :: b))) := by
      rw [List.isPrefixOf_iff_prefix, ← List.cons_append, prefix_append_cons hc,
        ← List.isPrefixOf_iff_prefix]
      exact hword
    rw [List.cons_append, replaceChars, if_neg hword', ih, replaceChars, if_neg hword,
      List.cons_append]

theorem lacks_append_cons (hc : c ∉ word) :
    Lacks word (a ++ c :: b) ↔ Lacks word a ∧ Lacks word b := by
  unfold Lacks
  rw [← not_or]
  refine not_congr ⟨?_, ?_⟩
  · intro h
    induction a with
    | nil =>
      rcases List.infix_cons_iff.1 h with h | h
      · rw [← List.nil_append (c :: b), prefix_append_cons hc] at h
        exact .inl h.isInfix
      · exact .inr h
    | cons d a ih =>
      rcases List.infix_cons_iff.1 h with h | h
      · have hfront : word <+: d :: a := (prefix_append_cons hc).1 h
        exact .inl hfront.isInfix
      · exact (ih h).imp_left List.infix_cons
  · rintro (h | h)
    · exact h.trans (List.prefix_append a _).isInfix
    · exact h.trans ((List.suffix_cons c b).trans (List.suffix_append a _)).isInfix

theorem Lacks.append_left (ha : ∀ c ∈ a, c ∉ word) (hs : Lacks word s) : Lacks word (a ++ s) := by
  induction a with
  | nil => exact hs
  | cons c a ih =>
    refine (lacks_append_cons (a := []) (ha c List.mem_cons_self)).2 ⟨fun h => ?_, ?_⟩
    · rw [List.infix_nil] at h
      exact hs (h ▸ List.nil_infix)
    · exact ih fun d hd => ha d (List.mem_cons_of_mem _ hd)

/-! ## Words that are gone -/

/-- A part of the word that a rewritten text starts with is one that the text started with, because
it ends before the first new text. -/
theorem prefix_of_replaced {part : List Char} (hne : new ≠ []) (hnew : ∀ c ∈ new, c ∉ word)
    (hpart : ∀ c ∈ part, c ∈ word) (h : part <+: replaceChars word new s) : part <+: s := by
  induction part generalizing s with
  | nil => exact List.nil_prefix
  | cons d part ih =>
    cases s with
    | nil => rwa [replaceChars] at h
    | cons c s =>
      rw [replaceChars] at h
      split at h
      · obtain ⟨e, rest, rfl⟩ := List.exists_cons_of_ne_nil hne
        rw [List.cons_append, List.cons_prefix_cons] at h
        exact absurd (h.1 ▸ hpart d List.mem_cons_self) (hnew e List.mem_cons_self)
      · rw [List.cons_prefix_cons] at h ⊢
        exact ⟨h.1, ih (fun x hx => hpart x (List.mem_cons_of_mem _ hx)) h.2⟩

/-- No occurrence is left if the new text shares no character with the word. -/
theorem lacks_replaceChars (hword : word ≠ []) (hne : new ≠ []) (hnew : ∀ c ∈ new, c ∉ word)
    (s : List Char) : Lacks word (replaceChars word new s) := by
  induction s using replaceChars.induct word with
  | case1 =>
    rw [replaceChars, Lacks, List.infix_nil]
    exact hword
  | case2 c s hhead ih =>
    rw [replaceChars, if_pos hhead]
    exact ih.append_left hnew
  | case3 c s hhead ih =>
    rw [replaceChars, if_neg hhead]
    intro hinfix
    rcases List.infix_cons_iff.1 hinfix with hprefix | hinfix
    · -- an occurrence at the start would have been one of the text, and so be rewritten
      have hsame : replaceChars word new (c :: s) = c :: replaceChars word new s := by
        rw [replaceChars, if_neg hhead]
      rw [← hsame] at hprefix
      have hfront : word <+: c :: s := prefix_of_replaced hne hnew (fun _ hx => hx) hprefix
      exact hhead ⟨hword, List.isPrefixOf_iff_prefix.2 hfront⟩
    · exact ih hinfix

end Words

end ComponentBundle.Text
