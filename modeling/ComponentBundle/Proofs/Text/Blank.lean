import ComponentBundle.Text.Blank
import Mathlib.Data.List.TakeWhile

/-!
# Trimmed texts

A text is trimmed if no blank stands at its start or its end. Trimming leaves such a text as it is
(`trimChars_of_trimmed`), makes one of any text (`trimmed_trimChars`), and takes nothing but blanks
away (`trimChars_padded`).
-/

namespace ComponentBundle.Text

def Blank (s : List Char) : Prop := ∀ c ∈ s, isBlank c = true

theorem blank_nil : Blank [] := List.forall_mem_nil _

theorem blank_cons {c : Char} {s : List Char} (hc : isBlank c = true) (hs : Blank s) :
    Blank (c :: s) :=
  List.forall_mem_cons.2 ⟨hc, hs⟩

/-- Whether a text neither starts nor ends with a blank. -/
structure Trimmed (s : List Char) : Prop where
  head : ∀ c, s.head? = some c → isBlank c = false
  last : ∀ c, s.getLast? = some c → isBlank c = false

theorem trimStart_of_head {s : List Char} (h : ∀ c, s.head? = some c → isBlank c = false) :
    trimStart s = s := by
  cases s with
  | nil => rfl
  | cons c s => exact List.dropWhile_cons_of_neg (by simp [h c rfl])

theorem trimStart_append_of_blank {b : List Char} (h : Blank b) (s : List Char) :
    trimStart (b ++ s) = trimStart s := by
  unfold trimStart
  rw [List.dropWhile_append_of_pos h]

theorem head_trimStart {s : List Char} {c : Char} (h : (trimStart s).head? = some c) :
    isBlank c = false := by
  induction s with
  | nil => simp [trimStart] at h
  | cons d s ih =>
    unfold trimStart at h
    by_cases hd : isBlank d = true
    · rw [List.dropWhile_cons_of_pos hd] at h
      exact ih h
    · rw [List.dropWhile_cons_of_neg hd] at h
      obtain rfl := Option.some.inj h
      simpa using hd

theorem trimEnd_eq (s : List Char) : trimEnd s = (trimStart s.reverse).reverse := rfl

theorem trimEnd_of_last {s : List Char} (h : ∀ c, s.getLast? = some c → isBlank c = false) :
    trimEnd s = s := by
  rw [trimEnd_eq, trimStart_of_head, List.reverse_reverse]
  intro c hc
  exact h c (by rwa [List.head?_reverse] at hc)

theorem trimEnd_append_of_blank {b : List Char} (h : Blank b) (s : List Char) :
    trimEnd (s ++ b) = trimEnd s := by
  rw [trimEnd_eq, trimEnd_eq, List.reverse_append, trimStart_append_of_blank]
  exact fun c hc => h c (List.mem_reverse.1 hc)

theorem blankEnd_append_of_blank {b s : List Char} (h : Blank b)
    (hs : ∀ c, s.getLast? = some c → isBlank c = false) : blankEnd (s ++ b) = b := by
  have happend := trimEnd_append_blankEnd (s ++ b)
  rw [trimEnd_append_of_blank h, trimEnd_of_last hs] at happend
  exact List.append_cancel_left happend

theorem last_trimEnd {s : List Char} {c : Char} (h : (trimEnd s).getLast? = some c) :
    isBlank c = false := by
  rw [trimEnd_eq, List.getLast?_reverse] at h
  exact head_trimStart h

theorem head_trimEnd {s : List Char} (hs : ∀ c, s.head? = some c → isBlank c = false) {c : Char}
    (h : (trimEnd s).head? = some c) : isBlank c = false := by
  refine hs c ?_
  rw [← trimEnd_append_blankEnd s, List.head?_append, h, Option.some_or]

theorem trimmed_trimChars (s : List Char) : Trimmed (trimChars s) where
  head _ h := head_trimEnd (fun _ => head_trimStart) h
  last _ h := last_trimEnd h

theorem trimChars_of_trimmed {s : List Char} (h : Trimmed s) : trimChars s = s := by
  rw [trimChars, trimStart_of_head h.head, trimEnd_of_last h.last]

theorem trimStart_of_blank {s : List Char} (h : Blank s) : trimStart s = [] := by
  have happend := trimStart_append_of_blank h []
  rwa [List.append_nil] at happend

theorem trimChars_around {a b : List Char} (ha : Blank a) (hb : Blank b) (s : List Char) :
    trimChars (a ++ s ++ b) = trimChars s := by
  rw [trimChars, List.append_assoc, trimStart_append_of_blank ha, trimChars]
  cases hs : trimStart s with
  | nil =>
    have hblank : Blank (s ++ b) := by
      intro c hc
      rcases List.mem_append.1 hc with hc | hc
      · exact List.dropWhile_eq_nil_iff.1 hs c hc
      · exact hb c hc
    rw [trimStart_of_blank hblank]
  | cons c t =>
    have happend : trimStart (s ++ b) = trimStart s ++ b := by
      unfold trimStart at hs ⊢
      rw [List.dropWhile_append, hs, List.isEmpty_cons, if_neg Bool.false_ne_true]
    rw [happend, hs, trimEnd_append_of_blank hb]

theorem trimChars_padded {a b s : List Char} (ha : Blank a) (hb : Blank b) (hs : Trimmed s) :
    trimChars (a ++ s ++ b) = s := by
  rw [trimChars_around ha hb, trimChars_of_trimmed hs]

theorem trimChars_of_blank {s : List Char} (h : Blank s) : trimChars s = [] := by
  rw [trimChars, trimStart_of_blank h]
  rfl

theorem blankStart_padded {a b s : List Char} (ha : Blank a) (hs : Trimmed s) (hne : s ≠ []) :
    blankStart (a ++ s ++ b) = a := by
  obtain ⟨c, t, rfl⟩ := List.exists_cons_of_ne_nil hne
  unfold blankStart
  rw [List.append_assoc, List.takeWhile_append_of_pos ha, List.cons_append,
    List.takeWhile_cons_of_neg (by simp [hs.head c rfl]), List.append_nil]

theorem blankEnd_padded {a b s : List Char} (hb : Blank b) (hs : Trimmed s) (hne : s ≠ []) :
    blankEnd (a ++ s ++ b) = b := by
  have hrev : Trimmed s.reverse := by
    constructor
    · intro c hc
      exact hs.last c (by rwa [List.head?_reverse] at hc)
    · intro c hc
      exact hs.head c (by rwa [List.getLast?_reverse] at hc)
  have h := blankStart_padded (a := b.reverse) (b := a.reverse)
    (fun c hc => hb c (List.mem_reverse.1 hc)) hrev (by simpa using hne)
  unfold blankStart at h
  unfold blankEnd
  rw [List.reverse_append, List.reverse_append, ← List.append_assoc, h, List.reverse_reverse]

theorem trim_trim (s : String) : trim (trim s) = trim s := by
  unfold trim
  rw [String.toList_ofList, trimChars_of_trimmed (trimmed_trimChars _)]

end ComponentBundle.Text
