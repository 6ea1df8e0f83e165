import ComponentBundle.Proofs.Css.Sheet

/-!
# Style sheets one behind another

A style sheet is complete if it leaves nothing open: its strings, comments and blocks are closed,
and behind its last statement stand only blanks and comments. Unlike the printed sheets of a
grammar, nothing is asked of its selectors, of the insides of its blocks or of stray braces.

* `Complete.scopeRules_append` : scoping a complete sheet in front of any text is scoping both one
  after the other;
* `trimChars_joinSheets_scoped` : so trimmed complete sheets may be joined by line ends
  before or after they are scoped, and be trimmed before or after.
-/

namespace ComponentBundle.Css
open Text

/-! ## Trivia in front of a sheet -/

theorem Trivia.append {a b : List Char} (ha : Trivia a) (hb : Trivia b) : Trivia (a ++ b) := by
  induction ha with
  | nil => exact hb
  | blank hc _ ih => exact .blank hc ih
  | @comment t s ht _ ih =>
    rw [List.cons_append, List.cons_append, List.append_assoc]
    exact .comment ht ih

theorem trivia_of_blank {a : List Char} (h : ∀ c ∈ a, isAsciiBlank c = true) : Trivia a := by
  induction a with
  | nil => exact .nil
  | cons c a ih => exact .blank (h c List.mem_cons_self) (ih fun d hd => h d (.tail c hd))

section Scoping

variable (scope : Scope) {a s t p body rest : List Char}

theorem Trivia.scopeRules_append (ha : Trivia a) (s : List Char) :
    scopeRules scope (a ++ s) = a ++ scopeRules scope s := by
  have hpasses : Passes statementScanner 0 a s := ha.passes statementScanner_readsBraces 0 s
  unfold Passes at hpasses
  obtain ⟨⟨text, tail⟩, hcut⟩ : ∃ parts, cut statementScanner 0 s = parts := ⟨_, rfl⟩
  rw [hcut] at hpasses
  match tail with
  | [] => rw [scopeRules_end scope hpasses, scopeRules_end scope hcut]
  | d :: inner =>
    by_cases hd : d = '{'
    · subst hd
      have htrivia := ha.leadingTrivia_append text
      rw [scopeRules_block scope hpasses rfl htrivia, scopeRules_block scope hcut rfl rfl]
      simp only [List.append_assoc]
    · rw [scopeRules_line scope hd hpasses, scopeRules_line scope hd hcut, List.append_assoc]

theorem Trivia.scopeRules_eq (ha : Trivia a) : scopeRules scope a = a := by
  have hnil : scopeRules scope [] = [] :=
    scopeRules_end scope (show cut statementScanner 0 [] = ([], []) by rw [cut])
  have h := ha.scopeRules_append scope []
  rwa [List.append_nil, hnil, List.append_nil] at h

/-! ## Complete sheets -/

/-- A style sheet that leaves nothing open: statements that end in a semicolon, in a brace that
closes nothing or in a closed block, and then blanks and comments. -/
inductive Complete : List Char → Prop where
  | trivia {s : List Char} : Trivia s → Complete s
  | line {p rest : List Char} {d : Char} : Closed preludeText false p → d = ';' ∨ d = '}' →
    Complete rest → Complete (p ++ d :: rest)
  | block {p body rest : List Char} : Closed preludeText false p → Closed bodyText false body →
    Complete rest → Complete (p ++ '{' :: (body ++ '}' :: rest))

theorem scopeRules_closedLine (hp : Closed preludeText false p) {d : Char} (hd : d = ';' ∨ d = '}')
    (rest : List Char) :
    scopeRules scope (p ++ d :: rest) = p ++ d :: scopeRules scope rest := by
  have hstop : statementScanner.stops 0 d = true ∧ d ≠ '{' ∧ d ≠ '*' := by
    rcases hd with rfl | rfl <;> decide
  have hpasses : Passes statementScanner 0 p (d :: rest) :=
    hp.passes statementScanner_readsBraces.walks_prelude (by simp) (by simpa using hstop.2.2)
  exact scopeRules_line scope hstop.2.1 (hpasses.cut_eq hstop.1)

theorem exists_scopeRules_closedBlock (hp : Closed preludeText false p)
    (hbody : Closed bodyText false body) :
    ∃ front, ∀ rest, scopeRules scope (p ++ '{' :: (body ++ '}' :: rest)) =
      front ++ scopeRules scope rest := by
  have hpasses (rest : List Char) :
      Passes statementScanner 0 p ('{' :: (body ++ '}' :: rest)) :=
    hp.passes statementScanner_readsBraces.walks_prelude (by simp) (by simp)
  have hblock (rest : List Char) := (passes_body hbody 0 rest).cut_eq (by rfl)
  have heq (rest : List Char) :=
    scopeRules_block scope ((hpasses rest).cut_eq (by rfl)) (hblock rest) rfl
  simp only [List.take_succ_cons, List.take_zero, List.drop_succ_cons, List.drop_zero] at heq
  exact ⟨_, heq⟩

/-- A complete sheet in front of another text is scoped apart from it. -/
theorem Complete.scopeRules_append (hs : Complete s) (t : List Char) :
    scopeRules scope (s ++ t) = scopeRules scope s ++ scopeRules scope t := by
  induction hs with
  | trivia hs => rw [hs.scopeRules_append, hs.scopeRules_eq]
  | line hp hd _ ih =>
    rw [List.append_assoc, List.cons_append, scopeRules_closedLine scope hp hd,
      scopeRules_closedLine scope hp hd, ih, List.append_assoc, List.cons_append]
  | block hp hbody _ ih =>
    obtain ⟨front, hfront⟩ := exists_scopeRules_closedBlock scope hp hbody
    rw [List.append_assoc, List.cons_append, List.append_assoc, List.cons_append, hfront, hfront,
      ih, List.append_assoc]

/-! ## Complete sheets in sequence -/

theorem Trivia.closed_append (ha : Trivia a) (hp : Closed preludeText false p) :
    Closed preludeText false (a ++ p) := by
  induction ha with
  | nil => exact hp
  | @blank c s hc _ ih =>
    have hplain : preludeText.plain false c = true ∧ c ≠ '/' := by
      unfold isAsciiBlank at hc
      simp only [Bool.or_eq_true, beq_iff_eq] at hc
      rcases hc with (((rfl | rfl) | rfl) | rfl) | rfl <;> decide
    exact .char hplain.1 (fun h => absurd h hplain.2) ih
  | @comment t s ht _ ih =>
    rw [List.cons_append, List.cons_append, List.append_assoc]
    exact .comment rfl ht ih

theorem Trivia.complete_append (ha : Trivia a) (hs : Complete s) : Complete (a ++ s) := by
  cases hs with
  | trivia hs => exact .trivia (ha.append hs)
  | line hp hd hrest =>
    rw [← List.append_assoc]
    exact .line (ha.closed_append hp) hd hrest
  | block hp hbody hrest =>
    rw [← List.append_assoc]
    exact .block (ha.closed_append hp) hbody hrest

theorem Complete.append (hs : Complete s) (ht : Complete t) : Complete (s ++ t) := by
  induction hs with
  | trivia hs => exact hs.complete_append ht
  | line hp hd _ ih =>
    rw [List.append_assoc, List.cons_append]
    exact .line hp hd ih
  | block hp hbody _ ih =>
    rw [List.append_assoc, List.cons_append, List.append_assoc, List.cons_append]
    exact .block hp hbody ih

/-- The texts two line ends apart. -/
def joinSheets (sheets : List (List Char)) : List Char := List.intercalate ['\n', '\n'] sheets

theorem joinSheets_cons {sheets : List (List Char)} (hne : sheets ≠ []) :
    joinSheets (s :: sheets) = s ++ (['\n', '\n'] ++ joinSheets sheets) := by
  obtain ⟨t, rest, rfl⟩ := List.exists_cons_of_ne_nil hne
  rw [joinSheets, List.intercalate_cons_cons, List.append_assoc]
  rfl

theorem trivia_lineEnds : Trivia ['\n', '\n'] := .blank rfl (.blank rfl .nil)

theorem scopeRules_joinSheets {sheets : List (List Char)} (h : ∀ s ∈ sheets, Complete s) :
    scopeRules scope (joinSheets sheets) = joinSheets (sheets.map (scopeRules scope)) := by
  induction sheets with
  | nil => exact Trivia.nil.scopeRules_eq scope
  | cons s sheets ih =>
    by_cases hne : sheets = []
    · subst hne
      simp [joinSheets]
    · have hs := h s List.mem_cons_self
      have hmap : sheets.map (scopeRules scope) ≠ [] := by simpa using hne
      rw [List.map_cons, joinSheets_cons hne, joinSheets_cons hmap, hs.scopeRules_append,
        trivia_lineEnds.scopeRules_append, ih fun t ht => h t (List.mem_cons_of_mem _ ht)]

theorem exists_joinSheets {sheets : List (List Char)}
    (h : ∀ s ∈ sheets, Trimmed s ∧ Complete s) :
    ∃ a core b, joinSheets sheets = a ++ core ++ b ∧ (∀ c ∈ a, c = '\n') ∧ (∀ c ∈ b, c = '\n') ∧
      Trimmed core ∧ Complete core := by
  have htrivia : ∀ {a : List Char}, (∀ c ∈ a, c = '\n') → Trivia a :=
    fun ha => trivia_of_blank fun c hc => by rw [ha c hc]; rfl
  induction sheets with
  | nil => exact ⟨[], [], [], rfl, by simp, by simp, ⟨by simp, by simp⟩, .trivia .nil⟩
  | cons s sheets ih =>
    obtain ⟨hs, hcomplete⟩ := h s List.mem_cons_self
    by_cases hne : sheets = []
    · subst hne
      exact ⟨[], s, [], by simp [joinSheets], by simp, by simp, hs, hcomplete⟩
    obtain ⟨a, core, b, hjoin, ha, hb, hcore, hcomplete'⟩ :=
      ih fun t ht => h t (List.mem_cons_of_mem _ ht)
    have hgap : ∀ c ∈ ['\n', '\n'] ++ a, c = '\n' := by simpa using ha
    rw [joinSheets_cons hne, hjoin]
    -- without a text of its own, the first sheet or the others only add line ends
    by_cases hsnil : s = []
    · subst hsnil
      exact ⟨['\n', '\n'] ++ a, core, b, by simp, hgap, hb, hcore, hcomplete'⟩
    by_cases hcorenil : core = []
    · subst hcorenil
      refine ⟨[], s, ['\n', '\n'] ++ a ++ b, by simp, by simp, fun c hc => ?_, hs, hcomplete⟩
      rcases List.mem_append.1 hc with hc | hc
      · exact hgap c hc
      · exact hb c hc
    · refine ⟨[], s ++ (['\n', '\n'] ++ a) ++ core, b, by simp, by simp, hb, ⟨?_, ?_⟩, ?_⟩
      · intro c hc
        obtain ⟨d, t, rfl⟩ := List.exists_cons_of_ne_nil hsnil
        exact hs.head c hc
      · intro c hc
        rw [List.getLast?_append_of_ne_nil _ hcorenil] at hc
        exact hcore.last c hc
      · rw [List.append_assoc]
        exact hcomplete.append ((htrivia hgap).complete_append hcomplete')

/-- Trimmed complete sheets may be joined before or after they are scoped, and what is joined
may be trimmed before or after. -/
theorem trimChars_joinSheets_scoped {sheets : List (List Char)}
    (h : ∀ s ∈ sheets, Trimmed s ∧ Complete s) :
    trimChars (joinSheets (sheets.map (scopeRules scope))) =
      trimChars (scopeRules scope (trimChars (joinSheets sheets))) := by
  obtain ⟨a, core, b, hjoin, ha, hb, hcore, hcomplete⟩ := exists_joinSheets h
  have hblank : ∀ {a : List Char}, (∀ c ∈ a, c = '\n') → Blank a :=
    fun ha c hc => by rw [ha c hc]; rfl
  have htrivia : ∀ {a : List Char}, (∀ c ∈ a, c = '\n') → Trivia a :=
    fun ha => trivia_of_blank fun c hc => by rw [ha c hc]; rfl
  have hscoped : scopeRules scope (a ++ core ++ b) = a ++ scopeRules scope core ++ b := by
    rw [List.append_assoc, (htrivia ha).scopeRules_append, hcomplete.scopeRules_append,
      (htrivia hb).scopeRules_eq, List.append_assoc]
  rw [← scopeRules_joinSheets scope fun s hs => (h s hs).2, hjoin, hscoped,
    trimChars_around (hblank ha) (hblank hb), trimChars_padded (hblank ha) (hblank hb) hcore]

end Scoping

end ComponentBundle.Css
