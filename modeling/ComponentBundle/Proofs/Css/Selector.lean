import ComponentBundle.Proofs.Css.Compound
import ComponentBundle.Proofs.Text.Blank
import Mathlib.Data.List.Chain

/-!
# Selector lists

A selector is made of compound selectors with combinators between them, and a list of selectors has
commas and blanks between them. What is printed are segments: texts that stay as they are, and
compound selectors (`render`).

* `Selector.passes` : scanners pass a selector as a whole;
* `scopeSelectors_list` : scoping a list keeps the texts and scopes every compound selector.
-/

namespace ComponentBundle.Css
open Text

/-! ## Segments -/

/-- A part of a printed style sheet. -/
inductive Segment where
  | text (s : List Char)
  | compound (c : Compound)

/-- The text of segments, given those of the compound selectors. -/
def render (f : Compound → List Char) (l : List Segment) : List Char :=
  l.flatMap fun
    | .text s => s
    | .compound c => f c

section Render

variable (f : Compound → List Char)

theorem render_append (l m : List Segment) : render f (l ++ m) = render f l ++ render f m :=
  List.flatMap_append

theorem render_text (s : List Char) (l : List Segment) :
    render f (.text s :: l) = s ++ render f l := List.flatMap_cons

theorem render_compound (c : Compound) (l : List Segment) :
    render f (.compound c :: l) = f c ++ render f l := List.flatMap_cons

end Render

def compoundsOf (l : List Segment) : List Compound :=
  l.filterMap fun
    | .text _ => none
    | .compound c => some c

theorem render_eq_iff {f g : Compound → List Char} (hlen : ∀ c, (f c).length = (g c).length)
    {l : List Segment} : render f l = render g l ↔ ∀ c ∈ compoundsOf l, f c = g c := by
  induction l with
  | nil => exact iff_of_true rfl (fun c hc => by cases hc)
  | cons segment l ih =>
    cases segment with
    | text s =>
      rw [render_text, render_text, List.append_cancel_left_eq]
      exact ih
    | compound c =>
      have hmem : ∀ d, d ∈ compoundsOf (.compound c :: l) ↔ d = c ∨ d ∈ compoundsOf l :=
        fun d => List.mem_cons
      rw [render_compound, render_compound]
      constructor
      · intro h d hd
        obtain ⟨hc, hl⟩ := List.append_inj h (hlen c)
        rcases (hmem d).1 hd with rfl | hd
        · exact hc
        · exact ih.1 hl d hd
      · intro h
        rw [h c ((hmem c).2 (.inl rfl)), ih.2 fun d hd => h d ((hmem d).2 (.inr hd))]

/-! ## Selectors -/

/-- A combinator sign or a compound selector. -/
inductive Step where
  | sign (c : Char) (h : isCombinator c = true)
  | compound (c : Compound)

def Step.segment : Step → Segment
  | sign c _ => .text [c]
  | compound c => .compound c

/-- Whether a step may follow another one: compound selectors have a combinator between them. -/
def Step.Follows : Step → Step → Prop
  | compound _, compound _ => False
  | _, _ => True

/-- One selector of a list, with the blanks around it. It may have no steps at all. -/
structure Selector where
  lead : List Char
  steps : List Step
  trail : List Char
  blankLead : Blank lead
  blankTrail : Blank trail
  follows : steps.IsChain Step.Follows
  trimmed : Trimmed (render Compound.text (steps.map Step.segment))

def Selector.segments (i : Selector) : List Segment :=
  .text i.lead :: (i.steps.map Step.segment ++ [.text i.trail])

def Selector.text (i : Selector) : List Char := render Compound.text i.segments

def listSegments : List Selector → List Segment
  | [] => []
  | [i] => i.segments
  | i :: j :: rest => i.segments ++ .text [','] :: listSegments (j :: rest)

/-- The list of selectors in front of a block. It starts with a selector: not with the `@` of an
at-rule, and neither with a blank nor with a comment, which are in front of the list. -/
structure SelectorList where
  selectors : List Selector
  first : ∃ c s, render Compound.text (listSegments selectors) = c :: s ∧ c ≠ '@' ∧
    isAsciiBlank c = false ∧ ¬ (c = '/' ∧ s.head? = some '*')
  last : ∀ c, (render Compound.text (listSegments selectors)).getLast? = some c →
    isBlank c = false

def SelectorList.segments (l : SelectorList) : List Segment := listSegments l.selectors

def SelectorList.text (l : SelectorList) : List Char := render Compound.text l.segments

section Selectors

variable {f : Compound → List Char}

theorem render_selector (i : Selector) :
    render f i.segments = i.lead ++ render f (i.steps.map Step.segment) ++ i.trail := by
  rw [Selector.segments, render_text, render_append, render_text, List.append_assoc]
  show _ = i.lead ++ (_ ++ i.trail)
  rw [show render f [] = [] from rfl, List.append_nil]

theorem render_list_cons (i j : Selector) (rest : List Selector) :
    render f (listSegments (i :: j :: rest)) =
      render f i.segments ++ ',' :: render f (listSegments (j :: rest)) := by
  rw [listSegments, render_append, render_text]
  rfl

end Selectors

/-! ## Passing -/

theorem sign_or_blank {c : Char} (h : isCombinator c = true ∨ isBlank c = true) :
    c ≠ '{' ∧ c ≠ '}' ∧ c ≠ ';' ∧ c ≠ ',' ∧ c ≠ '/' ∧ c ≠ '*' ∧ isQuote c = false ∧
      isBracket c = false := by
  have hne : ∀ d : Char, isCombinator d = false → isBlank d = false → c ≠ d := by
    rintro d hcomb hblank rfl
    rcases h with h | h
    · rw [hcomb] at h
      cases h
    · rw [hblank] at h
      cases h
  have hquote : isQuote c = false := by
    simp [isQuote, hne '"' (by decide) (by decide), hne '\'' (by decide) (by decide)]
  have hbracket : isBracket c = false := by
    simp [isBracket, hne '(' (by decide) (by decide), hne ')' (by decide) (by decide),
      hne '[' (by decide) (by decide), hne ']' (by decide) (by decide)]
  exact ⟨hne _ (by decide) (by decide), hne _ (by decide) (by decide),
    hne _ (by decide) (by decide), hne _ (by decide) (by decide), hne _ (by decide) (by decide),
    hne _ (by decide) (by decide), hquote, hbracket⟩

/-- Whether a scanner passes single combinators and blanks at some depth. -/
def Scanner.PassesSigns (sc : Scanner) (d : Nat) : Prop :=
  ∀ c, isCombinator c = true ∨ isBlank c = true → sc.stops d c = false ∧ sc.weigh c d = d

theorem Scanner.ReadsBraces.passesSigns {sc : Scanner} (h : sc.ReadsBraces) (d : Nat) :
    sc.PassesSigns d := by
  intro c hc
  obtain ⟨h1, h2, h3, -⟩ := sign_or_blank hc
  exact h.other c d h1 h2 h3

theorem commaScanner_passesSigns : (delimiterScanner ',').PassesSigns 0 := by
  intro c hc
  obtain ⟨-, -, -, h, -, -, -, hbracket⟩ := sign_or_blank hc
  simp [delimiterScanner, h, weighBrackets_of_not_bracket hbracket]

section Passing

variable {sc : Scanner} {inner : Nat → Prop} {d : Nat}

theorem passes_sign (hsigns : sc.PassesSigns d) {c : Char}
    (h : isCombinator c = true ∨ isBlank c = true) (rest : List Char) : Passes sc d [c] rest := by
  obtain ⟨hstop, hweigh⟩ := hsigns c h
  obtain ⟨-, -, -, -, hslash, -, hquote, -⟩ := sign_or_blank h
  exact passes_char hstop hweigh hquote fun hc => absurd hc hslash

theorem passes_blank (hsigns : sc.PassesSigns d) {s : List Char} (h : Blank s)
    (rest : List Char) : Passes sc d s rest := by
  induction s with
  | nil => exact passes_nil rest
  | cons c s ih =>
    exact (passes_sign hsigns (.inr (h c List.mem_cons_self)) _).append
      (ih fun x hx => h x (List.mem_cons_of_mem _ hx))

theorem head_blank_append {b rest : List Char} (hb : Blank b) (hrest : rest.head? ≠ some '*') :
    (b ++ rest).head? ≠ some '*' := by
  cases b with
  | nil => exact hrest
  | cons c b =>
    intro h
    obtain rfl := Option.some.inj h
    have hblank := hb _ List.mem_cons_self
    revert hblank
    decide

theorem head_steps {c : Compound} {steps : List Step}
    (h : (Step.compound c :: steps).IsChain Step.Follows) {rest : List Char}
    (hrest : rest.head? ≠ some '*') :
    (render Compound.text (steps.map Step.segment) ++ rest).head? ≠ some '*' := by
  cases steps with
  | nil => exact hrest
  | cons step steps =>
    cases step with
    | sign x hx =>
      intro hstar
      obtain rfl := Option.some.inj hstar
      cases hx
    | compound c' => exact absurd (List.isChain_cons_cons.1 h).1 id

theorem passes_steps (hw : sc.Walks compoundText inner) (hsigns : sc.PassesSigns d)
    {steps : List Step} (h : steps.IsChain Step.Follows) {rest : List Char}
    (hrest : rest.head? ≠ some '*') :
    Passes sc d (render Compound.text (steps.map Step.segment)) rest := by
  induction steps with
  | nil => exact passes_nil rest
  | cons step steps ih =>
    have hsteps : steps.IsChain Step.Follows := h.tail
    cases step with
    | sign c hc =>
      rw [List.map_cons, Step.segment, render_text]
      exact (passes_sign hsigns (.inl hc) _).append (ih hsteps)
    | compound c =>
      rw [List.map_cons, Step.segment, render_compound]
      exact (c.closed.passes hw (by simp) (head_steps h hrest)).append (ih hsteps)

theorem Selector.passes (hw : sc.Walks compoundText inner) (hsigns : sc.PassesSigns d)
    (i : Selector) {rest : List Char} (hrest : rest.head? ≠ some '*') :
    Passes sc d i.text rest := by
  have htrail : Passes sc d i.trail rest := passes_blank hsigns i.blankTrail rest
  have hsteps : Passes sc d (render Compound.text (i.steps.map Step.segment)) (i.trail ++ rest) :=
    passes_steps hw hsigns i.follows (head_blank_append i.blankTrail hrest)
  unfold Selector.text
  rw [render_selector, List.append_assoc]
  exact (passes_blank hsigns i.blankLead _).append (hsteps.append htrail)

theorem passes_list (hreads : sc.ReadsBraces) (l : List Selector) {rest : List Char}
    (hrest : rest.head? ≠ some '*') :
    Passes sc d (render Compound.text (listSegments l)) rest := by
  have hw := hreads.walks_compound
  have hsigns := hreads.passesSigns d
  induction l with
  | nil => exact passes_nil rest
  | cons i l ih =>
    cases l with
    | nil => exact i.passes hw hsigns hrest
    | cons j l =>
      obtain ⟨hstop, hweigh⟩ := hreads.other ',' d (by decide) (by decide) (by decide)
      rw [render_list_cons]
      exact (i.passes hw hsigns (by simp)).append
        ((passes_char hstop hweigh rfl fun h => absurd h (by decide)).append ih)

end Passing

/-! ## Scoping -/

section Scoping

variable (scope : Scope)

/-- How scoping reads a compound selector. -/
def scopedText (c : Compound) : List Char := scopeCompound scope c.text

theorem scopeComplex_steps {steps : List Step} (h : steps.IsChain Step.Follows) :
    scopeComplex scope (render Compound.text (steps.map Step.segment)) =
      render (scopedText scope) (steps.map Step.segment) := by
  induction steps with
  | nil => simp [render, scopeComplex]
  | cons step steps ih =>
    have hsteps : steps.IsChain Step.Follows := h.tail
    cases step with
    | sign c hc =>
      rw [List.map_cons, Step.segment, render_text, render_text, List.singleton_append,
        scopeComplex, dif_pos hc, ih hsteps]
      rfl
    | compound c =>
      obtain ⟨x, s, hx⟩ := List.exists_cons_of_ne_nil c.text_ne_nil
      have hhead : isCombinator x = false :=
        (c.closed.head_compound (by rw [hx]; rfl)).1
      have hpasses : Passes compoundScanner 0 c.text
          (render Compound.text (steps.map Step.segment)) := by
        have hnil : ([] : List Char).head? ≠ some '*' := by simp
        have hnext := head_steps h hnil
        rw [List.append_nil] at hnext
        exact c.closed.passes compoundScanner_walks (by simp) hnext
      -- the cut ends at the next step, which is a combinator, or with the text
      have hcut : cut compoundScanner 0 (c.text ++ render Compound.text (steps.map Step.segment)) =
          (c.text, render Compound.text (steps.map Step.segment)) := by
        cases steps with
        | nil =>
          have hend : Passes compoundScanner 0 c.text [] := hpasses
          rw [List.map_nil, show render Compound.text [] = [] from rfl, List.append_nil]
          exact hend.cut_end
        | cons next steps =>
          cases next with
          | sign y hy => exact hpasses.cut_eq (by simp [compoundScanner, hy])
          | compound c' => exact absurd (List.isChain_cons_cons.1 h).1 id
      rw [List.map_cons, Step.segment, render_compound, render_compound, ← ih hsteps]
      rw [hx, List.cons_append] at hcut ⊢
      rw [scopeComplex, dif_neg (by simp [hhead]), hcut, ← hx]
      rfl

theorem scopeListItem_selector (i : Selector) :
    scopeListItem scope i.text = render (scopedText scope) i.segments := by
  unfold scopeListItem Selector.text
  rw [render_selector, render_selector]
  -- a selector of blanks alone is kept as it is, and has no compound selectors
  by_cases hempty : render Compound.text (i.steps.map Step.segment) = []
  · have hsteps : i.steps = [] := by
      cases hs : i.steps with
      | nil => rfl
      | cons step steps =>
        rw [hs, List.map_cons] at hempty
        cases step with
        | sign c _ => simp [Step.segment, render_text] at hempty
        | compound c =>
          rw [Step.segment, render_compound] at hempty
          exact absurd (List.append_eq_nil_iff.1 hempty).1 c.text_ne_nil
    have hblank : Blank (i.lead ++ render Compound.text (i.steps.map Step.segment) ++ i.trail) := by
      rw [hempty, List.append_nil]
      intro c hc
      rcases List.mem_append.1 hc with hc | hc
      · exact i.blankLead c hc
      · exact i.blankTrail c hc
    rw [if_pos (trimChars_of_blank hblank), hsteps]
    rfl
  · rw [trimChars_padded i.blankLead i.blankTrail i.trimmed, if_neg hempty,
      blankStart_padded i.blankLead i.trimmed hempty, blankEnd_padded i.blankTrail i.trimmed hempty,
      scopeComplex_steps scope i.follows]

theorem splitTop_end {d : Char} {s piece : List Char}
    (h : cut (delimiterScanner d) 0 s = (piece, [])) : splitTop d s = [piece] := by
  rw [splitTop]
  split
  · rename_i piece' hcut
    obtain ⟨rfl, -⟩ := Prod.mk.inj (h.symm.trans hcut)
    rfl
  · rename_i piece' c rest hcut
    cases (Prod.mk.inj (h.symm.trans hcut)).2

theorem splitTop_cons {d c : Char} {s piece rest : List Char}
    (h : cut (delimiterScanner d) 0 s = (piece, c :: rest)) :
    splitTop d s = piece :: splitTop d rest := by
  rw [splitTop]
  split
  · rename_i piece' hcut
    cases (Prod.mk.inj (h.symm.trans hcut)).2
  · rename_i piece' c' rest' hcut
    obtain ⟨rfl, hrest⟩ := Prod.mk.inj (h.symm.trans hcut)
    obtain ⟨rfl, rfl⟩ := List.cons.inj hrest
    rfl

theorem splitTop_list {i : Selector} {l : List Selector} :
    splitTop ',' (render Compound.text (listSegments (i :: l))) = (i :: l).map Selector.text := by
  induction l generalizing i with
  | nil =>
    have hpasses : Passes (delimiterScanner ',') 0 i.text [] :=
      i.passes commaScanner_walks commaScanner_passesSigns (by simp)
    exact splitTop_end hpasses.cut_end
  | cons j l ih =>
    have hpasses : Passes (delimiterScanner ',') 0 i.text
        (',' :: render Compound.text (listSegments (j :: l))) :=
      i.passes commaScanner_walks commaScanner_passesSigns (by simp)
    rw [render_list_cons]
    exact (splitTop_cons (hpasses.cut_eq rfl)).trans (congrArg (i.text :: ·) ih)

theorem scopeSelectors_list (l : SelectorList) :
    scopeSelectors scope l.text = render (scopedText scope) l.segments := by
  obtain ⟨c, s, hfirst, -⟩ := l.first
  unfold scopeSelectors SelectorList.text SelectorList.segments
  cases hl : l.selectors with
  | nil =>
    rw [hl] at hfirst
    cases hfirst
  | cons i rest =>
    rw [splitTop_list]
    clear hl hfirst
    induction rest generalizing i with
    | nil =>
      simp [listSegments, List.intercalate, scopeListItem_selector]
    | cons j rest ih =>
      rw [render_list_cons, ← ih, ← scopeListItem_selector]
      simp [List.intercalate]

end Scoping

end ComponentBundle.Css
