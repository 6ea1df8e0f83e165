import ComponentBundle.Proofs.Css.Selector

/-!
# Style sheets

A style sheet is a sequence of statements: style rules, lines that start with `@` and end in a
semicolon, and at-rules with a block. The block of a conditional group rule is a style sheet again,
that of any other at-rule stays as it is.

Scoping keeps the printed sheet but for its compound selectors (`scopeRules_sheet`). So it does what
it should exactly if it puts the scope in the right place of each of them
(`scopeCss_sheet_iff`).
-/

namespace ComponentBundle.Css
open Text

/-! ## Parts of a sheet -/

/-- Blanks and comments in front of a statement. -/
inductive Trivia : List Char → Prop where
  | nil : Trivia []
  | blank {c : Char} {s : List Char} : isAsciiBlank c = true → Trivia s → Trivia (c :: s)
  | comment {t s : List Char} : CommentBody t → Trivia s → Trivia ('/' :: '*' :: (t ++ s))

/-- The text of an at-rule in front of its block or its semicolon. -/
structure AtRule where
  text : List Char
  closed : Closed preludeText false text
  first : text.head? = some '@'

/-- Whether a text starts with the name of a conditional group rule, in any case, which a blank, a
parenthesis or the end of the text follows. -/
def NamesGroup (s : List Char) : Prop :=
  ∃ name tail, s = name ++ tail ∧ name.map Char.toLower ∈ conditionalRules ∧
    ∀ c, tail.head? = some c → isBlank c = true ∨ c = '('

/-- A style sheet, statement by statement. Blanks in front of a block are apart from what stands in
front of them. -/
inductive Sheet where
  | done (trivia : List Char) (htrivia : Trivia trivia)
  | rule (lead : List Char) (hlead : Trivia lead) (list : SelectorList) (gap : List Char)
    (hgap : Blank gap) (body : List Char) (hbody : Closed bodyText false body) (rest : Sheet)
  /-- An at-rule without a block. -/
  | line (lead : List Char) (hlead : Trivia lead) (head : AtRule) (rest : Sheet)
  /-- An at-rule whose block stays as it is. -/
  | verbatim (lead : List Char) (hlead : Trivia lead) (head : AtRule)
    (hlast : ∀ c, head.text.getLast? = some c → isBlank c = false)
    (hname : ¬ NamesGroup head.text) (gap : List Char) (hgap : Blank gap) (body : List Char)
    (hbody : Closed bodyText false body) (rest : Sheet)
  | group (lead : List Char) (hlead : Trivia lead) (head : AtRule)
    (hlast : ∀ c, head.text.getLast? = some c → isBlank c = false) (hname : NamesGroup head.text)
    (gap : List Char) (hgap : Blank gap) (inner rest : Sheet)

namespace Sheet

/-- The segments of a sheet. Only style rules outside blocks that stay as they are have compound
selectors. -/
def segments : Sheet → List Segment
  | done trivia _ => [.text trivia]
  | rule lead _ list gap _ body _ rest =>
    .text lead :: list.segments ++ .text (gap ++ '{' :: (body ++ ['}'])) :: rest.segments
  | line lead _ head rest => .text (lead ++ head.text ++ [';']) :: rest.segments
  | verbatim lead _ head _ _ gap _ body _ rest =>
    .text (lead ++ head.text ++ gap ++ '{' :: (body ++ ['}'])) :: rest.segments
  | group lead _ head _ _ gap _ inner rest =>
    .text (lead ++ head.text ++ gap ++ ['{']) :: inner.segments ++ .text ['}'] :: rest.segments

def text (sheet : Sheet) : List Char := render Compound.text sheet.segments

/-- The printed sheet with every compound selector qualified. -/
def qualified (scope : Scope) (sheet : Sheet) : List Char :=
  render (Compound.qualified scope) sheet.segments

/-- The compound selectors of the rules that are scoped. -/
def compounds (sheet : Sheet) : List Compound := compoundsOf sheet.segments

end Sheet

section Render

variable (f : Compound → List Char)

theorem render_rule (lead : List Char) (hlead : Trivia lead) (list : SelectorList)
    (gap : List Char) (hgap : Blank gap) (body : List Char) (hbody : Closed bodyText false body)
    (rest : Sheet) :
    render f (Sheet.rule lead hlead list gap hgap body hbody rest).segments =
      lead ++ (render f list.segments ++
        (gap ++ '{' :: (body ++ '}' :: render f rest.segments))) := by
  simp [Sheet.segments, render_text, render_append]

theorem render_line (lead : List Char) (hlead : Trivia lead) (head : AtRule) (rest : Sheet) :
    render f (Sheet.line lead hlead head rest).segments =
      lead ++ (head.text ++ ';' :: render f rest.segments) := by
  simp [Sheet.segments, render_text]

theorem render_verbatim (lead : List Char) (hlead : Trivia lead) (head : AtRule)
    (hlast : ∀ c, head.text.getLast? = some c → isBlank c = false)
    (hname : ¬ NamesGroup head.text) (gap : List Char) (hgap : Blank gap) (body : List Char)
    (hbody : Closed bodyText false body) (rest : Sheet) :
    render f (Sheet.verbatim lead hlead head hlast hname gap hgap body hbody rest).segments =
      lead ++ (head.text ++ (gap ++ '{' :: (body ++ '}' :: render f rest.segments))) := by
  simp [Sheet.segments, render_text]

theorem render_group (lead : List Char) (hlead : Trivia lead) (head : AtRule)
    (hlast : ∀ c, head.text.getLast? = some c → isBlank c = false) (hname : NamesGroup head.text)
    (gap : List Char) (hgap : Blank gap) (inner rest : Sheet) :
    render f (Sheet.group lead hlead head hlast hname gap hgap inner rest).segments =
      lead ++ (head.text ++
        (gap ++ '{' :: (render f inner.segments ++ '}' :: render f rest.segments))) := by
  simp [Sheet.segments, render_text, render_append]

end Render

/-! ## Cutting statements -/

section Passing

variable {sc : Scanner}

theorem Trivia.passes (hreads : sc.ReadsBraces) {s : List Char} (h : Trivia s) (d : Nat)
    (rest : List Char) : Passes sc d s rest := by
  have hslash := hreads.other '/' d (by decide) (by decide) (by decide)
  induction h with
  | nil => exact passes_nil rest
  | blank hc _ ih =>
    exact (passes_sign (hreads.passesSigns d) (.inr (isBlank_of_isAsciiBlank hc)) _).append ih
  | comment ht _ ih => exact (passes_comment hreads.comments hslash.1 hslash.2 ht _).append ih

theorem AtRule.passes (hreads : sc.ReadsBraces) (head : AtRule) (d : Nat) {rest : List Char}
    (hrest : rest.head? ≠ some '*') : Passes sc d head.text rest :=
  head.closed.passes hreads.walks_prelude (by simp) hrest

theorem passes_lead_head (hreads : sc.ReadsBraces) {lead : List Char} (hlead : Trivia lead)
    (head : AtRule) {gap : List Char} (hgap : Blank gap) (d : Nat) {rest : List Char}
    (hrest : rest.head? ≠ some '*') : Passes sc d (lead ++ (head.text ++ gap)) rest :=
  (hlead.passes hreads d _).append ((head.passes hreads d (head_blank_append hgap hrest)).append
    (passes_blank (hreads.passesSigns d) hgap rest))

theorem passes_lead_list (hreads : sc.ReadsBraces) {lead : List Char} (hlead : Trivia lead)
    (list : SelectorList) {gap : List Char} (hgap : Blank gap) (d : Nat) {rest : List Char}
    (hrest : rest.head? ≠ some '*') : Passes sc d (lead ++ (list.text ++ gap)) rest :=
  (hlead.passes hreads d _).append
    ((passes_list hreads list.selectors (head_blank_append hgap hrest)).append
      (passes_blank (hreads.passesSigns d) hgap rest))

theorem passes_block {d : Nat} {s t rest : List Char}
    (hs : Passes blockScanner (d + 1) s ('}' :: (t ++ rest))) (ht : Passes blockScanner d t rest) :
    Passes blockScanner d ('{' :: (s ++ '}' :: t)) rest := by
  unfold Passes at *
  have hopen : cut blockScanner d ('{' :: (s ++ '}' :: (t ++ rest))) =
      ('{' :: (cut blockScanner (d + 1) (s ++ '}' :: (t ++ rest))).1,
        (cut blockScanner (d + 1) (s ++ '}' :: (t ++ rest))).2) :=
    cut_char (by simp [blockScanner]) rfl (by simp)
  have hclose : cut blockScanner (d + 1) ('}' :: (t ++ rest)) =
      ('}' :: (cut blockScanner d (t ++ rest)).1, (cut blockScanner d (t ++ rest)).2) :=
    cut_char (by simp [blockScanner]) rfl (by simp)
  rw [List.cons_append, List.append_assoc, List.cons_append, hopen, hs, hclose, ht]
  simp

theorem passes_body {body : List Char} (h : Closed bodyText false body) (d : Nat)
    (rest : List Char) : Passes blockScanner d body ('}' :: rest) :=
  h.passes blockScanner_walks_body (by simp) (by simp)

theorem Sheet.passes (sheet : Sheet) (d : Nat) (rest : List Char) :
    Passes blockScanner d sheet.text rest := by
  have hreads := blockScanner_readsBraces
  unfold Sheet.text
  induction sheet generalizing d rest with
  | done trivia htrivia =>
    have htext : render Compound.text (Sheet.done trivia htrivia).segments = trivia := by
      simp [segments, render]
    rw [htext]
    exact htrivia.passes hreads d rest
  | rule lead hlead list gap hgap body hbody more ih =>
    rw [render_rule, ← List.append_assoc (render _ list.segments), ← List.append_assoc lead]
    exact (passes_lead_list hreads hlead list hgap d (by simp)).append
      (passes_block (passes_body hbody _ _) (ih d rest))
  | line lead hlead head more ih =>
    have hsemicolon : Passes blockScanner d [';'] (render Compound.text more.segments ++ rest) :=
      passes_char (by simp [blockScanner]) rfl rfl (by simp)
    rw [render_line]
    exact (hlead.passes hreads d _).append ((head.passes hreads d (by simp)).append
      (hsemicolon.append (ih d rest)))
  | verbatim lead hlead head hlast hname gap hgap body hbody more ih =>
    rw [render_verbatim, ← List.append_assoc head.text, ← List.append_assoc lead]
    exact (passes_lead_head hreads hlead head hgap d (by simp)).append
      (passes_block (passes_body hbody _ _) (ih d rest))
  | group lead hlead head hlast hname gap hgap inner more ihinner ih =>
    rw [render_group, ← List.append_assoc head.text, ← List.append_assoc lead]
    exact (passes_lead_head hreads hlead head hgap d (by simp)).append
      (passes_block (ihinner _ _) (ih d rest))

end Passing

theorem Trivia.leadingTrivia_append {lead : List Char} (h : Trivia lead) (s : List Char) :
    leadingTrivia (lead ++ s) = (lead ++ (leadingTrivia s).1, (leadingTrivia s).2) := by
  induction h with
  | nil => rfl
  | @blank d l hd _ ih =>
    have hlexeme : lexeme ⟨true, false⟩ d (l ++ s) = ([d], l ++ s) := by
      have hne : d ≠ '/' := by
        rintro rfl
        cases hd
      simp [lexeme, hne]
    rw [List.cons_append, leadingTrivia, if_pos (by simp [hd]), hlexeme]
    show (d :: (leadingTrivia (l ++ s)).1, (leadingTrivia (l ++ s)).2) = _
    rw [ih, List.cons_append]
  | @comment b l hb _ ih =>
    have hlexeme : lexeme ⟨true, false⟩ '/' ('*' :: (b ++ (l ++ s))) =
        ('/' :: '*' :: b, l ++ s) := by
      simp [lexeme, hb.commentTail_append]
    rw [List.cons_append, List.cons_append, List.append_assoc, leadingTrivia, if_pos (by simp),
      hlexeme]
    show ('/' :: '*' :: b ++ (leadingTrivia (l ++ s)).1, (leadingTrivia (l ++ s)).2) = _
    rw [ih]
    simp

theorem leadingTrivia_of {lead s : List Char} (h : Trivia lead) {c : Char} {t : List Char}
    (hs : s = c :: t) (hblank : isAsciiBlank c = false)
    (hcomment : ¬ (c = '/' ∧ t.head? = some '*')) : leadingTrivia (lead ++ s) = (lead, s) := by
  have hnone : leadingTrivia s = ([], s) := by
    subst hs
    rw [leadingTrivia, if_neg]
    simpa [hblank] using hcomment
  rw [h.leadingTrivia_append, hnone, List.append_nil]

/-! ## Group rules -/

theorem toLower_of_blank {c : Char} (h : isBlank c = true) : c.toLower = c := by
  unfold Char.toLower
  rw [dif_neg]
  intro hupper
  have hlow : 65 ≤ c.toNat := hupper.1
  have hhigh : c.toNat ≤ 90 := hupper.2
  unfold isBlank at h
  simp only [Bool.or_eq_true, Bool.and_eq_true, decide_eq_true_eq, beq_iff_eq] at h
  omega

theorem name_of_group {name : List Char} (h : name.map Char.toLower ∈ conditionalRules) {c : Char}
    (hc : c ∈ name) : isBlank c = false ∧ c ≠ '(' := by
  have hrules :
      (conditionalRules.all fun rule => rule.all fun d => !isBlank d && d != '(') = true := rfl
  -- letters alone change with the case, so what the name in lower case lacks the name lacks
  have hlower := List.all_eq_true.1 (List.all_eq_true.1 hrules _ h) c.toLower
    (List.mem_map.2 ⟨c, hc, rfl⟩)
  rw [Bool.and_eq_true, Bool.not_eq_true', bne_iff_ne] at hlower
  constructor
  · cases hblank : isBlank c with
    | false => rfl
    | true =>
      rw [toLower_of_blank hblank, hblank] at hlower
      cases hlower.1
  · rintro rfl
    exact hlower.2 rfl

theorem isConditional_iff {s : List Char} : isConditional s = true ↔ NamesGroup s := by
  unfold isConditional NamesGroup
  rw [List.contains_iff_mem]
  constructor
  · intro h
    refine ⟨_, s.dropWhile fun c => !isBlank c && c != '(', List.takeWhile_append_dropWhile.symm,
      h, fun c hc => ?_⟩
    have hstop := List.head?_dropWhile_not (fun c => !isBlank c && c != '(') s
    rw [hc] at hstop
    simpa [or_iff_not_imp_left] using hstop
  · rintro ⟨name, tail, rfl, hname, htail⟩
    have htake : (name ++ tail).takeWhile (fun c => !isBlank c && c != '(') = name := by
      rw [List.takeWhile_append_of_pos]
      · cases tail with
        | nil => simp
        | cons c tail =>
          rw [List.takeWhile_cons_of_neg, List.append_nil]
          rcases htail c rfl with h | h <;> simp [h]
      · intro c hc
        obtain ⟨hblank, hparen⟩ := name_of_group hname hc
        simp [hblank, hparen]
    rw [htake]
    exact hname

/-! ## Scoping statements -/

section Scoping

variable (scope : Scope) {css text front body inner rest close lead : List Char}

theorem scopeRules_end (hcut : cut statementScanner 0 css = (text, [])) :
    scopeRules scope css = text := by
  rw [scopeRules]
  split
  · rename_i heq
    exact (Prod.mk.inj (heq.symm.trans hcut)).1
  · rename_i heq
    cases (Prod.mk.inj (heq.symm.trans hcut)).2

theorem scopeRules_line {d : Char} (hd : d ≠ '{')
    (hcut : cut statementScanner 0 css = (text, d :: rest)) :
    scopeRules scope css = text ++ d :: scopeRules scope rest := by
  rw [scopeRules]
  split
  · rename_i heq
    cases (Prod.mk.inj (heq.symm.trans hcut)).2
  · rename_i heq
    obtain ⟨rfl, hrest⟩ := Prod.mk.inj (heq.symm.trans hcut)
    obtain ⟨rfl, rfl⟩ := List.cons.inj hrest
    rw [if_neg hd]

theorem scopeRules_block (hcut : cut statementScanner 0 css = (text, '{' :: inner))
    (hblock : cut blockScanner 0 inner = (body, close))
    (htrivia : leadingTrivia text = (lead, front)) :
    scopeRules scope css =
      lead ++ (if (trimEnd front).head? == some '@' then trimEnd front
        else scopeSelectors scope (trimEnd front)) ++ blankEnd front ++ '{' ::
      (if (trimEnd front).head? == some '@' && isConditional (trimEnd front) then
        scopeRules scope body else body) ++ close.take 1 ++ scopeRules scope (close.drop 1) := by
  rw [scopeRules]
  split
  · rename_i heq
    cases (Prod.mk.inj (heq.symm.trans hcut)).2
  · rename_i heq
    obtain ⟨rfl, hinner⟩ := Prod.mk.inj (heq.symm.trans hcut)
    obtain ⟨rfl, rfl⟩ := List.cons.inj hinner
    rw [if_pos rfl, hblock, htrivia]

theorem scopeRules_atBlock (hlead : Trivia lead) (head : AtRule)
    (hlast : ∀ c, head.text.getLast? = some c → isBlank c = false) {gap : List Char}
    (hgap : Blank gap) (hbody : Passes blockScanner 0 body ('}' :: rest)) :
    scopeRules scope (lead ++ (head.text ++ (gap ++ '{' :: (body ++ '}' :: rest)))) =
      lead ++ (head.text ++ (gap ++ '{' ::
        ((if isConditional head.text then scopeRules scope body else body) ++
          '}' :: scopeRules scope rest))) := by
  have hpasses := passes_lead_head statementScanner_readsBraces hlead head hgap 0
    (show ('{' :: (body ++ '}' :: rest)).head? ≠ some '*' by simp)
  have hcut := hpasses.cut_eq rfl
  obtain ⟨s, hs⟩ : ∃ s, head.text = '@' :: s := by
    cases h : head.text with
    | nil =>
      have hfirst := head.first
      rw [h] at hfirst
      cases hfirst
    | cons c s =>
      have hfirst := head.first
      rw [h] at hfirst
      obtain rfl := Option.some.inj hfirst
      exact ⟨s, rfl⟩
  have htrivia : leadingTrivia (lead ++ (head.text ++ gap)) = (lead, head.text ++ gap) :=
    leadingTrivia_of hlead (by rw [hs, List.cons_append]) (by decide) (by simp)
  rw [← List.append_assoc head.text, ← List.append_assoc lead,
    scopeRules_block scope hcut (hbody.cut_eq rfl) htrivia, trimEnd_append_of_blank hgap,
    trimEnd_of_last hlast, blankEnd_append_of_blank hgap hlast, head.first]
  simp

/-- A block with selectors in front of it: a text that starts neither with the `@` of an at-rule nor
with a blank or a comment, which would stand in front of it. -/
theorem scopeRules_selectorBlock (hlead : Trivia lead) {selectors gap : List Char}
    (hfirst : ∃ c s, selectors = c :: s ∧ c ≠ '@' ∧ isAsciiBlank c = false ∧
      ¬ (c = '/' ∧ s.head? = some '*'))
    (hlast : ∀ c, selectors.getLast? = some c → isBlank c = false) (hgap : Blank gap)
    (hpasses : Passes statementScanner 0 (lead ++ (selectors ++ gap))
      ('{' :: (body ++ '}' :: rest)))
    (hbody : Closed bodyText false body) :
    scopeRules scope (lead ++ (selectors ++ (gap ++ '{' :: (body ++ '}' :: rest)))) =
      lead ++ (scopeSelectors scope selectors ++
        (gap ++ '{' :: (body ++ '}' :: scopeRules scope rest))) := by
  obtain ⟨c, s, rfl, hat, hblank, hcomment⟩ := hfirst
  have hcut := hpasses.cut_eq rfl
  have htrivia : leadingTrivia (lead ++ (c :: s ++ gap)) = (lead, c :: s ++ gap) := by
    -- a slash alone in front of the block starts no comment either
    refine leadingTrivia_of hlead (List.cons_append ..) hblank ?_
    rintro ⟨rfl, hstar⟩
    cases s with
    | nil =>
      have hnil : ([] : List Char).head? ≠ some '*' := by simp
      exact head_blank_append hgap hnil (by simpa using hstar)
    | cons d s => exact hcomment ⟨rfl, hstar⟩
  have hnotAt : ((c :: s).head? == some '@') = false := by
    simpa using hat
  rw [← List.append_assoc (c :: s), ← List.append_assoc lead,
    scopeRules_block scope hcut ((passes_body hbody 0 _).cut_eq rfl) htrivia,
    trimEnd_append_of_blank hgap, trimEnd_of_last hlast, blankEnd_append_of_blank hgap hlast,
    hnotAt]
  simp

theorem scopeRules_listBlock (hlead : Trivia lead) (list : SelectorList) {gap : List Char}
    (hgap : Blank gap) (hbody : Closed bodyText false body) :
    scopeRules scope (lead ++ (list.text ++ (gap ++ '{' :: (body ++ '}' :: rest)))) =
      lead ++ (render (scopedText scope) list.segments ++
        (gap ++ '{' :: (body ++ '}' :: scopeRules scope rest))) := by
  rw [← scopeSelectors_list]
  exact scopeRules_selectorBlock scope hlead list.first list.last hgap
    (passes_lead_list statementScanner_readsBraces hlead list hgap 0 (by simp)) hbody

/-- Scoping a printed sheet keeps everything but the compound selectors. -/
theorem scopeRules_sheet (sheet : Sheet) :
    scopeRules scope sheet.text = render (scopedText scope) sheet.segments := by
  have hreads := statementScanner_readsBraces
  unfold Sheet.text
  induction sheet with
  | done trivia htrivia =>
    have htext : ∀ f, render f (Sheet.done trivia htrivia).segments = trivia := by
      simp [Sheet.segments, render]
    rw [htext, htext]
    exact scopeRules_end scope (htrivia.passes hreads 0 []).cut_end
  | rule lead hlead list gap hgap body hbody more ih =>
    rw [render_rule, render_rule, ← ih]
    exact scopeRules_listBlock scope hlead list hgap hbody
  | line lead hlead head more ih =>
    have hpasses : Passes statementScanner 0 (lead ++ head.text)
        (';' :: render Compound.text more.segments) :=
      (hlead.passes hreads 0 _).append (head.passes hreads 0 (by simp))
    rw [render_line, render_line, ← List.append_assoc,
      scopeRules_line scope (by decide) (hpasses.cut_eq rfl), ih, List.append_assoc]
  | verbatim lead hlead head hlast hname gap hgap body hbody more ih =>
    rw [render_verbatim, render_verbatim,
      scopeRules_atBlock scope hlead head hlast hgap (passes_body hbody 0 _),
      if_neg (fun h => hname (isConditional_iff.1 h)), ih]
  | group lead hlead head hlast hname gap hgap inner more ihinner ih =>
    have hinner : Passes blockScanner 0 (render Compound.text inner.segments)
        ('}' :: render Compound.text more.segments) := inner.passes 0 _
    rw [render_group, render_group, scopeRules_atBlock scope hlead head hlast hgap hinner,
      if_pos (isConditional_iff.2 hname), ihinner, ih]

end Scoping

/-- **A printed sheet is scoped as it should be** exactly if the scope goes to the right place of
every compound selector: counting brackets, quoted ones too, tells its base from what follows. -/
theorem scopeCss_sheet_iff (sheet : Sheet) :
    (∀ element host : String, scopeCss (String.ofList sheet.text) element host =
      String.ofList (sheet.qualified ⟨element.toList, host.toList⟩)) ↔
    ∀ c ∈ sheet.compounds, c.CountsRight := by
  have hone : ∀ scope, scopeRules scope sheet.text = sheet.qualified scope ↔
      ∀ c ∈ sheet.compounds, scopeCompound scope c.text = c.qualified scope := by
    intro scope
    rw [scopeRules_sheet]
    exact render_eq_iff (length_scopeCompound scope)
  have hcss : (∀ element host : String, scopeCss (String.ofList sheet.text) element host =
      String.ofList (sheet.qualified ⟨element.toList, host.toList⟩)) ↔
      ∀ scope, scopeRules scope sheet.text = sheet.qualified scope := by
    unfold scopeCss
    simp only [String.toList_ofList]
    constructor
    · intro h scope
      have hscope := h (String.ofList scope.element) (String.ofList scope.host)
      rw [String.toList_ofList, String.toList_ofList] at hscope
      exact String.ofList_injective hscope
    · exact fun h element host => congrArg String.ofList (h _)
  rw [hcss]
  simp only [hone]
  constructor
  · exact fun h c hc => (scopeCompound_iff c).1 fun scope => h scope c hc
  · exact fun h scope c hc => (scopeCompound_iff c).2 (h c hc) scope

/-! ## A quoted bracket -/

theorem closed_quotedBracket : Closed baseText false "a[x=\"[\"]".toList :=
  .char rfl (by decide) (.group (t := "x=\"[\"".toList) (c := ']') rfl
    (.char rfl (by decide) (.char rfl (by decide)
      (.string (t := "[\"".toList) rfl (.char (by decide) (by decide) .close) .nil))) .nil)

/-- A link with a bracket in an attribute value, and a pseudo-class. -/
def quotedBracket : Compound :=
  .plain "a[x=\"[\"]".toList ":hover".toList closed_quotedBracket
    (.plain_append (s := ":hover".toList) rfl .nil) (.inr rfl) (by decide)
    (not_refersToHost_iff.2 ⟨rfl, rfl⟩)

def quotedBracketList : SelectorList where
  selectors := [{
    lead := []
    steps := [.compound quotedBracket]
    trail := []
    blankLead := by simp [Blank]
    blankTrail := by simp [Blank]
    follows := .singleton _
    trimmed := ⟨fun _ hc => Option.some.inj hc ▸ rfl, fun _ hc => Option.some.inj hc ▸ rfl⟩ }]
  first := ⟨'a', _, rfl, by decide, by decide, by decide⟩
  last _ hc := Option.some.inj hc ▸ rfl

def quotedBracketSheet : Sheet :=
  .rule [] .nil quotedBracketList [] (by simp [Blank]) [] .nil (.done [] .nil)

/-- The scope of a link with a quoted bracket goes to the wrong place. -/
theorem quoted_bracket_misleads :
    quotedBracketSheet.text = "a[x=\"[\"]:hover{}".toList ∧
    ¬ ∀ element host : String, scopeCss (String.ofList quotedBracketSheet.text) element host =
      String.ofList (quotedBracketSheet.qualified ⟨element.toList, host.toList⟩) := by
  refine ⟨rfl, fun h => ?_⟩
  have hcounts := (scopeCss_sheet_iff quotedBracketSheet).1 h quotedBracket List.mem_cons_self
  exact absurd (hcounts.2 (by decide)) (by decide)

end ComponentBundle.Css
