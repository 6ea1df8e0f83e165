import ComponentBundle.Proofs.Css.Complete
import ComponentBundle.Proofs.Css.Pieces

/-!
# Comments in selectors

Comments may stand anywhere in a list of selectors. What stands between two combinators or commas
outside comments, strings and brackets is a run: a compound selector with comments in it, comments
alone, or nothing. A rule with comments is scoped as it should be if the scope is put once in each
compound selector, at its place, and nowhere else (`Run.Qualified`).

The scanners of selectors do not know comments, unlike those of rules. Comments do no harm exactly
if the scanners take each run for one piece, if none is made of comments alone, and if counting
brackets finds the first colon (`commented_rule_scoped`).
-/

namespace ComponentBundle.Css
open Text

/-! ## Atoms -/

/-- What stands in the brackets of a compound selector, with comments. -/
def commentedText : TextKind where
  plain := compoundText.plain
  comments := true
  closer := bracketCloser

/-- What a compound selector with comments is made of. A blank that is no combinator, like one
outside ASCII, does not stand for itself. -/
inductive Atom where
  | char (c : Char) (hplain : compoundText.plain false c = true) (hblank : isBlank c = false)
  | string (quote : Char) (t : List Char) (hquote : isQuote quote = true) (ht : StringBody quote t)
  | group (o c : Char) (t : List Char) (hcloser : bracketCloser o = some c)
    (ht : Closed commentedText true t)
  | comment (t : List Char) (ht : CommentBody t)

namespace Atom

def text : Atom → List Char
  | char c .. => [c]
  | string quote t .. => quote :: t
  | group o c t .. => o :: (t ++ [c])
  | comment t _ => '/' :: '*' :: t

def isComment : Atom → Bool
  | comment .. => true
  | _ => false

/-- Whether a pseudo-class or a pseudo-element starts here. -/
def isColon : Atom → Bool
  | char c .. => c == ':'
  | _ => false

end Atom

/-- Whether a character may stand at the start or the end of an atom. -/
def Edge (c : Char) : Prop := isBlank c = false ∧ isSeparator c = false

theorem CommentBody.last {t : List Char} (h : CommentBody t) : t.getLast? = some '/' := by
  induction h with
  | close => rfl
  | char _ _ ih => simp [List.getLast?_cons, ih]

theorem edge_quote {c : Char} (h : isQuote c = true) : Edge c := by
  unfold isQuote at h
  simp only [Bool.or_eq_true, beq_iff_eq] at h
  rcases h with rfl | rfl <;> exact ⟨by decide, by decide⟩

theorem Atom.head_text (a : Atom) : ∃ c s, a.text = c :: s ∧ Edge c := by
  cases a with
  | char c hplain hblank =>
    obtain ⟨hcomb, hcomma⟩ := compoundText_plain_false hplain
    exact ⟨c, [], rfl, hblank, by simp [isSeparator, hcomb, hcomma]⟩
  | string quote t hquote ht => exact ⟨quote, t, rfl, edge_quote hquote⟩
  | group o c t hcloser ht =>
    refine ⟨o, t ++ [c], rfl, ?_⟩
    rcases bracketCloser_eq_some hcloser with ⟨rfl, -⟩ | ⟨rfl, -⟩ <;> exact ⟨by decide, by decide⟩
  | comment t ht => exact ⟨'/', '*' :: t, rfl, by decide, by decide⟩

theorem Atom.last_text (a : Atom) : ∃ c, a.text.getLast? = some c ∧ Edge c := by
  cases a with
  | char c hplain hblank =>
    obtain ⟨hcomb, hcomma⟩ := compoundText_plain_false hplain
    exact ⟨c, rfl, hblank, by simp [isSeparator, hcomb, hcomma]⟩
  | string quote t hquote ht =>
    exact ⟨quote, by simp [text, List.getLast?_cons, ht.last], edge_quote hquote⟩
  | group o c t hcloser ht =>
    refine ⟨c, by simp [text, List.getLast?_cons], ?_⟩
    rcases bracketCloser_eq_some hcloser with ⟨-, rfl⟩ | ⟨-, rfl⟩ <;> exact ⟨by decide, by decide⟩
  | comment t ht => exact ⟨'/', by simp [text, List.getLast?_cons, ht.last], by decide, by decide⟩

theorem Atom.isColon_of_head {a : Atom} (h : a.text.head? = some ':') : a.isColon = true := by
  cases a with
  | char c hplain hblank =>
    obtain rfl : c = ':' := Option.some.inj h
    rfl
  | string quote t hquote ht =>
    obtain rfl : quote = ':' := Option.some.inj h
    cases hquote
  | group o c t hcloser ht =>
    obtain rfl : o = ':' := Option.some.inj h
    cases hcloser
  | comment t ht => cases h

theorem Atom.text_of_isColon {a : Atom} (h : a.isColon = true) :
    a.text = [':'] ∧ a.isComment = false := by
  cases a with
  | char c hplain hblank =>
    obtain rfl : c = ':' := beq_iff_eq.1 h
    exact ⟨rfl, rfl⟩
  | string => cases h
  | group => cases h
  | comment => cases h

def textOf (atoms : List Atom) : List Char := atoms.flatMap Atom.text

theorem textOf_cons (a : Atom) (atoms : List Atom) :
    textOf (a :: atoms) = a.text ++ textOf atoms := List.flatMap_cons

theorem textOf_append (a b : List Atom) : textOf (a ++ b) = textOf a ++ textOf b :=
  List.flatMap_append

theorem textOf_eq_nil {atoms : List Atom} (h : textOf atoms = []) : atoms = [] := by
  cases atoms with
  | nil => rfl
  | cons a atoms =>
    obtain ⟨c, s, htext, -⟩ := a.head_text
    rw [textOf_cons, htext] at h
    cases h

theorem edge_head {atoms : List Atom} {c : Char} (h : (textOf atoms).head? = some c) : Edge c := by
  cases atoms with
  | nil => cases h
  | cons a atoms =>
    obtain ⟨d, s, htext, hedge⟩ := a.head_text
    rw [textOf_cons, htext] at h
    obtain rfl : d = c := Option.some.inj h
    exact hedge

theorem edge_last {atoms : List Atom} {c : Char} (h : (textOf atoms).getLast? = some c) :
    Edge c := by
  rcases List.eq_nil_or_concat atoms with rfl | ⟨init, a, rfl⟩
  · cases h
  · obtain ⟨d, hlast, hedge⟩ := a.last_text
    have htext : textOf [a] = a.text := List.flatMap_singleton ..
    rw [List.concat_eq_append, textOf_append, htext, List.getLast?_append, hlast,
      Option.some_or] at h
    obtain rfl : d = c := Option.some.inj h
    exact hedge

/-! ## Runs -/

/-- Whether counting brackets, quoted ones too, tells a base from what follows it: every colon of
the base stands where brackets are open, and none are at its end. -/
def CountsApart (base pseudo : List Char) : Prop :=
  (∀ s t, base = s ++ ':' :: t → openBrackets 0 s ≠ 0) ∧ (pseudo ≠ [] → openBrackets 0 base = 0)

/-- What stands between two combinators or commas. No slash opens a comment with what follows. -/
structure Run where
  atoms : List Atom
  slashes : atoms.IsChain fun a b => a.text = ['/'] → b.text.head? ≠ some '*'

namespace Run

def text (r : Run) : List Char := textOf r.atoms

/-- Whether there is more than comments. -/
def IsCompound (r : Run) : Prop := ∃ a ∈ r.atoms, a.isComment = false

/-- Whether the scope may go between two parts: in front of the first pseudo-class or
pseudo-element, or else behind everything but comments. -/
structure Parts (r : Run) (front back : List Atom) : Prop where
  atoms : r.atoms = front ++ back
  front : ∀ a ∈ front, a.isColon = false
  back : ∀ a, back.find? (fun a => !a.isComment) = some a → a.isColon = true

/-- Whether a text that depends on the scope is the run with the scope put in once, if it is a
compound selector, and else the run alone. -/
def Qualified (r : Run) (f : Scope → List Char) : Prop :=
  (r.IsCompound ∧ ∃ front back, r.Parts front back ∧
    ∀ scope, f scope = textOf front ++ scope.element ++ textOf back) ∨
  (¬ r.IsCompound ∧ ∀ scope, f scope = r.text)

/-- What stands in front of the first pseudo-class or pseudo-element. -/
def base (r : Run) : List Char := textOf (r.atoms.takeWhile (!·.isColon))

def pseudo (r : Run) : List Char := textOf (r.atoms.dropWhile (!·.isColon))

/-- Whether the comments of a run do no harm: read as plain text, it has closed strings and
brackets and neither combinators nor commas outside, it is not made of comments alone, and counting
brackets finds its first colon. -/
structure Inert (r : Run) : Prop where
  guarded : Guarded false isSeparator false r.text
  compound : r.text = [] ∨ r.IsCompound
  counts : CountsApart r.base r.pseudo

variable {r : Run}

theorem trimmed_text (r : Run) : Trimmed r.text :=
  ⟨fun _ hc => (edge_head hc).1, fun _ hc => (edge_last hc).1⟩

theorem isCompound_text (h : r.IsCompound) : r.text ≠ [] := by
  obtain ⟨a, ha, -⟩ := h
  intro hnil
  rw [textOf_eq_nil hnil] at ha
  cases ha

theorem base_append_pseudo (r : Run) : r.base ++ r.pseudo = r.text := by
  rw [base, pseudo, ← textOf_append, List.takeWhile_append_dropWhile]
  rfl

theorem isColon_of_dropWhile {a : Atom} {back : List Atom}
    (h : r.atoms.dropWhile (!·.isColon) = a :: back) : a.isColon = true := by
  have hstop := List.head?_dropWhile_not (fun a : Atom => !a.isColon) r.atoms
  rw [h] at hstop
  simpa using hstop

theorem colon_pseudo (r : Run) : r.pseudo = [] ∨ r.pseudo.head? = some ':' := by
  unfold pseudo
  cases hatoms : r.atoms.dropWhile (!·.isColon) with
  | nil => exact .inl rfl
  | cons a back =>
    rw [textOf_cons, (Atom.text_of_isColon (isColon_of_dropWhile hatoms)).1]
    exact .inr rfl

theorem parts_base_pseudo (r : Run) :
    r.Parts (r.atoms.takeWhile (!·.isColon)) (r.atoms.dropWhile (!·.isColon)) := by
  refine ⟨List.takeWhile_append_dropWhile.symm, fun a ha => ?_, fun a ha => ?_⟩
  · simpa using List.mem_takeWhile_imp ha
  · cases hatoms : r.atoms.dropWhile (!·.isColon) with
    | nil =>
      rw [hatoms] at ha
      cases ha
    | cons b back =>
      have hcolon := isColon_of_dropWhile hatoms
      rw [hatoms, List.find?_cons_of_pos (by simp [(Atom.text_of_isColon hcolon).2])] at ha
      obtain rfl := Option.some.inj ha
      exact hcolon

theorem Parts.text_eq {front back : List Atom} (h : r.Parts front back) :
    r.text = textOf front ++ textOf back := by
  rw [text, h.atoms, textOf_append]

theorem Parts.eq_base_pseudo {front back : List Atom} (h : r.Parts front back)
    (hcolon : textOf back = [] ∨ (textOf back).head? = some ':') :
    r.base = textOf front ∧ r.pseudo = textOf back := by
  have hfront : ∀ a ∈ front, (!a.isColon) = true := fun a ha => by simp [h.front a ha]
  have hback : back.takeWhile (!·.isColon) = [] ∧ back.dropWhile (!·.isColon) = back := by
    cases back with
    | nil => exact ⟨rfl, rfl⟩
    | cons a back =>
      have ha : a.isColon = true := by
        obtain ⟨c, s, htext, -⟩ := a.head_text
        rw [textOf_cons, htext] at hcolon
        refine Atom.isColon_of_head ?_
        rw [htext]
        simpa using hcolon
      exact ⟨List.takeWhile_cons_of_neg (by simp [ha]), List.dropWhile_cons_of_neg (by simp [ha])⟩
  rw [base, pseudo, h.atoms, List.takeWhile_append_of_pos hfront,
    List.dropWhile_append_of_pos hfront, hback.1, hback.2, List.append_nil]
  exact ⟨rfl, rfl⟩

/-! ## Scoping runs -/

theorem Inert.qualified (h : r.Inert) (hhost : Hostless r.text) :
    r.Qualified (scopeSelectors · r.text) := by
  have hpiece : ∀ scope, scopeSelectors scope r.text = scopePiece scope r.text := fun scope =>
    scopeSelectors_cutTrimmed scope (cutTrimmed_one.2 ⟨h.guarded, r.trimmed_text⟩)
  by_cases hcompound : r.IsCompound
  · refine .inl ⟨hcompound, _, _, r.parts_base_pseudo, fun scope => (hpiece scope).trans ?_⟩
    have hcut : cut pseudoScanner 0 (r.base ++ r.pseudo) = (r.base, r.pseudo) :=
      (cut_pseudoScanner_iff r.colon_pseudo 0 r.base).2 h.counts
    rw [scopePiece, if_neg (isCompound_text hcompound),
      scopeCompound_plain scope hhost.not_refersToHost, ← r.base_append_pseudo, hcut]
    rfl
  · have hnil : r.text = [] := h.compound.resolve_right hcompound
    refine .inr ⟨hcompound, fun scope => (hpiece scope).trans ?_⟩
    rw [hnil, scopePiece_nil]

theorem Inert.legible (h : r.Inert) : Legible r.text :=
  ⟨.one r.text, cutTrimmed_one.2 ⟨h.guarded, r.trimmed_text⟩, rfl⟩

theorem compounds_text {l : Punctuated (List Char)} (hl : l.CutTrimmed isSeparator)
    (htext : l.render id = r.text) (hne : r.text ≠ []) :
    0 < l.compounds ∧ (l.compounds = 1 → l = .one r.text) := by
  obtain ⟨c, s, hcons⟩ := List.exists_cons_of_ne_nil hne
  have hhead : r.text.head? = some c := by rw [hcons, List.head?_cons]
  obtain ⟨d, hlast⟩ : ∃ d, r.text.getLast? = some d := ⟨_, List.getLast?_eq_some_getLast hne⟩
  have hcsep := (edge_head hhead).2
  have hdsep := (edge_last hlast).2
  rw [← htext] at hhead hlast
  refine ⟨compounds_pos hl.toCutAt hlast hdsep, fun hone => ?_⟩
  obtain ⟨s, rfl⟩ := exists_one_of_compounds hl.toCutAt hhead hcsep hlast hdsep hone
  exact congrArg Punctuated.one htext

theorem Qualified.length_le {f : Scope → List Char} (h : r.Qualified f)
    (hlegible : Legible r.text) (hhost : Hostless r.text) (scope : Scope) :
    (f scope).length ≤ (scopeSelectors scope r.text).length := by
  obtain ⟨l, hl, htext⟩ := hlegible
  have hlength := length_scopeSelectors scope hl (htext ▸ hhost)
  rw [htext] at hlength
  rw [hlength]
  rcases h with ⟨hcompound, front, back, hparts, hf⟩ | ⟨-, hf⟩
  · have hpos := (compounds_text hl htext (isCompound_text hcompound)).1
    have hmarks := Nat.le_mul_of_pos_left scope.element.length hpos
    rw [hf, hparts.text_eq]
    simp only [List.length_append]
    omega
  · rw [hf]
    exact Nat.le_add_right _ _

theorem Parts.countsApart {front back : List Atom} (h : r.Parts front back)
    (hhost : Hostless r.text)
    (hscoped : ∀ scope : Scope,
      scopeCompound scope r.text = textOf front ++ scope.element ++ textOf back) :
    CountsApart r.base r.pseudo := by
  have hcut (e : List Char) : (cut pseudoScanner 0 r.text).1 ++ e ++
      (cut pseudoScanner 0 r.text).2 = textOf front ++ e ++ textOf back := by
    rw [← hscoped ⟨e, []⟩, scopeCompound_plain _ hhost.not_refersToHost]
  have hfirst : (cut pseudoScanner 0 r.text).1 = textOf front := eq_of_insert_eq hcut
  have hrest : (cut pseudoScanner 0 r.text).2 = textOf back := by
    have happend := cut_append pseudoScanner 0 r.text
    rwa [hfirst, h.text_eq, List.append_cancel_left_eq, ← h.text_eq] at happend
  have hcolon : textOf back = [] ∨ (textOf back).head? = some ':' := by
    rw [← hrest]
    rcases cut_rest pseudoScanner 0 r.text with hnil | ⟨d, c, tail, hcons, hstops⟩
    · exact .inl hnil
    · simp only [pseudoScanner, Bool.and_eq_true, beq_iff_eq] at hstops
      exact .inr (by rw [hcons, List.head?_cons, hstops.2])
  obtain ⟨hbase, hpseudo⟩ := h.eq_base_pseudo hcolon
  refine (cut_pseudoScanner_iff r.colon_pseudo 0 r.base).1 ?_
  rw [r.base_append_pseudo, hbase, hpseudo]
  exact Prod.ext hfirst hrest

theorem inert_of_empty (h : r.text = []) : r.Inert := by
  have hatoms : r.atoms = [] := textOf_eq_nil h
  refine ⟨h ▸ .nil, .inl h, ?_⟩
  rw [base, pseudo, hatoms]
  refine ⟨fun s t hst => ?_, fun hne => absurd rfl hne⟩
  exact absurd hst.symm (List.append_ne_nil_of_right_ne_nil _ (List.cons_ne_nil _ _))

theorem Qualified.inert (h : r.Qualified (scopeSelectors · r.text))
    (hlegible : Legible r.text) (hhost : Hostless r.text) : r.Inert := by
  by_cases hne : r.text = []
  · exact inert_of_empty hne
  obtain ⟨l, hl, htext⟩ := hlegible
  obtain ⟨hpos, hwhole⟩ := compounds_text hl htext hne
  -- a scope of one character tells how often it is put in
  have hmarks := length_scopeSelectors ⟨['x'], []⟩ hl (htext ▸ hhost)
  rw [htext, List.length_singleton, Nat.mul_one] at hmarks
  rcases h with ⟨hcompound, front, back, hparts, hf⟩ | ⟨-, hf⟩
  · have hlength := congrArg List.length (hf ⟨['x'], []⟩)
    rw [hmarks, hparts.text_eq] at hlength
    simp only [List.length_append, List.length_singleton] at hlength
    obtain rfl := hwhole (by omega)
    refine ⟨(cutTrimmed_one.1 hl).1, .inr hcompound, hparts.countsApart hhost fun scope => ?_⟩
    have hpiece := scopeSelectors_cutTrimmed scope hl
    rw [htext, Punctuated.render, scopePiece, if_neg hne] at hpiece
    exact hpiece.symm.trans (hf scope)
  · have hlength := congrArg List.length (hf ⟨['x'], []⟩)
    dsimp only at hlength
    omega

end Run

/-! ## Lists -/

/-- Whether a text that depends on the scope is a list of runs, each as it should be. -/
def Punctuated.Qualified : Punctuated Run → (Scope → List Char) → Prop
  | one r, f => r.Qualified f
  | more r c rest, f => ∃ g h, r.Qualified g ∧ rest.Qualified h ∧
    ∀ scope, f scope = g scope ++ c :: h scope

section Lists

variable {l : Punctuated Run}

theorem qualified_of_inert (hhost : ∀ r ∈ l.items, Hostless r.text)
    (h : ∀ r ∈ l.items, r.Inert) :
    l.Qualified fun scope => l.render fun r => scopeSelectors scope r.text := by
  induction l with
  | one r => exact (h r List.mem_cons_self).qualified (hhost r List.mem_cons_self)
  | more r c rest ih =>
    refine ⟨_, _, (h r List.mem_cons_self).qualified (hhost r List.mem_cons_self),
      ih (fun s hs => hhost s (List.mem_cons_of_mem _ hs))
        (fun s hs => h s (List.mem_cons_of_mem _ hs)), fun scope => rfl⟩

theorem Punctuated.Qualified.length_le {f : Scope → List Char} (h : l.Qualified f)
    (hlegible : ∀ r ∈ l.items, Legible r.text) (hhost : ∀ r ∈ l.items, Hostless r.text)
    (scope : Scope) :
    (f scope).length ≤ (l.render fun r => scopeSelectors scope r.text).length := by
  induction l generalizing f with
  | one r =>
    exact Run.Qualified.length_le h (hlegible r List.mem_cons_self) (hhost r List.mem_cons_self)
      scope
  | more r c rest ih =>
    obtain ⟨g, k, hg, hk, hf⟩ := h
    have hfirst := hg.length_le (hlegible r List.mem_cons_self) (hhost r List.mem_cons_self) scope
    have hrest := ih hk (fun s hs => hlegible s (List.mem_cons_of_mem _ hs))
      fun s hs => hhost s (List.mem_cons_of_mem _ hs)
    rw [hf, Punctuated.render]
    simp only [List.length_append, List.length_cons]
    omega

theorem inert_of_qualified (hlegible : ∀ r ∈ l.items, Legible r.text)
    (hhost : ∀ r ∈ l.items, Hostless r.text)
    (h : l.Qualified fun scope => l.render fun r => scopeSelectors scope r.text) :
    ∀ r ∈ l.items, r.Inert := by
  induction l with
  | one r =>
    intro s hs
    obtain rfl := List.mem_singleton.1 hs
    exact Run.Qualified.inert h (hlegible s List.mem_cons_self) (hhost s List.mem_cons_self)
  | more r c rest ih =>
    have hr := hlegible r List.mem_cons_self
    have hrhost := hhost r List.mem_cons_self
    have hlegible' := fun s hs => hlegible s (List.mem_cons_of_mem r hs)
    have hhost' := fun s hs => hhost s (List.mem_cons_of_mem r hs)
    obtain ⟨g, k, hg, hk, heq⟩ := h
    -- neither part is longer than what is printed for it, so both are just that
    have hparts : ∀ scope, g scope = scopeSelectors scope r.text ∧
        k scope = rest.render fun r => scopeSelectors scope r.text := by
      intro scope
      have hfirst := hg.length_le hr hrhost scope
      have hrest := hk.length_le hlegible' hhost' scope
      have happend : scopeSelectors scope r.text ++
          c :: rest.render (fun r => scopeSelectors scope r.text) = g scope ++ c :: k scope :=
        heq scope
      have hlength := congrArg List.length happend
      simp only [List.length_append, List.length_cons] at hlength
      obtain ⟨hfirst, hrest⟩ := List.append_inj happend (by omega)
      exact ⟨hfirst.symm, (List.cons.inj hrest).2.symm⟩
    have hrun : r.Qualified (scopeSelectors · r.text) := by
      have hg' : g = (scopeSelectors · r.text) := funext fun scope => (hparts scope).1
      exact hg' ▸ hg
    have hlist : rest.Qualified fun scope => rest.render fun r => scopeSelectors scope r.text := by
      have hk' : k = fun scope => rest.render fun r => scopeSelectors scope r.text :=
        funext fun scope => (hparts scope).2
      exact hk' ▸ hk
    intro s hs
    rcases List.mem_cons.1 hs with rfl | hs
    · exact hrun.inert hr hrhost
    · exact ih hlegible' hhost' hlist s hs

end Lists

/-! ## Rules -/

/-- A style rule whose selectors may hold comments. Its list starts neither with the `@` of an
at-rule nor with a blank or a comment, which stand in front of it. -/
structure CommentedRule where
  lead : List Char
  list : Punctuated Run
  gap : List Char
  body : List Char
  trivia : Trivia lead
  signs : ∀ c ∈ list.signs, isSeparator c = true
  first : ∃ c s, list.render Run.text = c :: s ∧ c ≠ '@' ∧ isAsciiBlank c = false ∧
    ¬ (c = '/' ∧ s.head? = some '*')
  last : ∀ c, (list.render Run.text).getLast? = some c → isBlank c = false
  blankGap : Blank gap
  closedBody : Closed bodyText false body

namespace CommentedRule

/-- The text of a rule, given that of its list of selectors. -/
def textWith (rule : CommentedRule) (list : List Char) : List Char :=
  rule.lead ++ (list ++ (rule.gap ++ '{' :: (rule.body ++ ['}'])))

def selectors (rule : CommentedRule) : List Char := rule.list.render Run.text

def text (rule : CommentedRule) : List Char := rule.textWith rule.selectors

/-- Whether a rule is scoped as it should be wherever it stands: comments are kept, and the scope is
put once in every compound selector. -/
def Scoped (rule : CommentedRule) : Prop :=
  ∃ f, rule.list.Qualified f ∧ ∀ before after element host : String, Complete before.toList →
    scopeCss (before ++ String.ofList rule.text ++ after) element host =
      scopeCss before element host ++
        String.ofList (rule.textWith (f ⟨element.toList, host.toList⟩)) ++
        scopeCss after element host

end CommentedRule

theorem Closed.prelude {inside : Bool} {s : List Char} (h : Closed commentedText inside s) :
    Closed preludeText false s := by
  induction h with
  | nil => exact .nil
  | @char inside c s hc hslash _ ih =>
    refine .char ?_ hslash ih
    simp only [commentedText, compoundText, Bool.and_eq_true, Bool.not_eq_true',
      Bool.or_eq_false_iff] at hc
    simp [preludeText, hc]
  | string hquote ht _ ih => exact .string hquote ht ih
  | comment _ ht _ ih => exact .comment rfl ht ih
  | group hcloser _ _ iht ihs =>
    rcases bracketCloser_eq_some hcloser with ⟨rfl, rfl⟩ | ⟨rfl, rfl⟩
    · exact .char rfl (by simp) (iht.append (.char rfl (by simp) ihs) (by simp))
    · exact .char rfl (by simp) (iht.append (.char rfl (by simp) ihs) (by simp))

theorem closed_textOf {atoms : List Atom}
    (h : atoms.IsChain fun a b => a.text = ['/'] → b.text.head? ≠ some '*') :
    Closed commentedText false (textOf atoms) := by
  induction atoms with
  | nil => exact .nil
  | cons a atoms ih =>
    have hrest := ih h.tail
    rw [textOf_cons]
    cases a with
    | char c hplain hblank =>
      refine .char hplain ?_ hrest
      rintro rfl
      cases atoms with
      | nil => simp [textOf]
      | cons b atoms =>
        have hb := (List.isChain_cons_cons.1 h).1 rfl
        obtain ⟨d, s, htext, -⟩ := b.head_text
        rw [htext] at hb
        rw [textOf_cons, htext]
        exact hb
    | string quote t hquote ht => exact .string hquote ht hrest
    | group o c t hcloser ht =>
      have hgroup : Closed commentedText false (o :: (t ++ c :: textOf atoms)) :=
        .group hcloser ht hrest
      simpa [Atom.text] using hgroup
    | comment t ht => exact .comment rfl ht hrest

theorem closed_list {l : Punctuated Run} (h : ∀ c ∈ l.signs, isSeparator c = true) :
    Closed preludeText false (l.render Run.text) := by
  induction l with
  | one r => exact (closed_textOf r.slashes).prelude
  | more r c rest ih =>
    have hc : preludeText.plain false c = true ∧ c ≠ '/' ∧ c ≠ '*' := by
      rcases Bool.or_eq_true_iff.1 (h c List.mem_cons_self) with hc | hc
      · obtain ⟨h1, h2, h3, -, h4, h5, h6, -⟩ := sign_or_blank (.inl hc)
        simp [preludeText, h1, h2, h3, h4, h5, h6]
      · obtain rfl := beq_iff_eq.1 hc
        decide
    have hrest := ih fun d hd => h d (List.mem_cons_of_mem _ hd)
    refine (closed_textOf r.slashes).prelude.append ?_ (by simpa using hc.2.2)
    exact .char hc.1 (fun hslash => absurd hslash hc.2.1) hrest

namespace CommentedRule

variable (rule : CommentedRule)

theorem passes (rest : List Char) :
    Passes statementScanner 0 (rule.lead ++ (rule.selectors ++ rule.gap)) ('{' :: rest) := by
  have hreads := statementScanner_readsBraces
  have hnext : (rule.gap ++ '{' :: rest).head? ≠ some '*' :=
    head_blank_append rule.blankGap (by simp)
  exact (rule.trivia.passes hreads 0 _).append
    (((closed_list rule.signs).passes hreads.walks_prelude (by simp) hnext).append
      (passes_blank (hreads.passesSigns 0) rule.blankGap _))

theorem scopeRules_text (scope : Scope) (after : List Char) :
    scopeRules scope (rule.text ++ after) =
      rule.textWith (scopeSelectors scope rule.selectors) ++ scopeRules scope after := by
  have hblock := scopeRules_selectorBlock scope rule.trivia rule.first rule.last rule.blankGap
    (rule.passes (rule.body ++ '}' :: after)) rule.closedBody
  simp only [text, textWith, List.append_assoc, List.cons_append, List.nil_append] at hblock ⊢
  exact hblock

theorem scopeCss_text (before after element host : String) (h : Complete before.toList) :
    scopeCss (before ++ String.ofList rule.text ++ after) element host =
      scopeCss before element host ++
        String.ofList (rule.textWith
          (scopeSelectors ⟨element.toList, host.toList⟩ rule.selectors)) ++
        scopeCss after element host := by
  unfold scopeCss
  apply String.toList_injective
  simp only [String.toList_append, String.toList_ofList, List.append_assoc]
  rw [h.scopeRules_append, rule.scopeRules_text]

theorem textWith_injective {s t : List Char} (h : rule.textWith s = rule.textWith t) : s = t := by
  unfold textWith at h
  exact List.append_cancel_right (List.append_cancel_left h)

end CommentedRule

/-- **Comments in selectors do no harm** if the scanners take each run of a rule for one piece, if
none is made of comments alone, and if counting brackets finds the first colon of each. If runs are
legible to the scanners at all, a rule is scoped as it should be in no other case. -/
theorem commented_rule_scoped (rule : CommentedRule) (hhost : Hostless rule.selectors) :
    ((∀ r ∈ rule.list.items, r.Inert) → rule.Scoped) ∧
    ((∀ r ∈ rule.list.items, Legible r.text) → rule.Scoped →
      ∀ r ∈ rule.list.items, r.Inert) := by
  have hruns : ∀ r ∈ rule.list.items, Hostless r.text :=
    fun r hr => hhost.of_infix (Punctuated.infix_render hr)
  constructor
  · intro hinert
    have hlist : ∀ scope, scopeSelectors scope rule.selectors =
        rule.list.render fun r => scopeSelectors scope r.text := fun scope =>
      scopeSelectors_texts scope (fun r hr => (hinert r hr).legible) rule.signs
    refine ⟨_, qualified_of_inert hruns hinert, fun before after element host hbefore => ?_⟩
    rw [rule.scopeCss_text before after element host hbefore, hlist]
  · rintro hlegible ⟨f, hf, hscoped⟩
    have hlist : ∀ scope, scopeSelectors scope rule.selectors =
        rule.list.render fun r => scopeSelectors scope r.text := fun scope =>
      scopeSelectors_texts scope hlegible rule.signs
    have hf' : f = fun scope => rule.list.render fun r => scopeSelectors scope r.text := by
      funext scope
      have hempty : Complete "".toList := by simpa using Complete.trivia .nil
      have hone := hscoped "" "" (String.ofList scope.element) (String.ofList scope.host) hempty
      rw [rule.scopeCss_text _ _ _ _ hempty, String.append_left_inj,
        String.append_right_inj] at hone
      have htext := rule.textWith_injective (String.ofList_injective hone)
      simp only [String.toList_ofList] at htext
      rw [← htext, hlist]
    exact inert_of_qualified hlegible hruns (hf' ▸ hf)

/-! ## Comments with and without blanks -/

/-- A comment without blanks in the middle of a compound selector. -/
def tightRule : CommentedRule where
  lead := []
  list := .one
    { atoms := [.char 'a' rfl rfl, .comment "x*/".toList (.char (by decide) .close),
        .char ':' rfl rfl, .char 'b' rfl rfl]
      slashes := by decide }
  gap := []
  body := []
  trivia := .nil
  signs := List.all_eq_true.1 rfl
  first := ⟨'a', _, rfl, by decide, by decide, by decide⟩
  last _ hc := Option.some.inj hc ▸ rfl
  blankGap := blank_nil
  closedBody := .nil

/-- A comment with blanks, between two compound selectors. -/
def spacedRule : CommentedRule where
  lead := []
  list := .more { atoms := [.char 'h' rfl rfl, .char '1' rfl rfl], slashes := by decide } ' '
    (.more
      { atoms := [.comment " x */".toList
          (.char (by decide) (.char (by decide) (.char (by decide) .close)))]
        slashes := .singleton _ } ' '
      (.one { atoms := [.char 'p' rfl rfl], slashes := .singleton _ }))
  gap := []
  body := []
  trivia := .nil
  signs := List.all_eq_true.1 rfl
  first := ⟨'h', _, rfl, by decide, by decide, by decide⟩
  last _ hc := Option.some.inj hc ▸ rfl
  blankGap := blank_nil
  closedBody := .nil

theorem inert_tightRun : ∀ r ∈ tightRule.list.items, r.Inert := by
  intro r hr
  obtain rfl := List.mem_singleton.1 hr
  refine ⟨.plain_append (s := "a/*x*/:b".toList) rfl .nil, .inr ⟨_, List.mem_cons_self, rfl⟩, ?_⟩
  exact (cut_pseudoScanner_iff (.inr rfl) 0 _).1 (by decide +kernel)

theorem legible_spacedRuns : ∀ r ∈ spacedRule.list.items, Legible r.text := by
  intro r hr
  have hplain : (spacedRule.list.items.all fun r => r.text.all fun c =>
      !isQuote c && !isBracket c && c != '\\' && !false) = true := by decide +kernel
  have hblank : (spacedRule.list.items.all fun r => r.text.all fun c =>
      !isBlank c || isAsciiBlank c) = true := by decide +kernel
  have hclosed : SelfContained (r.text ++ []) :=
    .plain_append (List.all_eq_true.1 hplain r hr) .nil
  rw [List.append_nil] at hclosed
  refine legible_of_selfContained hclosed fun c hc hb => ?_
  simpa [hb] using List.all_eq_true.1 (List.all_eq_true.1 hblank r hr) c hc

/-- The comment without blanks is kept; that with blanks is cut in pieces, and each is taken for a
compound selector. -/
theorem spaced_comment_cut :
    (tightRule.text = "a/*x*/:b{}".toList ∧ tightRule.Scoped) ∧
    spacedRule.text = "h1 /* x */ p{}".toList ∧ ¬ spacedRule.Scoped ∧
    scopeCss "h1 /* x */ p{}" "[data-x]" "[data-x-host]" =
      "h1[data-x] /*[data-x] x[data-x] */[data-x] p[data-x]{}" := by
  refine ⟨⟨rfl, ?_⟩, rfl, fun hscoped => ?_, by decide +kernel⟩
  · exact (commented_rule_scoped tightRule (by unfold Hostless; decide +kernel)).1 inert_tightRun
  · have hinert := (commented_rule_scoped spacedRule (by unfold Hostless; decide +kernel)).2
      legible_spacedRuns hscoped
    -- the second run is made of a comment alone
    obtain hnil | ⟨a, ha, hcomment⟩ := (hinert _ (.tail _ List.mem_cons_self)).compound
    · cases hnil
    · obtain rfl := List.mem_singleton.1 ha
      cases hcomment

end ComponentBundle.Css
