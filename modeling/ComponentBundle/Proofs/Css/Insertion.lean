import ComponentBundle.Proofs.Css.Sheet
import Mathlib.Data.List.TakeWhile

/-!
# Scoping only inserts

`scopeCss_inserts`: a style sheet without `:host` is scoped by inserting the element's selector at
places that the sheet alone decides. The sheet may be cut off anywhere and may be no style sheet at
all, since nothing is asked of its strings, comments and blocks.

The proof carries a text with marks in it, one for each insertion (`Inserts`). Every function of the
scoping cuts its text in parts and puts them together again, so it is enough that each cut loses
nothing, and that marked parts make up a marked whole (`Inserts.append`, `Inserts.intercalate`).
-/

namespace ComponentBundle.Css
open Text

/-! ## Marked texts -/

/-- A text with a filling at every mark; `none` is a mark. -/
def fill (x : List Char) (marked : List (Option Char)) : List Char :=
  marked.flatMap fun c => c.elim x ([·])

/-- The texts between the marks. -/
def between : List (Option Char) → List (List Char)
  | [] => [[]]
  | none :: marked => [] :: between marked
  | some c :: marked => (between marked).modifyHead (c :: ·)

theorem between_ne_nil (marked : List (Option Char)) : between marked ≠ [] := by
  induction marked with
  | nil => simp [between]
  | cons c marked ih => cases c <;> simp [between, ih]

theorem intercalate_modifyHead (x : List Char) (c : Char) {l : List (List Char)} (h : l ≠ []) :
    List.intercalate x (l.modifyHead (c :: ·)) = c :: List.intercalate x l := by
  match l, h with
  | [s], _ => simp
  | s :: t :: rest, _ => simp [List.intercalate_cons_cons]

theorem intercalate_between (x : List Char) (marked : List (Option Char)) :
    List.intercalate x (between marked) = fill x marked := by
  induction marked with
  | nil => rfl
  | cons c marked ih =>
    have hne := between_ne_nil marked
    cases c with
    | none =>
      obtain ⟨s, rest, hs⟩ := List.exists_cons_of_ne_nil hne
      rw [between, hs, List.intercalate_cons_cons, ← hs, ih]
      rfl
    | some c =>
      rw [between, intercalate_modifyHead x c hne, ih]
      rfl

theorem flatten_between (marked : List (Option Char)) :
    (between marked).flatten = fill [] marked := by
  induction marked with
  | nil => rfl
  | cons c marked ih =>
    cases c with
    | none => exact ih
    | some c =>
      obtain ⟨s, rest, hs⟩ := List.exists_cons_of_ne_nil (between_ne_nil marked)
      rw [between, hs, List.modifyHead_cons, List.flatten_cons, List.cons_append,
        ← List.flatten_cons, ← hs, ih]
      rfl

/-- Whether a text that depends on the scope is a fixed text with the element's selector inserted
at fixed places. -/
def Inserts (s : List Char) (f : Scope → List Char) : Prop :=
  ∃ marked, fill [] marked = s ∧ ∀ scope, f scope = fill scope.element marked

namespace Inserts

theorem fill_map_some (x s : List Char) : fill x (s.map some) = s := by
  induction s with
  | nil => rfl
  | cons c s ih => exact congrArg (c :: ·) ih

theorem const (s : List Char) : Inserts s (fun _ => s) :=
  ⟨s.map some, fill_map_some [] s, fun scope => (fill_map_some scope.element s).symm⟩

theorem mark : Inserts [] (fun scope => scope.element) :=
  ⟨[none], rfl, fun scope => by simp [fill]⟩

variable {s t : List Char} {f g : Scope → List Char}

theorem append (hs : Inserts s f) (ht : Inserts t g) :
    Inserts (s ++ t) (fun scope => f scope ++ g scope) := by
  obtain ⟨m, rfl, hm⟩ := hs
  obtain ⟨n, rfl, hn⟩ := ht
  refine ⟨m ++ n, List.flatMap_append, fun scope => ?_⟩
  show f scope ++ g scope = _
  rw [hm, hn]
  exact List.flatMap_append.symm

theorem cons (c : Char) (hs : Inserts s f) : Inserts (c :: s) (fun scope => c :: f scope) :=
  (const [c]).append hs

theorem intercalate (separator : List Char) {g : Scope → List Char → List Char}
    {pieces : List (List Char)} (h : ∀ s ∈ pieces, Inserts s (g · s)) :
    Inserts (List.intercalate separator pieces)
      (fun scope => List.intercalate separator (pieces.map (g scope))) := by
  induction pieces with
  | nil => exact const []
  | cons s rest ih =>
    have hs := h s List.mem_cons_self
    cases rest with
    | nil => simpa using hs
    | cons t rest =>
      have hrest := ih fun p hp => h p (List.mem_cons_of_mem _ hp)
      simp only [List.map_cons, List.intercalate_cons_cons]
      exact (hs.append (const separator)).append hrest

end Inserts

/-! ## Cuts that lose nothing -/

theorem intercalate_splitTop (delimiter : Char) (s : List Char) :
    List.intercalate [delimiter] (splitTop delimiter s) = s := by
  induction s using splitTop.induct delimiter with
  | case1 s piece hcut =>
    have hs := cut_append (delimiterScanner delimiter) 0 s
    rw [hcut, List.append_nil] at hs
    rw [splitTop_end hcut, List.intercalate_singleton]
    exact hs
  | case2 s piece c rest hcut ih =>
    have hs := cut_append (delimiterScanner delimiter) 0 s
    -- the cut stops at a delimiter and nowhere else
    have hc : c = delimiter := by
      rcases cut_rest (delimiterScanner delimiter) 0 s with hnil | ⟨d, e, tail, hcons, hstops⟩
      · rw [hcut] at hnil
        cases hnil
      · rw [hcut] at hcons
        obtain ⟨rfl, -⟩ := List.cons.inj hcons
        simp only [delimiterScanner, Bool.and_eq_true, beq_iff_eq] at hstops
        exact hstops.2
    obtain ⟨t, pieces, hpieces⟩ : ∃ t pieces, splitTop delimiter rest = t :: pieces := by
      cases hp : splitTop delimiter rest with
      | cons t pieces => exact ⟨t, pieces, rfl⟩
      | nil =>
        rw [splitTop] at hp
        split at hp <;> cases hp
    rw [splitTop_cons hcut, hpieces, List.intercalate_cons_cons, ← hpieces, ih, List.append_assoc,
      List.singleton_append, ← hc]
    rw [hcut] at hs
    exact hs

theorem infix_intercalate {separator s : List Char} {pieces : List (List Char)}
    (h : s ∈ pieces) : s <:+: List.intercalate separator pieces := by
  induction pieces with
  | nil => cases h
  | cons t rest ih =>
    cases rest with
    | nil =>
      obtain rfl := List.mem_singleton.1 h
      have hone : List.intercalate separator [s] = s := List.intercalate_singleton
      exact hone.symm ▸ List.infix_rfl
    | cons u rest =>
      rw [List.intercalate_cons_cons]
      rcases List.mem_cons.1 h with rfl | h
      · exact ((List.prefix_append _ _).trans (List.prefix_append _ _)).isInfix
      · exact (ih h).trans (List.suffix_append _ _).isInfix

theorem padded_eq {s : List Char} (h : trimChars s ≠ []) :
    blankStart s ++ trimChars s ++ blankEnd s = s := by
  have hs : blankStart s ++ trimChars s ++ blankEnd (trimStart s) = s := by
    rw [List.append_assoc, trimChars, trimEnd_append_blankEnd, blankStart_append_trimStart]
  have hblank : Blank (blankEnd (trimStart s)) := by
    intro c hc
    unfold blankEnd at hc
    exact List.mem_takeWhile_imp (List.mem_reverse.1 hc)
  have hend : blankEnd s = blankEnd (trimStart s) := by
    conv_lhs => rw [← hs]
    exact blankEnd_padded hblank (trimmed_trimChars s) h
  rw [hend, hs]

/-! ## Selectors -/

/-- Whether a text speaks of the host nowhere, not even in a string or a comment. -/
def Hostless (s : List Char) : Prop := ¬ ":host".toList <:+: s

theorem Hostless.of_infix {s t : List Char} (h : Hostless t) (hst : s <:+: t) : Hostless s :=
  fun hhost => h (hhost.trans hst)

theorem Hostless.left {s t : List Char} (h : Hostless (s ++ t)) : Hostless s :=
  h.of_infix (List.prefix_append s t).isInfix

theorem Hostless.right {s t : List Char} (h : Hostless (s ++ t)) : Hostless t :=
  h.of_infix (List.suffix_append s t).isInfix

theorem Hostless.not_refersToHost {s : List Char} (h : Hostless s) : ¬ RefersToHost s := by
  rintro (⟨rest, rfl⟩ | ⟨rest, rfl, -⟩)
  · have hprefix : ":host".toList <+: ":host-context".toList := ⟨"-context".toList, rfl⟩
    exact h.left hprefix.isInfix
  · exact h.left List.infix_rfl

theorem inserts_scopeCompound {s : List Char} (h : Hostless s) :
    Inserts s (scopeCompound · s) := by
  obtain ⟨hcontext, hrest⟩ := not_refersToHost_iff.1 h.not_refersToHost
  have hcut : Inserts ((cut pseudoScanner 0 s).1 ++ [] ++ (cut pseudoScanner 0 s).2)
      (fun scope => (cut pseudoScanner 0 s).1 ++ scope.element ++ (cut pseudoScanner 0 s).2) :=
    ((Inserts.const _).append Inserts.mark).append (Inserts.const _)
  rw [List.append_nil, cut_append] at hcut
  simpa only [scopeCompound, hcontext, hrest] using hcut

theorem inserts_scopeComplex {s : List Char} (h : Hostless s) :
    Inserts s (scopeComplex · s) := by
  induction s using scopeComplex.induct with
  | case1 =>
    simp only [scopeComplex]
    exact Inserts.const []
  | case2 c rest hc ih =>
    simp only [scopeComplex, dif_pos hc]
    exact (ih (h.of_infix (List.suffix_cons c rest).isInfix)).cons c
  | case3 c rest hc parts ih =>
    have hparts : parts.1 ++ parts.2 = c :: rest := cut_append compoundScanner 0 (c :: rest)
    rw [← hparts] at h
    have hboth := (inserts_scopeCompound h.left).append (ih h.right)
    rw [hparts] at hboth
    simpa only [scopeComplex, dif_neg hc] using hboth

theorem inserts_scopeListItem {s : List Char} (h : Hostless s) :
    Inserts s (scopeListItem · s) := by
  unfold scopeListItem
  by_cases hempty : trimChars s = []
  · simp only [hempty, if_true]
    exact Inserts.const s
  · have hs := padded_eq hempty
    rw [← hs] at h
    have hall := ((Inserts.const (blankStart s)).append (inserts_scopeComplex h.left.right)).append
      (Inserts.const (blankEnd s))
    rw [hs] at hall
    simpa only [hempty, if_false] using hall

theorem inserts_scopeSelectors {s : List Char} (h : Hostless s) :
    Inserts s (scopeSelectors · s) := by
  have hs := intercalate_splitTop ',' s
  have hall : Inserts (List.intercalate [','] (splitTop ',' s)) (scopeSelectors · s) :=
    Inserts.intercalate [','] fun piece hpiece => inserts_scopeListItem (h.of_infix (by
      have hinfix : piece <:+: List.intercalate [','] (splitTop ',' s) := infix_intercalate hpiece
      rwa [hs] at hinfix))
  rwa [hs] at hall

/-! ## Style sheets -/

theorem inserts_scopeRules {css : List Char} (h : Hostless css) :
    Inserts css (scopeRules · css) := by
  -- the cuts do not look at the scope, so any scope will do to follow them
  induction css using scopeRules.induct ⟨[], []⟩ with
  | case1 css text hcut =>
    have hcss := cut_append statementScanner 0 css
    rw [hcut, List.append_nil] at hcss
    simp only [scopeRules_end _ hcut]
    exact hcss ▸ Inserts.const css
  | case2 css text inner block hcut ihbody ihrest =>
    let front := (leadingTrivia text).2
    have hparts : (leadingTrivia text).1 ++ trimEnd front ++ blankEnd front ++ '{' :: block.1 ++
        block.2.take 1 ++ block.2.drop 1 = css := by
      have hcss := cut_append statementScanner 0 css
      have hinner : block.1 ++ (block.2.take 1 ++ block.2.drop 1) = inner := by
        rw [List.take_append_drop]
        exact cut_append blockScanner 0 inner
      rw [hcut, ← hinner, ← leadingTrivia_append text,
        ← trimEnd_append_blankEnd (leadingTrivia text).2] at hcss
      simpa [front] using hcss
    rw [← hparts] at h
    have hselector : Inserts (trimEnd front) (fun scope =>
        if (trimEnd front).head? == some '@' then trimEnd front
        else scopeSelectors scope (trimEnd front)) := by
      split
      · exact Inserts.const _
      · exact inserts_scopeSelectors h.left.left.left.left.right
    have hbody : Inserts block.1 (fun scope =>
        if (trimEnd front).head? == some '@' && isConditional (trimEnd front) then
          scopeRules scope block.1 else block.1) := by
      split
      · exact ihbody (h.left.left.right.of_infix (List.suffix_cons '{' block.1).isInfix)
      · exact Inserts.const _
    have hall := (((((Inserts.const (leadingTrivia text).1).append hselector).append
      (Inserts.const (blankEnd front))).append (hbody.cons '{')).append
        (Inserts.const (block.2.take 1))).append (ihrest h.right)
    rw [hparts] at hall
    have heq : ∀ scope, scopeRules scope css = _ :=
      fun scope => scopeRules_block scope hcut rfl rfl
    simpa only [heq] using hall
  | case3 css text d rest hcut hd ih =>
    have hcss := cut_append statementScanner 0 css
    rw [hcut] at hcss
    subst hcss
    have hrest : Hostless rest := h.right.of_infix (List.suffix_cons d rest).isInfix
    simp only [scopeRules_line _ hd hcut]
    exact (Inserts.const text).append ((ih hrest).cons d)

/-- **Scoping a style sheet only inserts.** A text without `:host` is cut in segments that depend on
nothing else, and is scoped by joining them with the element's selector. -/
theorem scopeCss_inserts {css : String} (h : Hostless css.toList) :
    ∃ segments : List String, String.join segments = css ∧
      ∀ element host, scopeCss css element host = element.intercalate segments := by
  obtain ⟨marked, hcss, hscoped⟩ := inserts_scopeRules h
  have hlists : ((between marked).map String.ofList).map String.toList = between marked := by
    rw [List.map_map]
    exact List.map_id'' (fun s => String.toList_ofList) _
  refine ⟨(between marked).map String.ofList, ?_, fun element host => ?_⟩
  · apply String.toList_injective
    rw [String.toList_join, List.flatMap_def, hlists, flatten_between, hcss]
  · apply String.toList_injective
    rw [String.toList_intercalate, hlists, intercalate_between, scopeCss, String.toList_ofList]
    exact hscoped ⟨element.toList, host.toList⟩

/-- A sheet that breaks off in a nested block, in the middle of a string. -/
def brokenSheet : String := "a, b>c:hover\x7b\x7d \x7d @media x\x7bp q\x7br:\""

theorem broken_sheet_inserts :
    Hostless brokenSheet.toList ∧ ∃ segments : List String, String.join segments = brokenSheet ∧
      ∀ element host, scopeCss brokenSheet element host = element.intercalate segments := by
  have h : Hostless brokenSheet.toList := by
    unfold Hostless
    decide +kernel
  exact ⟨h, scopeCss_inserts h⟩

end ComponentBundle.Css
