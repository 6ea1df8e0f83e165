import ComponentBundle.Proofs.Bundle.Payload
import ComponentBundle.Proofs.Css.Complete

/-!
# Scoping source by source

The sources of a component are scoped one by one before they are joined. That is the same as
scoping the joined sheet, as long as no source leaves anything open that would reach into the next
one.

* `sortSources_plan` : tasks are planned in the order in which their texts are joined;
* `joinTexts_scoped` : joining scoped texts is scoping the joined text;
* `scoped_text_eq_scoped_plain_text` : the scoped text of a component is its plain text scoped.
-/

namespace ComponentBundle
open Css Text

/-! ## Declared order -/

theorem StyleTask.order_of_ofPath? {p : FilePath} {order : Nat} {task : StyleTask}
    (h : ofPath? p order = some task) : task.order = order := by
  rw [ofPath?_eq] at h
  obtain ⟨kind, -, rfl⟩ := Option.map_eq_some_iff.1 h
  cases kind <;> rfl

theorem StyleTask.order_run (task : StyleTask) (env : StyleEnv) (c : Component) :
    (task.run env c).1.order = task.order := by
  rcases task.style_run env c with ⟨text, hrun⟩ | hrun <;> rw [hrun]
  rfl

theorem StyleSources.pairwise_plan (sources : StyleSources) :
    sources.plan.Pairwise fun a b => a.order < b.order := by
  have hidx : (sources.paths.zipIdx 1).Pairwise fun a b => a.2 < b.2 := by
    rw [← List.pairwise_map (R := (· < ·)), List.zipIdx_map_snd]
    exact List.pairwise_lt_range'
  refine List.pairwise_append.2 ⟨List.pairwise_filterMap.2 (hidx.imp ?_), ?_, ?_⟩
  · intro a b hab task htask task' htask'
    rwa [StyleTask.order_of_ofPath? htask, StyleTask.order_of_ofPath? htask']
  · cases sources.inlineText <;> simp
  · intro task htask own hown
    obtain ⟨a, ha, htask⟩ := List.mem_filterMap.1 htask
    obtain ⟨text, -, rfl⟩ := List.mem_map.1 hown
    have hlt := List.snd_lt_add_of_mem_zipIdx ha
    rw [StyleTask.order_of_ofPath? htask]
    show a.2 < sources.paths.length + 1
    omega

theorem sortSources_plan (env : StyleEnv) (c : Component) (mode : String) :
    sortSources ((c.plan mode).map fun task => (task.run env c).1) =
      (c.plan mode).map fun task => (task.run env c).1 := by
  refine List.mergeSort_of_pairwise (List.pairwise_map.2 ?_)
  refine (StyleSources.pairwise_plan _).imp fun {a b} hab => ?_
  rw [a.order_run, b.order_run]
  exact decide_eq_true (Nat.le_of_lt hab)

theorem joinedStyles_eq (env : StyleEnv) (c : Component) (mode : String) :
    let sources := (c.plan mode).map fun task => (task.run env c).1
    joinedStyles env c mode =
      { tag := c.tag
        mode := mode
        plainText := joinTexts (sources.map (·.plainText))
        scopedText :=
          if sources.any (·.scopedText.isSome) then some (joinTexts (sources.map (·.scopedText)))
          else none } := by
  unfold joinedStyles ModeStyles.ofSources
  rw [sortSources_plan]

/-! ## Sources -/

/-- The text of a source, empty if it has none. -/
def SourceStyle.sheet (s : SourceStyle) : List Char := (s.plainText.getD "").toList

def Component.scope (c : Component) : Scope where
  element := (scopeSelector c.tag).toList
  host := (hostSelector c.tag).toList

/-- Whether the text of a source is trimmed and was scoped as a whole. -/
structure SourceStyle.ScopedFor (s : SourceStyle) (c : Component) : Prop where
  trimmed : Trimmed s.sheet
  scopedSheet : (s.scopedText.getD "").toList = scopeRules c.scope s.sheet

section Sources

variable {env : StyleEnv} {c : Component}

theorem scopedFor_run (hneeds : c.encapsulation.needsScoped = true) (task : StyleTask) :
    (task.run env c).1.ScopedFor c := by
  rcases task.style_run env c with ⟨text, hrun⟩ | hrun
  · rw [hrun, SourceStyle.ofText, if_pos hneeds]
    constructor
    · rw [SourceStyle.sheet, Option.getD_some, trim, String.toList_ofList]
      exact trimmed_trimChars _
    · exact String.toList_ofList
  · -- without a text there is nothing to scope, and scoping nothing gives nothing
    rw [hrun]
    exact ⟨⟨by simp [SourceStyle.sheet], by simp [SourceStyle.sheet]⟩,
      (Trivia.nil.scopeRules_eq c.scope).symm⟩

/-! ## Joined texts -/

theorem joinTexts_eq (texts : List (Option String)) :
    joinTexts texts =
      String.ofList (trimChars (joinSheets (texts.map fun t => (t.getD "").toList))) := by
  unfold joinTexts trim
  rw [String.toList_intercalate, List.map_map]
  rfl

/-- Joining scoped texts is scoping the joined text, if each text is complete. -/
theorem joinTexts_scoped {sources : List SourceStyle} (hscoped : ∀ s ∈ sources, s.ScopedFor c)
    (hcomplete : ∀ s ∈ sources, Complete s.sheet) :
    joinTexts (sources.map (·.scopedText)) =
      trim (scopeCss (joinTexts (sources.map (·.plainText))) (scopeSelector c.tag)
        (hostSelector c.tag)) := by
  have hsheets : (sources.map (·.scopedText)).map (fun t => (t.getD "").toList) =
      (sources.map (·.sheet)).map (scopeRules c.scope) := by
    rw [List.map_map, List.map_map]
    exact List.map_congr_left fun s hs => (hscoped s hs).scopedSheet
  have hjoin : trimChars (joinSheets ((sources.map (·.sheet)).map (scopeRules c.scope))) =
      trimChars (scopeRules c.scope (trimChars (joinSheets (sources.map (·.sheet))))) := by
    refine trimChars_joinSheets_scoped c.scope fun s hs => ?_
    obtain ⟨source, hsource, rfl⟩ := List.mem_map.1 hs
    exact ⟨(hscoped source hsource).trimmed, hcomplete source hsource⟩
  rw [joinTexts_eq, hsheets, hjoin, joinTexts_eq, List.map_map, trim, scopeCss,
    String.toList_ofList, String.toList_ofList]
  rfl

/-- **The scoped text of a component** is its plain text scoped, if nothing is minified and every
text that a source yields is complete. -/
theorem scoped_text_eq_scoped_plain_text {mode text : String}
    (hminify : env.config.minifyStyles = false)
    (hcomplete : ∀ task ∈ c.plan mode, ∀ sheet, (task.run env c).1.plainText = some sheet →
      Complete sheet.toList)
    (htext : (compileMode env c mode).1.scopedText = some text) :
    text = trim (scopeCss (compileMode env c mode).1.plainText (scopeSelector c.tag)
      (hostSelector c.tag)) := by
  have hjoined : (compileMode env c mode).1 = joinedStyles env c mode := by
    rw [styles_compileMode, minifyIfConfigured, hminify]
    rfl
  rw [hjoined] at htext ⊢
  have hneeds : c.encapsulation.needsScoped = true := by
    by_contra hneeds
    rw [(suits_joinedStyles mode).plain (by simpa using hneeds)] at htext
    cases htext
  rw [joinedStyles_eq] at htext ⊢
  dsimp only at htext ⊢
  split at htext
  · rw [← Option.some.inj htext]
    refine joinTexts_scoped (fun s hs => ?_) (fun s hs => ?_)
    · obtain ⟨task, -, rfl⟩ := List.mem_map.1 hs
      exact scopedFor_run hneeds task
    · obtain ⟨task, htask, rfl⟩ := List.mem_map.1 hs
      unfold SourceStyle.sheet
      cases hsheet : (task.run env c).1.plainText with
      | none => exact .trivia .nil
      | some sheet => exact hcomplete task htask sheet hsheet
  · cases htext

end Sources

/-! ## A component with several sources -/

/-- A component with a sheet, a file that cannot be read and a text of its own. -/
def layeredComponent : Component where
  tag := "x-a"
  encapsulation := .scopedCss
  styles := .ofList
    [("$", { paths := [⟨"a.css"⟩, ⟨"b.css"⟩], inlineText := some "p:hover\x7b\x7d /**/" })]

/-- The surroundings of the component, where only its first file is there. -/
def layeredEnv : StyleEnv where
  config := {}
  cache := ∅
  change := none
  world :=
    { read := fun p =>
        if p = ⟨"a.css"⟩ then .ok "@media all\x7bh1\x7b\x7d\x7d\n" else .error .notFound
      preprocess := noPreprocessor
      minifiers := verbatim }

theorem complete_layeredSheets :
    Complete "@media all\x7bh1\x7b\x7d\x7d".toList ∧
      Complete "p:hover\x7b\x7d /**/".toList := by
  constructor
  · refine @Complete.block "@media all".toList "h1\x7b\x7d".toList [] ?_ ?_ (.trivia .nil)
    · exact .plain_append (s := "@media all".toList) (t := []) rfl .nil
    · exact .plain_append (s := "h1".toList) rfl (.group (t := []) rfl .nil .nil)
  · refine @Complete.block "p:hover".toList [] _ ?_ .nil (.trivia (.blank rfl ?_))
    · exact .plain_append (s := "p:hover".toList) (t := []) rfl .nil
    · exact .comment .close .nil

/-- The failed file leaves an empty text between the others, which are scoped inside the block. -/
theorem layered_component_scoped_once :
    let text := "@media all\x7bh1[data-x-a]\x7b\x7d\x7d\n\n\n\np[data-x-a]:hover\x7b\x7d /**/"
    (compileMode layeredEnv layeredComponent "$").1.scopedText = some text ∧
      text = trim (scopeCss (compileMode layeredEnv layeredComponent "$").1.plainText
        (scopeSelector "x-a") (hostSelector "x-a")) := by
  have htext : (compileMode layeredEnv layeredComponent "$").1.scopedText = some
      "@media all\x7bh1[data-x-a]\x7b\x7d\x7d\n\n\n\np[data-x-a]:hover\x7b\x7d /**/" := by
    rw [styles_compileMode, minifyIfConfigured, if_neg (by decide), joinedStyles_eq]
    decide +kernel
  refine ⟨htext, scoped_text_eq_scoped_plain_text rfl (fun task htask sheet hsheet => ?_) htext⟩
  have hsheets : ∀ task ∈ layeredComponent.plan "$",
      (task.run layeredEnv layeredComponent).1.plainText ∈
        [some "@media all\x7bh1\x7b\x7d\x7d", none, some "p:hover\x7b\x7d /**/"] := by
    decide +kernel
  have hmem := hsheets task htask
  rw [hsheet] at hmem
  simp only [List.mem_cons, Option.some.injEq, reduceCtorEq, false_or, List.not_mem_nil,
    or_false] at hmem
  rcases hmem with rfl | rfl
  · exact complete_layeredSheets.1
  · exact complete_layeredSheets.2

end ComponentBundle
