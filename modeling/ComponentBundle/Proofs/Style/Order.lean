import ComponentBundle.Proofs.Style.Joined

/-!
# Declared order

The tasks of a component may finish in any order. Their numbers are given out before any of them
runs, so the joined styles are those of the declaration. Only where numbers repeat does it matter
in which order the results come, and then no further than the stable sort.

* `mem_plan_iff` : the numbers that the tasks of a list of sources carry;
* `StableSort.unique` : a list has one stable sort;
* `ofSources_eq_inOrder` : styles are joined along it;
* `joined_in_declared_order` : results that come in any order are joined as declared.
-/

namespace ComponentBundle

/-! ## Numbers of tasks -/

theorem StyleSources.mem_plan_iff {sources : StyleSources} {task : StyleTask} :
    task ∈ sources.plan ↔
      (∃ i kind p, sources.paths[i]? = some p ∧ StyleKind.ofPath? p = some kind ∧
        task = .ofFile kind (i + 1) p) ∨
      ∃ text, sources.inlineText = some text ∧
        task = .inlineText (sources.paths.length + 1) text := by
  unfold plan
  rw [List.mem_append]
  refine or_congr ?_ ?_
  · rw [List.mem_filterMap]
    constructor
    · rintro ⟨⟨p, order⟩, hp, htask⟩
      rw [StyleTask.ofPath?_eq] at htask
      obtain ⟨kind, hkind, rfl⟩ := Option.map_eq_some_iff.1 htask
      obtain ⟨hle, hget⟩ := List.mk_mem_zipIdx_iff_le_and_getElem?_sub.1 hp
      refine ⟨order - 1, kind, p, hget, hkind, ?_⟩
      rw [Nat.sub_add_cancel hle]
    · rintro ⟨i, kind, p, hget, hkind, rfl⟩
      refine ⟨(p, i + 1), ?_, ?_⟩
      · exact List.mk_mem_zipIdx_iff_le_and_getElem?_sub.2 ⟨by omega, by simpa using hget⟩
      · rw [StyleTask.ofPath?_eq, hkind, Option.map_some]
  · rw [List.mem_map]
    constructor
    · rintro ⟨text, htext, rfl⟩
      exact ⟨text, Option.mem_toList.1 htext, rfl⟩
    · rintro ⟨text, htext, rfl⟩
      exact ⟨text, Option.mem_toList.2 htext, rfl⟩

/-! ## Stable sorts -/

/-- The sources that carry some number, as they come. -/
def numbered (n : Nat) (sources : List SourceStyle) : List SourceStyle :=
  sources.filter fun s => s.order = n

theorem mem_numbered {n : Nat} {s : SourceStyle} {sources : List SourceStyle} :
    s ∈ numbered n sources ↔ s ∈ sources ∧ s.order = n := by
  simp [numbered]

theorem numbered_cons (n : Nat) (s : SourceStyle) (sources : List SourceStyle) :
    numbered n (s :: sources) =
      if s.order = n then s :: numbered n sources else numbered n sources := by
  by_cases h : s.order = n <;> simp [numbered, h]

/-- Whether a list holds the sources by number, and those of one number as they came. -/
structure StableSort (sources sorted : List SourceStyle) : Prop where
  byNumber : sorted.Pairwise fun a b => a.order ≤ b.order
  asTheyCame : ∀ n, numbered n sorted = numbered n sources

theorem order_trans (a b c : SourceStyle) (hab : decide (a.order ≤ b.order) = true)
    (hbc : decide (b.order ≤ c.order) = true) : decide (a.order ≤ c.order) = true :=
  decide_eq_true ((of_decide_eq_true hab).trans (of_decide_eq_true hbc))

theorem order_total (a b : SourceStyle) :
    (decide (a.order ≤ b.order) || decide (b.order ≤ a.order)) = true := by
  simpa using Nat.le_total a.order b.order

theorem sortSources_perm (sources : List SourceStyle) : (sortSources sources).Perm sources :=
  List.mergeSort_perm sources _

theorem pairwise_sortSources (sources : List SourceStyle) :
    (sortSources sources).Pairwise fun a b => a.order ≤ b.order := by
  have hsorted : (sortSources sources).Pairwise fun a b => decide (a.order ≤ b.order) = true :=
    List.pairwise_mergeSort order_trans order_total sources
  exact hsorted.imp of_decide_eq_true

theorem numbered_sortSources (n : Nat) (sources : List SourceStyle) :
    numbered n (sortSources sources) = numbered n sources := by
  refine SortedMap.filter_mergeSort order_trans order_total (fun a b ha hb => ?_) sources
  rw [of_decide_eq_true ha, of_decide_eq_true hb]
  exact decide_eq_true le_rfl

theorem stableSort_sortSources (sources : List SourceStyle) :
    StableSort sources (sortSources sources) :=
  ⟨pairwise_sortSources sources, fun n => numbered_sortSources n sources⟩

theorem StableSort.mem_iff {sources sorted : List SourceStyle} (h : StableSort sources sorted)
    {s : SourceStyle} : s ∈ sorted ↔ s ∈ sources := by
  have hiff := iff_of_eq (congrArg (s ∈ ·) (h.asTheyCame s.order))
  simpa [mem_numbered] using hiff

theorem StableSort.head_le {sources sorted : List SourceStyle} {a s : SourceStyle}
    (h : StableSort sources (a :: sorted)) (hs : s ∈ sources) : a.order ≤ s.order := by
  rcases List.mem_cons.1 (h.mem_iff.2 hs) with rfl | hs
  · exact le_rfl
  · exact (List.pairwise_cons.1 h.byNumber).1 s hs

theorem StableSort.unique {sources l₁ l₂ : List SourceStyle} (h₁ : StableSort sources l₁)
    (h₂ : StableSort sources l₂) : l₁ = l₂ := by
  induction l₁ generalizing sources l₂ with
  | nil =>
    refine (List.eq_nil_iff_forall_not_mem.2 fun s hs => ?_).symm
    exact List.not_mem_nil (h₁.mem_iff.2 (h₂.mem_iff.1 hs))
  | cons a l₁ ih =>
    cases l₂ with
    | nil => exact absurd (h₂.mem_iff.2 (h₁.mem_iff.1 List.mem_cons_self)) List.not_mem_nil
    | cons b l₂ =>
      have horder : b.order = a.order :=
        le_antisymm (h₂.head_le (h₁.mem_iff.1 List.mem_cons_self))
          (h₁.head_le (h₂.mem_iff.1 List.mem_cons_self))
      -- both heads are the first that came with the least number
      have hnumbered : ∀ n, numbered n (a :: l₁) = numbered n (b :: l₂) := fun n =>
        (h₁.asTheyCame n).trans (h₂.asTheyCame n).symm
      have hhead := hnumbered a.order
      rw [numbered_cons, numbered_cons, if_pos rfl, if_pos horder] at hhead
      obtain ⟨rfl, hrest⟩ := List.cons.inj hhead
      have htail : ∀ n, numbered n l₂ = numbered n l₁ := by
        intro n
        have hn := hnumbered n
        rw [numbered_cons, numbered_cons] at hn
        split at hn
        · exact (List.cons.inj hn).2.symm
        · exact hn.symm
      rw [ih ⟨(List.pairwise_cons.1 h₁.byNumber).2, fun _ => rfl⟩
        ⟨(List.pairwise_cons.1 h₂.byNumber).2, htail⟩]

/-! ## Joining -/

/-- The styles of a component whose sources are joined as they come. -/
def ModeStyles.inOrder (tag mode : String) (sources : List SourceStyle) : ModeStyles where
  tag := tag
  mode := mode
  plainText := joinTexts (sources.map (·.plainText))
  scopedText :=
    if sources.any (·.scopedText.isSome) then some (joinTexts (sources.map (·.scopedText)))
    else none

theorem ofSources_eq_inOrder (tag mode : String) {sources sorted : List SourceStyle}
    (h : StableSort sources sorted) :
    ModeStyles.ofSources tag mode sources = .inOrder tag mode sorted := by
  obtain rfl := h.unique (stableSort_sortSources sources)
  unfold ModeStyles.ofSources ModeStyles.inOrder
  rw [(sortSources_perm sources).any_eq]

theorem stableSort_results {env : StyleEnv} {c : Component} {sources : StyleSources}
    {results : List SourceStyle}
    (h : results.Perm (sources.plan.map fun task => (task.run env c).1)) :
    StableSort results (sources.plan.map fun task => (task.run env c).1) := by
  have hlt : (sources.plan.map fun task => (task.run env c).1).Pairwise
      fun a b => a.order < b.order := by
    refine List.pairwise_map.2 ((StyleSources.pairwise_plan sources).imp fun {a b} hab => ?_)
    rwa [a.order_run, b.order_run]
  have hnodup : ((sources.plan.map fun task => (task.run env c).1).map (·.order)).Nodup :=
    List.pairwise_map.2 (hlt.imp Nat.ne_of_lt)
  have hperm := (sortSources_perm results).trans h
  have hsorted : sortSources results = sources.plan.map fun task => (task.run env c).1 := by
    refine hperm.eq_of_pairwise (fun a b ha hb hab hba => ?_) (pairwise_sortSources results)
      (hlt.imp Nat.le_of_lt)
    exact List.inj_on_of_nodup_map hnodup (hperm.mem_iff.1 ha) hb (le_antisymm hab hba)
  rw [← hsorted]
  exact stableSort_sortSources results

/-- **Joined styles follow the declaration.** Tasks carry strictly increasing numbers, so results
that come in any order are joined as declared; where numbers repeat, the styles depend on no more
than the stable sort. -/
theorem joined_in_declared_order (tag mode : String) :
    (∀ sources : StyleSources,
      sources.plan.Pairwise (fun a b => a.order < b.order) ∧
      (∀ task, task ∈ sources.plan ↔
        (∃ i kind p, sources.paths[i]? = some p ∧ StyleKind.ofPath? p = some kind ∧
          task = .ofFile kind (i + 1) p) ∨
        ∃ text, sources.inlineText = some text ∧
          task = .inlineText (sources.paths.length + 1) text) ∧
      ∀ (env : StyleEnv) (c : Component) (results : List SourceStyle),
        results.Perm (sources.plan.map fun task => (task.run env c).1) →
        ModeStyles.ofSources tag mode results =
          .inOrder tag mode (sources.plan.map fun task => (task.run env c).1)) ∧
    ∀ sources : List SourceStyle, StableSort sources (sortSources sources) ∧
      ∀ sorted, StableSort sources sorted →
        ModeStyles.ofSources tag mode sources = .inOrder tag mode sorted := by
  refine ⟨fun sources => ⟨sources.pairwise_plan, fun task => sources.mem_plan_iff, ?_⟩,
    fun sources => ⟨stableSort_sortSources sources, fun sorted h => ?_⟩⟩
  · intro env c results hperm
    exact ofSources_eq_inOrder tag mode (stableSort_results hperm)
  · exact ofSources_eq_inOrder tag mode h

/-- A sheet, a file of no known kind and a text of the component, whose numbers leave a gap. -/
def gappedSources : StyleSources where
  paths := [⟨"a.css"⟩, ⟨"a.txt"⟩]
  inlineText := some "p\x7b\x7d"

/-- Sources that share a number, one without a plain text and only one with a scoped text. -/
def tiedSources : List SourceStyle :=
  [{ order := 3, plainText := some "b\x7b\x7d" }, { order := 1, scopedText := some "a\x7b\x7d" },
    { order := 3, plainText := some "c\x7b\x7d" }]

/-- Results that come in reverse are joined as declared, and sources of one number as they come. -/
theorem disordered_sources_joined :
    gappedSources.plan = [.css 1 ⟨"a.css"⟩, .inlineText 3 "p\x7b\x7d"] ∧
    ModeStyles.ofSources "x-a" "$"
        (gappedSources.plan.map fun task => (task.run layeredEnv layeredComponent).1).reverse =
      { tag := "x-a", mode := "$",
        plainText := "@media all\x7bh1\x7b\x7d\x7d\n\np\x7b\x7d",
        scopedText := some "@media all\x7bh1[data-x-a]\x7b\x7d\x7d\n\np[data-x-a]\x7b\x7d" } ∧
    ModeStyles.ofSources "x-a" "$" tiedSources =
      { tag := "x-a", mode := "$", plainText := "b\x7b\x7d\n\nc\x7b\x7d",
        scopedText := some "a\x7b\x7d" } := by
  obtain ⟨hplanned, hany⟩ := joined_in_declared_order "x-a" "$"
  refine ⟨by decide +kernel, ?_, ?_⟩
  · rw [(hplanned gappedSources).2.2 layeredEnv layeredComponent _ (List.reverse_perm _)]
    decide +kernel
  · have hsorted : StableSort tiedSources [{ order := 1, scopedText := some "a\x7b\x7d" },
        { order := 3, plainText := some "b\x7b\x7d" },
        { order := 3, plainText := some "c\x7b\x7d" }] := by
      refine ⟨by simp, fun n => ?_⟩
      by_cases h : 1 = n
      · subst h
        decide +kernel
      · simp [tiedSources, numbered_cons, h]
    rw [(hany tiedSources).2 _ hsorted]
    decide +kernel

end ComponentBundle
