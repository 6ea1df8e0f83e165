import ComponentBundle.Proofs.FilePath
import ComponentBundle.Proofs.SortedMap
import ComponentBundle.Style.Cache
import Mathlib.Data.Finset.Card

/-!
# The style cache as a map of last updates

However updates are handed to a new style cache, it serves for each path the last update of its
kind, where paths are the same if their components are. A change set decides whether it serves
anything, by the extensions and the stems of its files.

* `hasExtension_iff`, `touchesModule_iff` : what counts as a style file, and as the module's own;
* `css_apply`, `preprocessed_apply` : the entries of one kind are those of the updates of that kind;
* `size_ofList` : a map has an entry for each different path;
* `cache_serves_last_updates` : all look-ups and counts after any updates.
-/

namespace ComponentBundle

/-! ## Style files -/

namespace StyleKind

/-- The spellings of a letter of an extension, in any case; a long s is an s. -/
def spellings (letter : Char) : List Char :=
  if letter = 's' then ['s', 'S', 'ſ'] else [letter, letter.toUpper]

/-- Whether a path ends in an extension, in any case. -/
def EndsIn (p : FilePath) (extension : String) : Prop :=
  ∃ body ending, p.text.toList = body ++ ending ∧
    List.Forall₂ (fun c letter => c ∈ spellings letter) ending extension.toList

theorem toNat_toLower (c : Char) :
    c.toLower.toNat = if 65 ≤ c.toNat ∧ c.toNat ≤ 90 then c.toNat + 32 else c.toNat := by
  unfold Char.toLower
  split
  · rename_i h
    simp only [ge_iff_le, UInt32.le_iff_toNat_le] at h
    have hupper : 65 ≤ c.toNat ∧ c.toNat ≤ 90 := h
    rw [if_pos hupper]
    show (c.toNat + 32) % 2 ^ 32 = c.toNat + 32
    omega
  · rename_i h
    simp only [ge_iff_le, UInt32.le_iff_toNat_le] at h
    have hother : ¬ (65 ≤ c.toNat ∧ c.toNat ≤ 90) := h
    rw [if_neg hother]

theorem sameLetter_iff {c letter : Char} (h : letter ∈ ['.', 'a', 'c', 's']) :
    sameLetter c letter = true ↔ c ∈ spellings letter := by
  have hlower := toNat_toLower c
  unfold sameLetter
  rw [Bool.or_eq_true, Bool.and_eq_true, beq_iff_eq, beq_iff_eq, beq_iff_eq]
  simp only [List.mem_cons, List.not_mem_nil, or_false] at h
  rcases h with rfl | rfl | rfl | rfl
  all_goals
    simp only [spellings, Char.reduceEq, Char.reduceToUpper, reduceIte, List.mem_cons,
      List.not_mem_nil, or_false, and_true, and_false]
    simp only [← Char.toNat_inj, hlower, Char.reduceToNat]
    split <;> omega

theorem startsWithLetters_iff {s letters : List Char}
    (h : ∀ letter ∈ letters, letter ∈ ['.', 'a', 'c', 's']) :
    startsWithLetters s letters = true ↔
      ∃ start rest, s = start ++ rest ∧
        List.Forall₂ (fun c letter => c ∈ spellings letter) start letters := by
  induction letters generalizing s with
  | nil => simp [startsWithLetters]
  | cons letter letters ih =>
    obtain ⟨hletter, hletters⟩ := List.forall_mem_cons.1 h
    cases s with
    | nil => simp [startsWithLetters]
    | cons c s =>
      rw [startsWithLetters, Bool.and_eq_true, sameLetter_iff hletter, ih hletters]
      constructor
      · rintro ⟨hc, start, rest, rfl, hstart⟩
        exact ⟨c :: start, rest, rfl, .cons hc hstart⟩
      · rintro ⟨start, rest, hs, hstart⟩
        cases hstart with
        | cons hc hstart =>
          obtain ⟨rfl, rfl⟩ := List.cons.inj hs
          exact ⟨hc, _, rest, rfl, hstart⟩

/-- An extension is read off the end of a path, whatever its case. -/
theorem hasExtension_iff {p : FilePath} {extension : String}
    (h : ∀ letter ∈ extension.toList, letter ∈ ['.', 'a', 'c', 's']) :
    hasExtension p extension = true ↔ EndsIn p extension := by
  unfold hasExtension EndsIn
  rw [startsWithLetters_iff fun letter hl => h letter (List.mem_reverse.1 hl)]
  constructor
  · rintro ⟨start, rest, htext, hstart⟩
    refine ⟨rest.reverse, start.reverse, ?_, ?_⟩
    · rw [← List.reverse_append, ← htext, List.reverse_reverse]
    · rwa [← List.forall₂_reverse_iff, List.reverse_reverse]
  · rintro ⟨body, ending, htext, hending⟩
    refine ⟨ending.reverse, body.reverse, ?_, List.forall₂_reverse_iff.2 hending⟩
    rw [htext, List.reverse_append]

theorem isCssFile_iff {p : FilePath} : isCssFile p = true ↔ EndsIn p ".css" :=
  hasExtension_iff (by simp)

theorem isPreprocessorFile_iff {p : FilePath} :
    isPreprocessorFile p = true ↔ EndsIn p ".scss" ∨ EndsIn p ".sass" := by
  unfold isPreprocessorFile
  rw [Bool.or_eq_true, hasExtension_iff (by simp), hasExtension_iff (by simp)]

end StyleKind

/-! ## Change sets -/

namespace ChangeSet

open StyleKind

variable {change : ChangeSet}

theorem hasCssChange_iff : change.hasCssChange = true ↔ ∃ f ∈ change.files, EndsIn f ".css" := by
  simp only [hasCssChange, List.any_eq_true, isCssFile_iff]

theorem hasPreprocessorChange_iff :
    change.hasPreprocessorChange = true ↔
      ∃ f ∈ change.files, EndsIn f ".scss" ∨ EndsIn f ".sass" := by
  simp only [hasPreprocessorChange, List.any_eq_true, isPreprocessorFile_iff]

/-- A change touches a module exactly if a changed file has the stem that the module has. -/
theorem touchesModule_iff {modulePath : FilePath} :
    change.touchesModule modulePath = true ↔
      ∃ stem, modulePath.HasStem stem ∧ ∃ f ∈ change.files, f.HasStem stem := by
  simp only [← FilePath.stem?_eq_some_iff]
  unfold touchesModule
  cases modulePath.stem? with
  | none => simp
  | some stem => simp [List.any_eq_true]

end ChangeSet

/-! ## Maps of updates -/

/-- The updates of one kind as entries of a map. -/
def entriesOf (kind : StyleKind) (updates : List CacheUpdate) : List (FilePath × CachedStyle) :=
  (updates.filter (·.kind = kind)).map fun u => (u.path, u.style)

/-- Whether the last update of a kind for a path remembers a style. -/
def IsLastUpdate (updates : List CacheUpdate) (kind : StyleKind) (p : FilePath)
    (style : CachedStyle) : Prop :=
  ∃ before u after, updates = before ++ u :: after ∧
    u.kind = kind ∧ u.path.components = p.components ∧ u.style = style ∧
    ∀ later ∈ after, later.kind = kind → later.path.components ≠ p.components

theorem lastValue?_entriesOf {updates : List CacheUpdate} {kind : StyleKind} {p : FilePath}
    {style : CachedStyle} :
    SortedMap.lastValue? (entriesOf kind updates) p = some style ↔
      IsLastUpdate updates kind p style := by
  let isFor := fun u : CacheUpdate => decide (u.kind = kind ∧ compare p u.path = .eq)
  have hfor : ∀ u, isFor u = true ↔ u.kind = kind ∧ u.path.components = p.components := by
    intro u
    rw [decide_eq_true_iff, FilePath.compare_eq_iff]
    exact and_congr_right fun _ => eq_comm
  have hlast : SortedMap.lastValue? (entriesOf kind updates) p =
      (updates.reverse.find? isFor).map (·.style) := by
    unfold SortedMap.lastValue? entriesOf
    rw [← List.map_reverse, ← List.filter_reverse, List.find?_map, List.find?_filter,
      Option.map_map]
    simp only [Function.comp, decide_eq_true_eq]
    rfl
  rw [hlast, Option.map_eq_some_iff]
  constructor
  · rintro ⟨u, hfind, rfl⟩
    obtain ⟨hu, after, before, hsplit, hafter⟩ := List.find?_eq_some_iff_append.1 hfind
    obtain ⟨hkind, hpath⟩ := (hfor u).1 hu
    refine ⟨before.reverse, u, after.reverse, ?_, hkind, hpath, rfl, fun later hlater hk hp => ?_⟩
    · rw [← List.reverse_reverse updates, hsplit]
      simp
    · have hnone := hafter later (List.mem_reverse.1 hlater)
      rw [(hfor later).2 ⟨hk, hp⟩] at hnone
      cases hnone
  · rintro ⟨before, u, after, rfl, hkind, hpath, rfl, hafter⟩
    refine ⟨u, List.find?_eq_some_iff_append.2 ⟨(hfor u).2 ⟨hkind, hpath⟩, after.reverse,
      before.reverse, by simp, fun later hlater => ?_⟩, rfl⟩
    rw [Bool.not_eq_true', ← Bool.not_eq_true, hfor]
    exact fun h => hafter later (List.mem_reverse.1 hlater) h.1 h.2

namespace StyleCache

variable (cache : StyleCache) (updates : List CacheUpdate)

theorem css_apply :
    (cache.apply updates).css = cache.css.insertMany (entriesOf .css updates) := by
  induction updates generalizing cache with
  | nil => rfl
  | cons u updates ih =>
    rw [apply, List.foldl_cons, ← apply, ih, applyUpdate, entriesOf, entriesOf, List.filter_cons]
    cases u.kind <;> rfl

theorem preprocessed_apply :
    (cache.apply updates).preprocessed =
      cache.preprocessed.insertMany (entriesOf .preprocessed updates) := by
  induction updates generalizing cache with
  | nil => rfl
  | cons u updates ih =>
    rw [apply, List.foldl_cons, ← apply, ih, applyUpdate, entriesOf, entriesOf, List.filter_cons]
    cases u.kind <;> rfl

theorem apply_flatten (batches : List (List CacheUpdate)) :
    batches.foldl apply cache = cache.apply batches.flatten := by
  induction batches generalizing cache with
  | nil => rfl
  | cons batch batches ih => rw [List.foldl_cons, ih, List.flatten_cons, apply_append]

end StyleCache

/-! ## How many paths -/

/-- The different paths of updates of one kind. -/
def pathsOf (kind : StyleKind) (updates : List CacheUpdate) : Finset (List PathComponent) :=
  ((updates.filter (·.kind = kind)).map (·.path.components)).toFinset

theorem size_ofList (entries : List (FilePath × CachedStyle)) :
    (SortedMap.ofList entries).size = (entries.map (·.1.components)).toFinset.card := by
  have hnodup : ((SortedMap.ofList entries).keys.map FilePath.components).Nodup := by
    rw [SortedMap.keys, List.map_map]
    refine List.pairwise_map.2 ((SortedMap.sorted _).imp fun {a b} h heq => ?_)
    rw [FilePath.compare_eq_iff.2 heq] at h
    cases h
  have hsame : ((SortedMap.ofList entries).keys.map FilePath.components).toFinset =
      (entries.map (·.1.components)).toFinset := by
    ext components
    simp only [List.mem_toFinset, List.mem_map]
    constructor
    · rintro ⟨p, hp, rfl⟩
      have hsome := SortedMap.get?_isSome_iff.2 ⟨p, hp, Std.ReflCmp.compare_self⟩
      rw [SortedMap.get?_ofList] at hsome
      obtain ⟨style, hstyle⟩ := Option.isSome_iff_exists.1 hsome
      obtain ⟨q, hq, hmem⟩ := SortedMap.mem_of_lastValue? hstyle
      exact ⟨_, hmem, (FilePath.compare_eq_iff.1 hq).symm⟩
    · rintro ⟨e, he, rfl⟩
      obtain ⟨last, hlast⟩ := SortedMap.exists_lastValue? (k := e.1) (v := e.2) he
      rw [← SortedMap.get?_ofList] at hlast
      obtain ⟨q, hq, hcompare⟩ := SortedMap.get?_isSome_iff.1 (Option.isSome_of_mem hlast)
      exact ⟨q, hq, (FilePath.compare_eq_iff.1 hcompare).symm⟩
  rw [← hsame, List.toFinset_card_of_nodup hnodup, List.length_map, SortedMap.keys, List.length_map]
  rfl

/-! ## Any updates -/

/-- Whether a cache is the map of the last updates among these. -/
structure StyleCache.ServesLast (cache : StyleCache) (updates : List CacheUpdate) : Prop where
  css : ∀ change p style, cache.reusableCss? change p = some style ↔
    ∃ changed, change = some changed ∧ (∀ f ∈ changed.files, ¬ StyleKind.EndsIn f ".css") ∧
      IsLastUpdate updates .css p style
  preprocessed : ∀ change p modulePath style,
    cache.reusablePreprocessed? change p modulePath = some style ↔
      ∃ changed, change = some changed ∧
        (∀ f ∈ changed.files, ¬ StyleKind.EndsIn f ".scss" ∧ ¬ StyleKind.EndsIn f ".sass") ∧
        (∀ path stem, modulePath = some path → path.HasStem stem →
          ∀ f ∈ changed.files, ¬ f.HasStem stem) ∧
        IsLastUpdate updates .preprocessed p style
  /-- Updates of one kind are all that the look-ups of that kind depend on. -/
  apart : ∀ others : List CacheUpdate,
    (others.filter (·.kind = .css) = updates.filter (·.kind = .css) →
      ∀ change p, ((∅ : StyleCache).apply others).reusableCss? change p =
        cache.reusableCss? change p) ∧
    (others.filter (·.kind = .preprocessed) = updates.filter (·.kind = .preprocessed) →
      ∀ change p modulePath,
        ((∅ : StyleCache).apply others).reusablePreprocessed? change p modulePath =
          cache.reusablePreprocessed? change p modulePath)
  size : cache.size = (pathsOf .preprocessed updates).card + (pathsOf .css updates).card
  preprocessCount : cache.preprocessCount = updates.countP (·.kind = .preprocessed)

namespace StyleCache

variable (updates : List CacheUpdate)

theorem css_new : ((∅ : StyleCache).apply updates).css = .ofList (entriesOf .css updates) :=
  css_apply ∅ updates

theorem preprocessed_new :
    ((∅ : StyleCache).apply updates).preprocessed = .ofList (entriesOf .preprocessed updates) :=
  preprocessed_apply ∅ updates

theorem reusableCss?_new {change : Option ChangeSet} {p : FilePath} {style : CachedStyle} :
    ((∅ : StyleCache).apply updates).reusableCss? change p = some style ↔
      ∃ changed, change = some changed ∧ (∀ f ∈ changed.files, ¬ StyleKind.EndsIn f ".css") ∧
        IsLastUpdate updates .css p style := by
  unfold reusableCss?
  rw [css_new, SortedMap.get?_ofList]
  cases change with
  | none => simp
  | some changed =>
    have hchange := @ChangeSet.hasCssChange_iff changed
    rw [← lastValue?_entriesOf]
    simp only [Option.bind_eq_bind, Option.bind_some, Option.ite_none_left_eq_some, hchange,
      not_exists, not_and, Option.some.injEq, exists_eq_left']

theorem reusablePreprocessed?_new {change : Option ChangeSet} {p : FilePath}
    {modulePath : Option FilePath} {style : CachedStyle} :
    ((∅ : StyleCache).apply updates).reusablePreprocessed? change p modulePath = some style ↔
      ∃ changed, change = some changed ∧
        (∀ f ∈ changed.files, ¬ StyleKind.EndsIn f ".scss" ∧ ¬ StyleKind.EndsIn f ".sass") ∧
        (∀ path stem, modulePath = some path → path.HasStem stem →
          ∀ f ∈ changed.files, ¬ f.HasStem stem) ∧
        IsLastUpdate updates .preprocessed p style := by
  unfold reusablePreprocessed?
  rw [preprocessed_new, SortedMap.get?_ofList]
  cases change with
  | none => simp
  | some changed =>
    have hchange := @ChangeSet.hasPreprocessorChange_iff changed
    have hmodule : modulePath.any changed.touchesModule = true ↔
        ∃ path stem, modulePath = some path ∧ path.HasStem stem ∧
          ∃ f ∈ changed.files, f.HasStem stem := by
      simp only [Option.any_eq_true, ChangeSet.touchesModule_iff, exists_and_left]
    rw [← lastValue?_entriesOf]
    simp only [Option.bind_eq_bind, Option.bind_some, Option.ite_none_left_eq_some, Bool.or_eq_true,
      hchange, hmodule, not_or, not_exists, not_and, Option.some.injEq, exists_eq_left', and_assoc]

end StyleCache

/-- **The cache is a map of last updates**: whatever updates are handed to a new cache, batch by
batch, it serves the last one of a path and counts what it was handed. -/
theorem cache_serves_last_updates (batches : List (List CacheUpdate)) :
    (batches.foldl StyleCache.apply ∅).ServesLast batches.flatten := by
  rw [StyleCache.apply_flatten]
  generalize batches.flatten = updates
  constructor
  case css => exact fun change p style => StyleCache.reusableCss?_new updates
  case preprocessed =>
    exact fun change p modulePath style => StyleCache.reusablePreprocessed?_new updates
  case apart =>
    refine fun others => ⟨fun h change p => ?_, fun h change p modulePath => ?_⟩
    · unfold StyleCache.reusableCss?
      rw [StyleCache.css_new, StyleCache.css_new, entriesOf, h]
      rfl
    · unfold StyleCache.reusablePreprocessed?
      rw [StyleCache.preprocessed_new, StyleCache.preprocessed_new, entriesOf, h]
      rfl
  case size =>
    have hcard : ∀ kind, (SortedMap.ofList (entriesOf kind updates)).size =
        (pathsOf kind updates).card := by
      intro kind
      rw [size_ofList, entriesOf, List.map_map]
      rfl
    rw [StyleCache.size, StyleCache.css_new, StyleCache.preprocessed_new, hcard, hcard]
  case preprocessCount =>
    rw [StyleCache.preprocessCount_apply]
    show 0 + _ = _
    rw [Nat.zero_add]
    refine List.countP_congr fun u _ => ?_
    rw [beq_iff_eq, decide_eq_true_iff]

end ComponentBundle
