import ComponentBundle.Proofs.Build.Repeat

/-!
# The order of bundles

Bundles share the style cache, the written files, the counts and the registry. A full build in a new
context still puts its results together from what each bundle gives alone, and none of the shared
states tells in which order the bundles came, if tags differ and no file takes the place of a
different one.

One thing tells: a file that is in the web tree already is not queued, so of two files that share
their place there, only the first one is queued for the other tree, wherever its place is there.

* `get?_tree_writeAll_iff`, `get?_cache_writeAll_iff` : the trees and the cache hold the files,
  whatever their order is;
* `written_writeAll`, `written_add_unchanged` : the counts follow from the cache and the number of
  files;
* `builds_ignore_order` : all results of a build.
-/

namespace ComponentBundle

/-- Whether files that share their place in the web tree share it in a tree. -/
def LaidOutAlike (config : Config) (t : OutputTree) (files : List Artifact) : Prop :=
  ∀ a ∈ files, ∀ a' ∈ files,
    compare (wwwPath config a.fileName) (wwwPath config a'.fileName) = .eq →
      compare (t.path config a.fileName) (t.path config a'.fileName) = .eq

/-! ## Files written into empty trees -/

section Writing

variable {config : Config} {t : OutputTree} {files files' : List Artifact} {p : FilePath}
  {text : String}

/-- The cache holds the files that were written, and no others. -/
theorem get?_cache_writeAll_iff (hfiles : NoOverwriting config .www files) :
    (Emission.writeAll config {} files).cache.contents.get? p = some text ↔
      ∃ a ∈ files, compare p (wwwPath config a.fileName) = .eq ∧ a.content = text := by
  constructor
  · intro htext
    rw [Emission.get?_cache_writeAll] at htext
    obtain ⟨place, hplace, hmem⟩ := SortedMap.mem_of_lastValue? (Option.or_none.symm.trans htext)
    obtain ⟨a, ha, heq⟩ := List.mem_map.1 hmem
    obtain ⟨rfl, rfl⟩ := Prod.mk.inj heq
    exact ⟨a, ha, hplace, rfl⟩
  · rintro ⟨a, ha, hplace, rfl⟩
    obtain ⟨b, hb, hplace', hget⟩ := Emission.exists_cache_writeAll {} ha
    rw [SortedMap.get?_congr _ hplace, hget, hfiles a ha b hb hplace']

theorem NoOverwriting.of_append {more : List Artifact}
    (h : NoOverwriting config t (files ++ more)) : NoOverwriting config t files :=
  fun a ha a' ha' => h a (List.mem_append_left _ ha) a' (List.mem_append_left _ ha')

theorem LaidOutAlike.of_append {more : List Artifact}
    (h : LaidOutAlike config t (files ++ more)) : LaidOutAlike config t files :=
  fun a ha a' ha' => h a (List.mem_append_left _ ha) a' (List.mem_append_left _ ha')

/-- A tree holds the files that were written, and no others. -/
theorem get?_tree_writeAll_iff (henabled : t.enabled config = true)
    (hweb : NoOverwriting config .www files) (hfiles : NoOverwriting config t files)
    (hlayout : LaidOutAlike config t files) :
    (t.of (Emission.writeAll config {} files).files).get? p = some text ↔
      ∃ a ∈ files, compare p (t.path config a.fileName) = .eq ∧ a.content = text := by
  induction files using List.reverseRecOn with
  | nil =>
    show (t.of ∅).get? p = some text ↔ _
    rw [t.of_empty]
    simp
  | append_singleton files a ih =>
    have hone := ih hweb.of_append hfiles.of_append hlayout.of_append
    have hlast : a ∈ files ++ [a] := List.mem_append_right _ (List.mem_singleton_self a)
    rw [Emission.writeAll_append]
    show (t.of ((Emission.writeAll config {} files).write config a).2.files).get? p = _ ↔ _
    by_cases hholds : (Emission.writeAll config {} files).cache.Holds config a
    · -- not queued, but an earlier file is in its place
      obtain ⟨b, hb, hplace, hcontent⟩ := (get?_cache_writeAll_iff hweb.of_append).1 hholds
      have hbefore : b ∈ files ++ [a] := List.mem_append_left _ hb
      rw [Emission.write_unchanged hholds, hone]
      constructor
      · rintro ⟨c, hc, hp⟩
        exact ⟨c, List.mem_append_left _ hc, hp⟩
      · rintro ⟨c, hc, hp, rfl⟩
        rcases List.mem_append.1 hc with hc | hc
        · exact ⟨c, hc, hp, rfl⟩
        · obtain rfl := List.mem_singleton.1 hc
          exact ⟨b, hb, Std.TransCmp.eq_trans hp (hlayout c hlast b hbefore hplace), hcontent⟩
    · rw [Emission.write_written hholds]
      dsimp only
      rw [of_queue, if_pos henabled, SortedMap.get?_insert]
      by_cases hp : compare p (t.path config a.fileName) = .eq
      · rw [if_pos hp, Option.some.injEq]
        constructor
        · exact fun hcontent => ⟨a, hlast, hp, hcontent⟩
        · rintro ⟨c, hc, hpc, rfl⟩
          have hsame := Std.TransCmp.eq_trans (Std.OrientedCmp.eq_symm hp) hpc
          exact hfiles a hlast c hc hsame
      · rw [if_neg hp, hone]
        constructor
        · rintro ⟨c, hc, hpc⟩
          exact ⟨c, List.mem_append_left _ hc, hpc⟩
        · rintro ⟨c, hc, hpc, hcontent⟩
          rcases List.mem_append.1 hc with hc | hc
          · exact ⟨c, hc, hpc, hcontent⟩
          · exact absurd (List.mem_singleton.1 hc ▸ hpc) hp

theorem written_writeAll (hfiles : NoOverwriting config .www files) :
    (Emission.writeAll config {} files).written =
      (Emission.writeAll config {} files).cache.contents.size := by
  induction files using List.reverseRecOn with
  | nil => rfl
  | append_singleton files a ih =>
    have hone := ih hfiles.of_append
    have hlast : a ∈ files ++ [a] := List.mem_append_right _ (List.mem_singleton_self a)
    rw [Emission.writeAll_append]
    show ((Emission.writeAll config {} files).write config a).2.written =
      ((Emission.writeAll config {} files).write config a).2.cache.contents.size
    by_cases hholds : (Emission.writeAll config {} files).cache.Holds config a
    · rw [Emission.write_unchanged hholds]
      exact hone
    · have hfree : (Emission.writeAll config {} files).cache.contents.get?
          (wwwPath config a.fileName) = none := by
        refine Option.eq_none_iff_forall_ne_some.2 fun text htext => hholds ?_
        obtain ⟨b, hb, hplace, rfl⟩ := (get?_cache_writeAll_iff hfiles.of_append).1 htext
        rw [EmitCache.Holds, htext, hfiles a hlast b (List.mem_append_left _ hb) hplace]
      rw [Emission.write_written hholds]
      dsimp only
      rw [SortedMap.size_insert hfree, hone]

theorem written_add_unchanged (s : Emission) :
    (s.writeAll config files).written + (s.writeAll config files).unchanged =
      s.written + s.unchanged + files.length := by
  induction files generalizing s with
  | nil => rfl
  | cons a files ih =>
    rw [Emission.writeAll, List.foldl_cons, ← Emission.writeAll, ih, List.length_cons]
    by_cases hholds : s.cache.Holds config a
    · rw [Emission.write_unchanged hholds]
      dsimp only
      omega
    · rw [Emission.write_written hholds]
      dsimp only
      omega

/-! ## Files in another order -/

theorem NoOverwriting.perm (h : NoOverwriting config t files) (hperm : files.Perm files') :
    NoOverwriting config t files' :=
  fun a ha a' ha' => h a (hperm.mem_iff.2 ha) a' (hperm.mem_iff.2 ha')

theorem LaidOutAlike.perm (h : LaidOutAlike config t files) (hperm : files.Perm files') :
    LaidOutAlike config t files' :=
  fun a ha a' ha' => h a (hperm.mem_iff.2 ha) a' (hperm.mem_iff.2 ha')

theorem same_tree_of_perm (hperm : files.Perm files') (hweb : NoOverwriting config .www files)
    (hfiles : NoOverwriting config t files)
    (hlayout : t.enabled config = true → LaidOutAlike config t files) :
    (t.of (Emission.writeAll config {} files).files).Same
      (t.of (Emission.writeAll config {} files').files) := by
  refine SortedMap.same_iff.2 fun p => ?_
  cases henabled : t.enabled config with
  | false => rw [of_files_writeAll henabled, of_files_writeAll henabled]
  | true =>
    refine Option.ext fun text => ?_
    rw [get?_tree_writeAll_iff henabled hweb hfiles (hlayout henabled),
      get?_tree_writeAll_iff henabled (hweb.perm hperm) (hfiles.perm hperm)
        ((hlayout henabled).perm hperm)]
    simp only [hperm.mem_iff]

theorem same_counts_of_perm (hperm : files.Perm files')
    (hweb : NoOverwriting config .www files) :
    (Emission.writeAll config {} files).written = (Emission.writeAll config {} files').written ∧
      (Emission.writeAll config {} files).unchanged =
        (Emission.writeAll config {} files').unchanged := by
  have hcache : (Emission.writeAll config {} files).cache.contents.Same
      (Emission.writeAll config {} files').cache.contents := by
    refine SortedMap.same_iff.2 fun p => Option.ext fun text => ?_
    rw [get?_cache_writeAll_iff hweb, get?_cache_writeAll_iff (hweb.perm hperm)]
    simp only [hperm.mem_iff]
  have hwritten : (Emission.writeAll config {} files).written =
      (Emission.writeAll config {} files').written := by
    rw [written_writeAll hweb, written_writeAll (hweb.perm hperm), hcache.size_eq]
  have hall := @written_add_unchanged config files {}
  have hall' := @written_add_unchanged config files' {}
  have hlength := hperm.length_eq
  exact ⟨hwritten, by omega⟩

end Writing

/-! ## Bundles in another order -/

section Builds

variable {config : Config} {world : StyleWorld} {bundles bundles' : List ManifestBundle}

theorem assembledFiles_alone (bundles : List ManifestBundle) :
    assembledFiles config world ∅ bundles =
      bundles.flatMap fun b => assembledFiles config world ∅ [b] := by
  rw [assembledFiles_of_full rfl]
  refine List.flatMap_congr fun b _ => ?_
  rw [assembledFiles_of_full rfl, List.flatMap_singleton]

theorem announced_alone (bundles : List ManifestBundle) :
    (generateBundles config world ∅ bundles).results.bundles.map EmittedBundle.announced =
      bundles.flatMap fun b =>
        (generateBundles config world ∅ [b]).results.bundles.map EmittedBundle.announced := by
  rw [announced_of_full rfl]
  refine List.flatMap_congr fun b _ => ?_
  rw [announced_of_full rfl, List.flatMap_singleton]

theorem perm_assembledFiles (hperm : bundles.Perm bundles') :
    (assembledFiles config world ∅ bundles).Perm (assembledFiles config world ∅ bundles') := by
  rw [assembledFiles_of_full rfl, assembledFiles_of_full rfl]
  exact hperm.flatMap_right _

theorem registry_of_perm (hperm : bundles.Perm bundles') (hdistinct : DistinctTags bundles) :
    (generateBundles config world ∅ bundles).results.registry =
      (generateBundles config world ∅ bundles').results.registry := by
  rw [registry_of_full rfl, registry_of_full rfl]
  refine SortedMap.ofList_perm ((hperm.flatMap_right _).map _) ?_
  rw [List.map_map, List.map_flatMap]
  unfold DistinctTags at hdistinct
  rw [List.map_flatMap] at hdistinct
  convert hdistinct using 3
  exact tags_registeredMembers config world.minifiers _ _

theorem diagnostics_of_perm (hperm : bundles.Perm bundles') :
    (generateBundles config world ∅ bundles).results.diagnostics.Perm
      (generateBundles config world ∅ bundles').results.diagnostics := by
  rw [diagnostics_of_full rfl, diagnostics_of_full rfl]
  exact (hperm.flatMap_right _).append (hperm.flatMap_right _)

theorem stats_of_perm (hperm : bundles.Perm bundles')
    (hweb : NoOverwriting config .www (assembledFiles config world ∅ bundles)) :
    (generateBundles config world ∅ bundles).results.stats =
      (generateBundles config world ∅ bundles').results.stats := by
  obtain ⟨hwritten, hunchanged⟩ := same_counts_of_perm (perm_assembledFiles hperm) hweb
  have hpreprocessed : (generateBundles config world ∅ bundles).results.stats.preprocessCount =
      (generateBundles config world ∅ bundles').results.stats.preprocessCount := by
    rw [preprocessCount_of_full rfl, preprocessCount_of_full rfl]
    exact (hperm.flatMap_right _).countP_eq _
  have hfilesWritten : (generateBundles config world ∅ bundles).results.stats.filesWritten =
      (generateBundles config world ∅ bundles').results.stats.filesWritten := by
    rw [filesWritten_generateBundles, filesWritten_generateBundles]
    exact hwritten
  have hfilesUnchanged : (generateBundles config world ∅ bundles).results.stats.filesUnchanged =
      (generateBundles config world ∅ bundles').results.stats.filesUnchanged := by
    rw [filesUnchanged_generateBundles, filesUnchanged_generateBundles]
    exact hunchanged
  exact BuildStats.ext hpreprocessed hfilesWritten hfilesUnchanged

theorem laidOutAlike_of_relative (hvalid : config.problem? = none)
    (hrelative : ∀ b ∈ bundles, b.RelativeTags) (t : OutputTree) :
    LaidOutAlike config t (assembledFiles config world ∅ bundles) := by
  have hfiles : ∀ a ∈ assembledFiles config world ∅ bundles, IsRelative a.fileName :=
    isRelative_assembled config {} ⟨world, none⟩ hrelative
  intro a ha a' ha' hplace
  exact (compare_path_iff t hvalid (hfiles a ha) (hfiles a' ha')).2 hplace

end Builds

/-- Whether two builds give the same, apart from the order in which they list bundles and
diagnostics and from what they queue for the second tree. -/
structure BuildResults.SameUpToOrder (r r' : BuildResults) : Prop where
  www : r.files.www.Same r'.files.www
  registry : r.registry = r'.registry
  stats : r.stats = r'.stats
  diagnostics : r.diagnostics.Perm r'.diagnostics
  bundles : (r.bundles.map EmittedBundle.announced).Perm (r'.bundles.map EmittedBundle.announced)

/-- **The order of bundles does not matter**, and no bundle matters to another one. Full builds in
new contexts give the same in every order if all tags differ and no file takes the place of a
different one. They queue the same files for the second tree if files that share their place in the
web tree share it there as well, as they do where tags are relative. -/
theorem builds_ignore_order {config : Config} {world : StyleWorld}
    {bundles bundles' : List ManifestBundle} (hperm : bundles.Perm bundles')
    (hdistinct : DistinctTags bundles)
    (hfiles : ∀ t, NoOverwriting config t (assembledFiles config world ∅ bundles)) :
    let build := fun bs => (generateBundles config world ∅ bs).results
    let files := fun bs => assembledFiles config world ∅ bs
    (build bundles).SameUpToOrder (build bundles') ∧
      ((config.writesDist = true → LaidOutAlike config .dist (files bundles)) →
        (build bundles).files.dist.Same (build bundles').files.dist) ∧
      (config.problem? = none → (∀ b ∈ bundles, b.RelativeTags) →
        LaidOutAlike config .dist (files bundles)) ∧
      ∀ bs : List ManifestBundle,
        (build bs).bundles.map EmittedBundle.announced =
            bs.flatMap (fun b => (build [b]).bundles.map EmittedBundle.announced) ∧
          files bs = bs.flatMap fun b => files [b] := by
  intro build files
  have hfilesPerm : (files bundles).Perm (files bundles') := perm_assembledFiles hperm
  have htrees : ∀ t : OutputTree,
      (t.enabled config = true → LaidOutAlike config t (files bundles)) →
        (t.of (build bundles).files).Same (t.of (build bundles').files) := by
    intro t hlayout
    have hsame := same_tree_of_perm hfilesPerm (hfiles .www) (hfiles t) hlayout
    rw [files_generateBundles, files_generateBundles]
    exact hsame
  refine ⟨?_, htrees .dist, fun hvalid hrelative => laidOutAlike_of_relative hvalid hrelative .dist,
    fun bs => ⟨announced_alone bs, assembledFiles_alone bs⟩⟩
  exact {
    www := htrees .www fun _ _ _ _ _ hplace => hplace
    registry := registry_of_perm hperm hdistinct
    stats := stats_of_perm hperm (hfiles .www)
    diagnostics := diagnostics_of_perm hperm
    bundles := by
      rw [announced_of_full rfl, announced_of_full rfl]
      exact hperm.flatMap_right _ }

/-! ## Two bundles in both orders -/

def scriptBundle (tag moduleText : String) : ManifestBundle := ⟨[{ tag := tag }], moduleText⟩

def bothTrees : Config := { writesDist := true }

def firstOrder : List ManifestBundle := [scriptBundle "x-a" "f()", scriptBundle "x-b" "g()"]

theorem assembledFiles_firstOrder :
    assembledFiles bothTrees emptyWorld ∅ firstOrder = [⟨"x-a.js", "f()"⟩, ⟨"x-b.js", "g()"⟩] := by
  decide +kernel

/-- Two bundles are built in both orders. -/
theorem second_order_is_the_same :
    firstOrder.Perm firstOrder.reverse ∧ DistinctTags firstOrder ∧
      (∀ t, NoOverwriting bothTrees t (assembledFiles bothTrees emptyWorld ∅ firstOrder)) ∧
      (generateBundles bothTrees emptyWorld ∅ firstOrder).results.SameUpToOrder
        (generateBundles bothTrees emptyWorld ∅ firstOrder.reverse).results ∧
      (generateBundles bothTrees emptyWorld ∅ firstOrder).results.files.dist.Same
        (generateBundles bothTrees emptyWorld ∅ firstOrder.reverse).results.files.dist := by
  have hperm : firstOrder.Perm firstOrder.reverse := (List.reverse_perm _).symm
  have hdistinct : DistinctTags firstOrder := by decide
  have hfiles : ∀ t,
      NoOverwriting bothTrees t (assembledFiles bothTrees emptyWorld ∅ firstOrder) := by
    rw [assembledFiles_firstOrder]
    intro t
    have hapart : compare (t.path bothTrees "x-a.js") (t.path bothTrees "x-b.js") ≠ .eq ∧
        compare (t.path bothTrees "x-b.js") (t.path bothTrees "x-a.js") ≠ .eq := by
      cases t <;> decide +kernel
    simp [NoOverwriting, hapart]
  have hrelative : ∀ b ∈ firstOrder, b.RelativeTags := by
    simp [firstOrder, scriptBundle, ManifestBundle.RelativeTags, IsRelative]
  have hresults := builds_ignore_order hperm hdistinct hfiles
  dsimp only at hresults
  obtain ⟨hsame, hdist, hlayout, -⟩ := hresults
  exact ⟨hperm, hdistinct, hfiles, hsame, hdist fun _ => hlayout (by decide +kernel) hrelative⟩

/-! ## A tag that names a file of the web tree -/

def absoluteRoot : Config := { buildDir := ⟨"/b"⟩, writesDist := true }

/-- The second tag is the path of the file of the first one. -/
def sharedPlace : List ManifestBundle := [scriptBundle "x" "", scriptBundle "/b/app/x" ""]

theorem assembledFiles_sharedPlace :
    assembledFiles absoluteRoot emptyWorld ∅ sharedPlace =
      [⟨"x.js", ""⟩, ⟨"/b/app/x.js", ""⟩] := by
  decide +kernel

/-- Both files are one file in the web tree and two in the other one, for which only the first of
them is queued. -/
theorem shared_place_shows_order :
    absoluteRoot.problem? = none ∧ sharedPlace.Perm sharedPlace.reverse ∧
      DistinctTags sharedPlace ∧
      (∀ t, NoOverwriting absoluteRoot t (assembledFiles absoluteRoot emptyWorld ∅ sharedPlace)) ∧
      ¬ (generateBundles absoluteRoot emptyWorld ∅ sharedPlace).results.files.dist.Same
        (generateBundles absoluteRoot emptyWorld ∅ sharedPlace.reverse).results.files.dist := by
  refine ⟨by decide +kernel, (List.reverse_perm _).symm, by decide, ?_, fun hsame => ?_⟩
  · rw [assembledFiles_sharedPlace]
    intro t
    simp [NoOverwriting]
  · have hqueued : (generateBundles absoluteRoot emptyWorld ∅ sharedPlace).results.files.dist.get?
        ⟨"dist/app/x.js"⟩ = some "" := by
      decide +kernel
    have hmissing : (generateBundles absoluteRoot emptyWorld ∅
        sharedPlace.reverse).results.files.dist.get? ⟨"dist/app/x.js"⟩ = none := by
      decide +kernel
    rw [SortedMap.same_iff.1 hsame, hmissing] at hqueued
    cases hqueued

end ComponentBundle
