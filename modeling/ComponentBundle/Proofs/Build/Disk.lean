import ComponentBundle.Proofs.Build.Incremental
import ComponentBundle.Proofs.Bundle.File
import ComponentBundle.Proofs.Config

/-!
# The trees on disk

A build queues only the files that changed since they were last written, and one cache, whose keys
are the paths in the web tree, decides for both trees. Copying the queues of every build over the
trees still leaves no stale file, because the two trees are laid out alike.

* `compare_path_iff` : two files have one path in a tree exactly if they have one in the other;
* `Mirrors.write` : a tree with its queue copied over it holds what the cache holds, write by write;
* `trees_hold_assembled_files` : after any builds, each tree holds the files of the last one.
-/

namespace ComponentBundle

/-! ## Output trees -/

inductive OutputTree where
  | www
  | dist

namespace OutputTree

/-- Whether the configuration writes the tree. -/
def enabled (config : Config) : OutputTree → Bool
  | www => config.writesWww
  | dist => config.writesDist

def root (config : Config) : OutputTree → FilePath
  | www => config.buildDir
  | dist => config.distDir

/-- The place of a bundle file in the tree. -/
def path (config : Config) : OutputTree → String → FilePath
  | www, fileName => wwwPath config fileName
  | dist, fileName => distPath config fileName

def of (files : OutputFiles) : OutputTree → SortedMap FilePath String
  | www => files.www
  | dist => files.dist

end OutputTree

/-- Whether a file name is relative to the directory that it is put in. -/
def IsRelative (n : String) : Prop := n.toList.head? ≠ some '/'

section Paths

variable {config : Config} (t : OutputTree)

theorem path_eq (fileName : String) :
    t.path config fileName = ((t.root config).join config.outputDir).join ⟨fileName⟩ := by
  cases t <;> rfl

theorem exists_components_path (hvalid : config.problem? = none) :
    ∃ directory, ∀ n, IsRelative n →
      (t.path config n).components = directory ++ FilePath.componentsBelow n := by
  obtain ⟨hne, hslash⟩ := outputDir_of_valid hvalid
  -- the directory ends in its name, so a separator follows it
  obtain ⟨s, hs⟩ : ∃ s : String, (t.root config).join config.outputDir =
      ⟨s ++ config.outputDir.text⟩ := by
    unfold FilePath.join
    split
    · exact ⟨"", by simp⟩
    · split
      · exact ⟨_, rfl⟩
      · exact ⟨_, rfl⟩
  have hnonempty : (s ++ config.outputDir.text).toList ≠ [] := by
    simp [hne]
  have hlast : ¬ ((s ++ config.outputDir.text).toList.getLast?.all (· == '/')) = true := by
    rw [String.toList_append, List.getLast?_append_of_ne_nil _ hne,
      List.getLast?_eq_getLast_of_ne_nil hne]
    simp only [Option.all_some, beq_iff_eq]
    exact fun hlast => hslash (hlast ▸ List.getLast_mem hne)
  refine ⟨(FilePath.mk (s ++ config.outputDir.text)).components, fun n hn => ?_⟩
  rw [path_eq, hs, ← FilePath.components_append_slash hnonempty]
  unfold FilePath.join
  rw [if_neg (by simpa [FilePath.isAbsolute, IsRelative] using hn), if_neg hlast]

/-- The trees are laid out alike: two files have one path in a tree exactly if they have one in
the web tree. -/
theorem compare_path_iff (hvalid : config.problem? = none) {m n : String} (hm : IsRelative m)
    (hn : IsRelative n) :
    compare (t.path config m) (t.path config n) = .eq ↔
      compare (wwwPath config m) (wwwPath config n) = .eq := by
  have hbelow : ∀ t : OutputTree, compare (t.path config m) (t.path config n) = .eq ↔
      FilePath.componentsBelow m = FilePath.componentsBelow n := by
    intro t
    obtain ⟨directory, hcomponents⟩ := exists_components_path t hvalid
    rw [FilePath.compare_eq_iff, hcomponents m hm, hcomponents n hn, List.append_cancel_left_eq]
  exact (hbelow t).trans (hbelow .www).symm

end Paths

/-! ## Queues copied over trees -/

/-- The trees after the queued files were copied over them. -/
def OutputFiles.copyOver (trees files : OutputFiles) : OutputFiles where
  www := trees.www.insertMany files.www.entries
  dist := trees.dist.insertMany files.dist.entries

theorem of_copyOver (trees files : OutputFiles) (t : OutputTree) :
    t.of (trees.copyOver files) = (t.of trees).insertMany (t.of files).entries := by
  cases t <;> rfl

theorem OutputTree.of_empty (t : OutputTree) : t.of ∅ = ∅ := by
  cases t <;> rfl

theorem of_queue {config : Config} (files : OutputFiles) (a : Artifact) (t : OutputTree) :
    t.of (files.queue config a) =
      if t.enabled config then (t.of files).insert (t.path config a.fileName) a.content
      else t.of files := by
  cases t <;> rfl

/-- Whether a tree holds, for every file name, what the cache holds for it. -/
def Mirrors (config : Config) (t : OutputTree) (cache : EmitCache)
    (tree : SortedMap FilePath String) : Prop :=
  ∀ n, IsRelative n → tree.get? (t.path config n) = cache.contents.get? (wwwPath config n)

section Writing

variable {config : Config} {t : OutputTree} {trees : OutputFiles}

theorem Mirrors.write (hvalid : config.problem? = none) (henabled : t.enabled config = true)
    {s : Emission} (h : Mirrors config t s.cache (t.of (trees.copyOver s.files))) {a : Artifact}
    (ha : IsRelative a.fileName) :
    Mirrors config t (s.write config a).2.cache
      (t.of (trees.copyOver (s.write config a).2.files)) := by
  intro n hn
  by_cases hsame : s.cache.contents.get? (wwwPath config a.fileName) = some a.content
  · rw [Emission.write_unchanged hsame]
    exact h n hn
  · have hbefore := h n hn
    rw [of_copyOver, SortedMap.get?_insertMany_entries] at hbefore
    rw [Emission.write_written hsame]
    dsimp only
    rw [of_copyOver, SortedMap.get?_insertMany_entries, of_queue, if_pos henabled,
      SortedMap.get?_insert, SortedMap.get?_insert, ← hbefore]
    by_cases hpath : compare (t.path config n) (t.path config a.fileName) = .eq
    · rw [if_pos hpath, if_pos ((compare_path_iff t hvalid hn ha).1 hpath), Option.some_or]
    · rw [if_neg hpath, if_neg (mt (compare_path_iff t hvalid hn ha).2 hpath)]

theorem Mirrors.writeAll (hvalid : config.problem? = none) (henabled : t.enabled config = true)
    {files : List Artifact} (hfiles : ∀ a ∈ files, IsRelative a.fileName) {s : Emission}
    (h : Mirrors config t s.cache (t.of (trees.copyOver s.files))) :
    Mirrors config t (s.writeAll config files).cache
      (t.of (trees.copyOver (s.writeAll config files).files)) := by
  unfold Emission.writeAll
  induction files generalizing s with
  | nil => exact h
  | cons a files ih =>
    exact ih (fun b hb => hfiles b (List.mem_cons_of_mem _ hb))
      (h.write hvalid henabled (hfiles a List.mem_cons_self))

theorem of_files_writeAll (hdisabled : t.enabled config = false) (files : List Artifact)
    (s : Emission) : t.of (s.writeAll config files).files = t.of s.files := by
  unfold Emission.writeAll
  induction files generalizing s with
  | nil => rfl
  | cons a files ih =>
    rw [List.foldl_cons, ih]
    by_cases hsame : s.cache.contents.get? (wwwPath config a.fileName) = some a.content
    · rw [Emission.write_unchanged hsame]
    · rw [Emission.write_written hsame]
      exact (of_queue s.files a t).trans (if_neg (by simp [hdisabled]))

end Writing

/-! ## Builds -/

/-- The context of builds, and the trees that their queues were copied over. -/
structure Workspace where
  context : BuildContext := ∅
  trees : OutputFiles := ∅

namespace Workspace

def build (config : Config) (w : Workspace) (bundles : List ManifestBundle) (r : BuildRound) :
    Workspace where
  context := (r.run config bundles w.context).context
  trees := w.trees.copyOver (r.run config bundles w.context).results.files

/-- The bundles of a build with their styles. -/
def compiled (config : Config) (w : Workspace) (bundles : List ManifestBundle) (r : BuildRound) :
    List CompiledBundle :=
  let ctx := r.enter w.context
  (compileBundles config r.world ctx.change ctx.styleCache bundles).1

/-- The files that a build assembles, in the order in which it writes them. -/
def assembled (config : Config) (w : Workspace) (bundles : List ManifestBundle) (r : BuildRound) :
    List Artifact :=
  (assembleBundles config r.world.minifiers (w.compiled config bundles r)).1.flatMap
    AssembledBundle.artifacts

/-- What builds of any bundles leave, from a new context and empty trees on. -/
def after (config : Config) (builds : List (List ManifestBundle × BuildRound)) : Workspace :=
  builds.foldl (fun w b => w.build config b.1 b.2) {}

/-- Whether the trees that are written mirror the cache, and the other ones are empty. -/
structure Synced (config : Config) (w : Workspace) : Prop where
  mirrors : ∀ t : OutputTree, t.enabled config = true →
    Mirrors config t w.context.emitCache (t.of w.trees)
  empty : ∀ t : OutputTree, t.enabled config = false → t.of w.trees = ∅

end Workspace

/-- The tags of a bundle, one of which may name its files, are relative. -/
def ManifestBundle.RelativeTags (b : ManifestBundle) : Prop :=
  ∀ c ∈ b.components, IsRelative c.tag

section Builds

variable {config : Config} {w : Workspace} {bundles : List ManifestBundle} {r : BuildRound}

theorem isRelative_append {s t : String} (hs : IsRelative s) (ht : IsRelative t) :
    IsRelative (s ++ t) := by
  unfold IsRelative at *
  rw [String.toList_append, List.head?_append]
  cases h : s.toList.head? with
  | none => rwa [Option.none_or]
  | some c => rwa [Option.some_or, ← h]

theorem isRelative_bundleId {firstTag : String} (htag : IsRelative firstTag)
    (mode : Option String) (content : String) :
    IsRelative (bundleId config firstTag mode content) := by
  unfold bundleId
  split
  · intro h
    have hmem := List.mem_of_head? h
    rw [contentHash, String.toList_ofList] at hmem
    have hdigit := Digest.isHexDigit_of_mem_hexDigest (List.mem_of_mem_take hmem)
    simp [Digest.isHexDigit] at hdigit
  · split
    · split
      · exact htag
      · rename_i mode _
        rw [String.append_assoc]
        refine isRelative_append htag ?_
        simp [IsRelative]
    · exact htag

theorem isRelative_artifact (minifiers : Minifiers) {f : StyleFile}
    (hf : f.bundle.bundle.RelativeTags) :
    IsRelative (f.artifact config minifiers).fileName := by
  have hfirst : IsRelative (f.bundle.bundle.firstTag?.getD "") := by
    unfold ManifestBundle.firstTag?
    cases hhead : f.bundle.bundle.components.head? with
    | none => simp [IsRelative]
    | some c => exact hf c (List.mem_of_head? hhead)
  refine isRelative_append ?_ (by simp [IsRelative])
  unfold StyleFile.id
  split
  · exact isRelative_append (isRelative_bundleId hfirst _ _) (by simp [IsRelative])
  · exact isRelative_bundleId hfirst _ _

theorem map_bundle_compiled (config : Config) (w : Workspace) (bundles : List ManifestBundle)
    (r : BuildRound) : (w.compiled config bundles r).map (·.bundle) = bundles :=
  map_bundle_compileBundles ..

theorem mem_assembled {a : Artifact} :
    a ∈ w.assembled config bundles r ↔ ∃ f : StyleFile,
      f.IsOf (w.compiled config bundles r) ∧ a = f.artifact config r.world.minifiers := by
  unfold Workspace.assembled
  rw [artifacts_assembleBundles, List.mem_flatMap]
  constructor
  · rintro ⟨b, hb, ha⟩
    obtain ⟨f, hf, rfl⟩ := StyleFile.mem_bundleFiles.1 ha
    obtain rfl := List.mem_singleton.1 hf.bundle
    exact ⟨f, ⟨hb, hf.members, hf.variant, hf.needs⟩, rfl⟩
  · rintro ⟨f, hf, rfl⟩
    exact ⟨f.bundle, hf.bundle, StyleFile.artifact_mem config r.world.minifiers hf⟩

theorem isRelative_assembled (config : Config) (w : Workspace) (r : BuildRound)
    (hb : ∀ b ∈ bundles, b.RelativeTags) :
    ∀ a ∈ w.assembled config bundles r, IsRelative a.fileName := by
  intro a ha
  obtain ⟨f, hf, rfl⟩ := mem_assembled.1 ha
  refine isRelative_artifact r.world.minifiers (hb _ ?_)
  rw [← map_bundle_compiled config w bundles r]
  exact List.mem_map_of_mem hf.bundle

theorem exists_emission (config : Config) (w : Workspace) (bundles : List ManifestBundle)
    (r : BuildRound) : ∃ s : Emission, s.cache = w.context.emitCache ∧ s.files = ∅ ∧
    (w.build config bundles r).context.emitCache =
      (s.writeAll config (w.assembled config bundles r)).cache ∧
    (w.build config bundles r).trees =
      w.trees.copyOver (s.writeAll config (w.assembled config bundles r)).files := by
  refine ⟨{ cache := (r.enter w.context).emitCache }, ?_, rfl, ?_, ?_⟩
  · unfold BuildRound.enter
    cases r.changed <;> rfl
  · rw [Workspace.assembled, ← emitBundles_emission]
    rfl
  · rw [Workspace.assembled, ← emitBundles_emission]
    rfl

theorem copyOver_empty (trees : OutputFiles) : trees.copyOver ∅ = trees := rfl

theorem Workspace.Synced.build (hvalid : config.problem? = none) (h : w.Synced config)
    (hb : ∀ b ∈ bundles, b.RelativeTags) : (w.build config bundles r).Synced config := by
  obtain ⟨s, hcache, hfiles, hcache', htrees'⟩ := exists_emission config w bundles r
  constructor
  · intro t henabled
    rw [hcache', htrees']
    refine Mirrors.writeAll hvalid henabled (isRelative_assembled config w r hb) ?_
    rw [hcache, hfiles, copyOver_empty]
    exact h.mirrors t henabled
  · intro t hdisabled
    rw [htrees', of_copyOver, of_files_writeAll hdisabled, hfiles, t.of_empty]
    exact h.empty t hdisabled

theorem Workspace.synced_after (hvalid : config.problem? = none)
    {builds : List (List ManifestBundle × BuildRound)}
    (hb : ∀ build ∈ builds, ∀ b ∈ build.1, b.RelativeTags) :
    (after config builds).Synced config := by
  unfold after
  have hempty : (Workspace.mk ∅ ∅).Synced config := by
    refine ⟨fun t _ n _ => ?_, fun t _ => t.of_empty⟩
    rw [t.of_empty]
    rfl
  generalize (Workspace.mk ∅ ∅) = w at hempty
  induction builds generalizing w with
  | nil => exact hempty
  | cons build builds ih =>
    exact ih (fun b hmem => hb b (List.mem_cons_of_mem _ hmem)) _
      (hempty.build hvalid (hb build List.mem_cons_self))

/-- **No stale file stays on disk.** After any builds on one new context, each tree that is written
holds every file that the last build assembled, unless a later file of the build took its place, and
each other tree is empty. -/
theorem trees_hold_assembled_files (hvalid : config.problem? = none)
    {builds : List (List ManifestBundle × BuildRound)}
    (hb : ∀ build ∈ builds ++ [(bundles, r)], ∀ b ∈ build.1, b.RelativeTags) (t : OutputTree) :
    let w := Workspace.after config builds
    let tree := t.of (w.build config bundles r).trees
    (t.enabled config = true → ∀ earlier a later,
      w.assembled config bundles r = earlier ++ a :: later →
      (∀ b ∈ later, compare (t.path config b.fileName) (t.path config a.fileName) ≠ .eq) →
      tree.get? (t.path config a.fileName) = some a.content) ∧
    (t.enabled config = false → tree = ∅) := by
  have hbundles : ∀ b ∈ bundles, b.RelativeTags := hb (bundles, r) (by simp)
  have hsynced := (Workspace.synced_after hvalid fun build hmem =>
    hb build (List.mem_append_left _ hmem)).build hvalid hbundles (r := r)
  refine ⟨fun henabled earlier a later hassembled hlast => ?_, hsynced.empty t⟩
  have hrelative : ∀ b ∈ a :: later, IsRelative b.fileName := by
    have hall := isRelative_assembled config (Workspace.after config builds) r hbundles
    rw [hassembled] at hall
    exact fun b hmem => hall b (List.mem_append_right _ hmem)
  have ha := hrelative a List.mem_cons_self
  rw [hsynced.mirrors t henabled _ ha]
  obtain ⟨s, -, -, hcache, -⟩ := exists_emission config (Workspace.after config builds) bundles r
  have hnone : SortedMap.lastValue? (later.map fun b => (wwwPath config b.fileName, b.content))
      (wwwPath config a.fileName) = none := by
    rw [SortedMap.lastValue?_eq_none_iff]
    intro e he hpath
    obtain ⟨b, hmem, rfl⟩ := List.mem_map.1 he
    refine hlast b hmem (Std.OrientedCmp.eq_symm ?_)
    exact (compare_path_iff t hvalid ha (hrelative b (List.mem_cons_of_mem _ hmem))).2 hpath
  rw [hcache, hassembled, Emission.get?_cache_writeAll, List.map_append, List.map_cons,
    SortedMap.lastValue?_append, SortedMap.lastValue?_cons, hnone, Option.none_or,
    if_pos Std.ReflCmp.compare_self]
  rfl

end Builds

/-! ## A module that changes back -/

def moduleBundle (moduleText : String) : ManifestBundle := ⟨[{ tag := "x-a" }], moduleText⟩

/-- A full build where there are no style files. -/
def bareRound : BuildRound := ⟨emptyWorld, none⟩

/-- A configuration that writes only the tree whose paths are not the keys of the cache. -/
def distConfig : Config := { writesWww := false, writesDist := true }

/-- What builds leave in which the text of a module changes. -/
def changedModule : Workspace :=
  .after distConfig [([moduleBundle "f()"], bareRound), ([moduleBundle "g()"], bareRound)]

/-- When the text of the module changes back, it is written again. -/
theorem module_changes_back :
    let trees := (changedModule.build distConfig [moduleBundle "f()"] bareRound).trees
    (OutputTree.dist.of trees).get? ⟨"dist/app/x-a.js"⟩ = some "f()" ∧
      OutputTree.www.of trees = ∅ := by
  have hb : ∀ build ∈ [([moduleBundle "f()"], bareRound), ([moduleBundle "g()"], bareRound)] ++
      [([moduleBundle "f()"], bareRound)], ∀ b ∈ build.1, b.RelativeTags := by
    simp [moduleBundle, ManifestBundle.RelativeTags, IsRelative]
  have hvalid : distConfig.problem? = none := by decide +kernel
  have hpath : OutputTree.dist.path distConfig "x-a.js" = ⟨"dist/app/x-a.js"⟩ := by
    decide +kernel
  have hfiles : changedModule.assembled distConfig [moduleBundle "f()"] bareRound =
      [] ++ ⟨"x-a.js", "f()"⟩ :: [] := by
    decide +kernel
  have hdist := (trees_hold_assembled_files hvalid hb .dist).1 rfl [] _ [] hfiles (by simp)
  rw [hpath] at hdist
  exact ⟨hdist, (trees_hold_assembled_files hvalid hb .www).2 rfl⟩

end ComponentBundle
