import ComponentBundle.Proofs.Build.Destination
import ComponentBundle.Proofs.Build.Full

/-!
# Repeated builds

A build writes a file only if the cache does not hold it as it is. When a full build is repeated,
the cache holds what the first run left, so a file is written again exactly if another file of the
build took its place.

* `written_writeAll_iff` : nothing is written exactly if the cache holds all files;
* `holds_writeAll_iff` : after they were written it holds them all exactly if none took the place
  of a different one;
* `repeated_build_writes_nothing` : the second of two full builds.
-/

namespace ComponentBundle

/-! ## Files that the cache holds -/

/-- Whether the text last written to the place of a file is that of the file. -/
def EmitCache.Holds (config : Config) (cache : EmitCache) (a : Artifact) : Prop :=
  cache.contents.get? (wwwPath config a.fileName) = some a.content

namespace Emission

variable {config : Config} {s : Emission} {files : List Artifact}

theorem writeAll_of_holds (h : ∀ a ∈ files, s.cache.Holds config a) :
    s.writeAll config files = { s with unchanged := s.unchanged + files.length } := by
  induction files generalizing s with
  | nil => rfl
  | cons a files ih =>
    obtain ⟨ha, hfiles⟩ := List.forall_mem_cons.1 h
    have hrest := @ih { s with unchanged := s.unchanged + 1 } hfiles
    rw [writeAll, List.foldl_cons, write_unchanged ha, ← writeAll, hrest, List.length_cons]
    simp only [Nat.add_assoc, Nat.add_comm 1]

theorem written_le_writeAll (config : Config) (s : Emission) (files : List Artifact) :
    s.written ≤ (s.writeAll config files).written := by
  induction files generalizing s with
  | nil => exact Nat.le_refl _
  | cons a files ih =>
    refine Nat.le_trans ?_ (ih (s.write config a).2)
    by_cases ha : s.cache.Holds config a
    · rw [write_unchanged ha]
    · rw [write_written ha]
      exact Nat.le_succ _

/-- Nothing is written exactly if the cache holds all files. -/
theorem written_writeAll_iff :
    (s.writeAll config files).written = s.written ↔ ∀ a ∈ files, s.cache.Holds config a := by
  refine ⟨fun h => ?_, fun h => by rw [writeAll_of_holds h]⟩
  induction files generalizing s with
  | nil => simp
  | cons a files ih =>
    rw [writeAll, List.foldl_cons, ← writeAll] at h
    by_cases ha : s.cache.Holds config a
    · rw [write_unchanged ha] at h
      exact List.forall_mem_cons.2 ⟨ha, @ih { s with unchanged := s.unchanged + 1 } h⟩
    · rw [write_written ha] at h
      have hle := written_le_writeAll config (s.write config a).2 files
      rw [write_written ha] at hle
      dsimp only at h hle
      omega

theorem exists_cache_writeAll (s : Emission) {a : Artifact} (ha : a ∈ files) :
    ∃ b ∈ files, compare (wwwPath config a.fileName) (wwwPath config b.fileName) = .eq ∧
      (s.writeAll config files).cache.contents.get? (wwwPath config a.fileName) =
        some b.content := by
  have hmem : (wwwPath config a.fileName, a.content) ∈
      files.map fun a => (wwwPath config a.fileName, a.content) := List.mem_map_of_mem ha
  obtain ⟨last, hlast⟩ := SortedMap.exists_lastValue? hmem
  obtain ⟨place, hplace, hwritten⟩ := SortedMap.mem_of_lastValue? hlast
  obtain ⟨b, hb, heq⟩ := List.mem_map.1 hwritten
  obtain ⟨rfl, rfl⟩ := Prod.mk.inj heq
  exact ⟨b, hb, hplace, by rw [get?_cache_writeAll, hlast, Option.some_or]⟩

/-- After files were written the cache holds them all exactly if none took the place of a different
one. -/
theorem holds_writeAll_iff :
    (∀ a ∈ files, (s.writeAll config files).cache.Holds config a) ↔
      NoOverwriting config .www files := by
  constructor
  · intro h a ha a' ha' hpath
    have hsame := SortedMap.get?_congr (s.writeAll config files).cache.contents hpath
    exact Option.some.inj ((h a ha).symm.trans (hsame.trans (h a' ha')))
  · intro h a ha
    obtain ⟨b, hb, hplace, hget⟩ := exists_cache_writeAll s ha
    rw [EmitCache.Holds, hget, h a ha b hb hplace]

end Emission

section Outcomes

variable {config : Config} {s : Emission}

theorem outcome_emitVariant {v : AssembledVariant}
    (h : ∀ a ∈ v.artifacts, s.cache.Holds config a) :
    (emitVariant config s v).1.outcome = .unchanged := by
  have hplain : s.cache.Holds config v.plain := h _ List.mem_cons_self
  unfold emitVariant
  rw [Emission.write_unchanged hplain]
  cases hscoped : v.withScoped with
  | none => rfl
  | some a =>
    have ha : s.cache.Holds config a := h a (by simp [AssembledVariant.artifacts, hscoped])
    have hcache : Emission.write config { s with unchanged := s.unchanged + 1 } a = _ :=
      Emission.write_unchanged ha
    dsimp only
    rw [hcache]
    rfl

theorem outcome_emitVariants {vs : List AssembledVariant}
    (h : ∀ a ∈ vs.flatMap AssembledVariant.artifacts, s.cache.Holds config a) :
    ∀ v ∈ (emitVariants config s vs).1, v.outcome = .unchanged := by
  induction vs generalizing s with
  | nil => simp [emitVariants]
  | cons v vs ih =>
    rw [List.flatMap_cons, List.forall_mem_append] at h
    rw [emitVariants]
    refine List.forall_mem_cons.2 ⟨outcome_emitVariant h.1, ih ?_⟩
    rw [emitVariant_emission, Emission.writeAll_of_holds h.1]
    exact h.2

theorem outcome_emitBundles {bs : List AssembledBundle}
    (h : ∀ a ∈ bs.flatMap AssembledBundle.artifacts, s.cache.Holds config a) :
    ∀ b ∈ (emitBundles config s bs).1, ∀ v ∈ b.variants, v.outcome = .unchanged := by
  induction bs generalizing s with
  | nil => simp [emitBundles]
  | cons b bs ih =>
    rw [List.flatMap_cons, List.forall_mem_append] at h
    rw [emitBundles]
    refine List.forall_mem_cons.2 ⟨outcome_emitVariants h.1, ih ?_⟩
    rw [emitVariants_emission, ← AssembledBundle.artifacts, Emission.writeAll_of_holds h.1]
    exact h.2

end Outcomes

/-! ## The second of two builds -/

/-- Whether two builds tell the same of their bundles, apart from what was written. -/
structure BuildResults.SameReport (r r' : BuildResults) : Prop where
  bundles : r.bundles.map EmittedBundle.announced = r'.bundles.map EmittedBundle.announced
  registry : r.registry = r'.registry
  diagnostics : r.diagnostics.Perm r'.diagnostics

/-- Whether a build wrote none of its files, of which there are so many. -/
structure BuildResults.WritesNothing (r : BuildResults) (count : Nat) : Prop where
  files : r.files = ∅
  outcomes : ∀ b ∈ r.bundles, ∀ v ∈ b.variants, v.outcome = .unchanged
  filesWritten : r.stats.filesWritten = 0
  filesUnchanged : r.stats.filesUnchanged = count

section Builds

variable {config : Config} {world : StyleWorld} {ctx : BuildContext} {bundles : List ManifestBundle}

/-- What a build leaves after it wrote the files that it assembles. -/
def emissionAfter (config : Config) (world : StyleWorld) (ctx : BuildContext)
    (bundles : List ManifestBundle) : Emission :=
  Emission.writeAll config { cache := ctx.emitCache } (assembledFiles config world ctx bundles)

theorem emissionAfter_eq :
    (emitBundles config { cache := ctx.emitCache } (assembleBundles config world.minifiers
      (compileBundles config world ctx.change ctx.styleCache bundles).1).1).2 =
        emissionAfter config world ctx bundles :=
  emitBundles_emission ..

theorem files_generateBundles :
    (generateBundles config world ctx bundles).results.files =
      (emissionAfter config world ctx bundles).files :=
  congrArg Emission.files emissionAfter_eq

theorem filesWritten_generateBundles :
    (generateBundles config world ctx bundles).results.stats.filesWritten =
      (emissionAfter config world ctx bundles).written :=
  congrArg Emission.written emissionAfter_eq

theorem filesUnchanged_generateBundles :
    (generateBundles config world ctx bundles).results.stats.filesUnchanged =
      (emissionAfter config world ctx bundles).unchanged :=
  congrArg Emission.unchanged emissionAfter_eq

theorem emitCache_generateBundles :
    (generateBundles config world ctx bundles).context.emitCache =
      (emissionAfter config world ctx bundles).cache :=
  congrArg Emission.cache emissionAfter_eq

theorem sameReport_of_full {ctx' : BuildContext} (h : ctx.change = none)
    (h' : ctx'.change = none) :
    (generateBundles config world ctx bundles).results.SameReport
      (generateBundles config world ctx' bundles).results where
  bundles := by rw [announced_of_full h, announced_of_full h']
  registry := by rw [registry_of_full h, registry_of_full h']
  diagnostics := by rw [diagnostics_of_full h, diagnostics_of_full h']

theorem writesNothing_iff :
    (generateBundles config world ctx bundles).results.WritesNothing
        (assembledFiles config world ctx bundles).length ↔
      ∀ a ∈ assembledFiles config world ctx bundles, ctx.emitCache.Holds config a := by
  let start : Emission := { cache := ctx.emitCache }
  constructor
  · intro h
    have hwritten := h.filesWritten
    rw [filesWritten_generateBundles] at hwritten
    exact (Emission.written_writeAll_iff (s := start)).1 hwritten
  · intro h
    have hafter : emissionAfter config world ctx bundles =
        { start with unchanged := 0 + (assembledFiles config world ctx bundles).length } :=
      Emission.writeAll_of_holds (s := start) h
    exact {
      files := by rw [files_generateBundles, hafter]
      outcomes := outcome_emitBundles (s := start) h
      filesWritten := by rw [filesWritten_generateBundles, hafter]
      filesUnchanged := by rw [filesUnchanged_generateBundles, hafter, Nat.zero_add] }

end Builds

/-- **A repeated build writes nothing** exactly if no file of it takes the place of a different one.
In any context, the second of two full builds reports what the first one reported. -/
theorem repeated_build_writes_nothing (config : Config) (world : StyleWorld) (ctx : BuildContext)
    (bundles : List ManifestBundle) :
    let first := generateBundles config world ctx.clearChangedFiles bundles
    let second := generateBundles config world first.context bundles
    let files := assembledFiles config world ctx.clearChangedFiles bundles
    second.results.SameReport first.results ∧
      (second.results.WritesNothing files.length ↔ NoOverwriting config .www files) := by
  intro first second files
  have hfiles : assembledFiles config world first.context bundles = files :=
    (assembledFiles_of_full rfl bundles).trans (assembledFiles_of_full rfl bundles).symm
  refine ⟨sameReport_of_full rfl rfl, ?_⟩
  rw [← hfiles, writesNothing_iff, hfiles, emitCache_generateBundles]
  exact Emission.holds_writeAll_iff

end ComponentBundle
