import ComponentBundle.Proofs.Build.Repeat
import ComponentBundle.Proofs.Bundle.Statement

/-!
# Hashed files without placeholders

An id takes the place of every placeholder in a text. If it shares no character with the
placeholder, none is left, however the placeholders of the text overlapped. Hashed ids are made of
hexadecimal digits and the mark of scoped styles, so they share none.

* `lacksPlaceholder_fill` : what filling leaves;
* `forall_values_writeAll` : what holds of the texts of all files holds of all that is queued;
* `StyleFile.lacksPlaceholder_hashed`, `isHashedId_emitted` : the files and the ids of a build;
* `no_placeholder_is_left` : both, for every build of a valid configuration.
-/

namespace ComponentBundle
open Text

/-! ## Filled texts -/

/-- Whether an id shares no character with the placeholder. -/
def ForeignToPlaceholder (id : String) : Prop := ∀ c ∈ id.toList, c ∉ idPlaceholder.toList

instance (id : String) : Decidable (ForeignToPlaceholder id) :=
  List.decidableBAll (· ∉ idPlaceholder.toList) id.toList

/-- Filling leaves no placeholder if the id shares no character with it. -/
theorem lacksPlaceholder_fill {id : String} (hne : id ≠ "") (hid : ForeignToPlaceholder id)
    (text : String) : LacksPlaceholder (fillBundleId text id).toList := by
  have hne' : id.toList ≠ [] := fun h => hne (String.toList_injective (by simpa using h))
  have hfill : (fillBundleId text id).toList =
      replaceChars idPlaceholder.toList id.toList text.toList := String.toList_ofList
  rw [hfill]
  exact lacks_replaceChars (by decide) hne' hid text.toList

/-! ## Hashed ids -/

/-- Whether an id has as many digits as the configuration says, and nothing else. -/
structure IsHashedId (config : Config) (id : String) : Prop where
  length : id.length = config.hashLength
  digits : ∀ c ∈ id.toList, Digest.isHexDigit c = true

theorem hexDigit_notMem_placeholder {c : Char} (h : Digest.isHexDigit c = true) :
    c ∉ idPlaceholder.toList := by
  have hnone : idPlaceholder.toList.all (!Digest.isHexDigit ·) = true := by decide
  intro hmem
  have hdigit := List.all_eq_true.1 hnone c hmem
  rw [h] at hdigit
  exact Bool.false_ne_true hdigit

theorem bounds_of_valid {config : Config} (hvalid : config.problem? = none)
    (hhash : config.hashFileNames = true) :
    minHashLength ≤ config.hashLength ∧ config.hashLength ≤ maxHashLength := by
  unfold Config.problem? at hvalid
  split at hvalid
  · cases hvalid
  · split at hvalid
    · cases hvalid
    · rename_i hrange
      simpa [hhash] using hrange

theorem isHashedId_contentHash {config : Config} (hvalid : config.problem? = none)
    (hhash : config.hashFileNames = true) (content : String) :
    IsHashedId config (contentHash content config.hashLength) := by
  have hbounds := bounds_of_valid hvalid hhash
  constructor
  · have hlength := Digest.length_hexDigest content
    unfold contentHash maxHashLength at *
    rw [String.length_ofList, List.length_take, hlength]
    omega
  · intro c hc
    rw [contentHash, String.toList_ofList] at hc
    exact Digest.isHexDigit_of_mem_hexDigest (List.mem_of_mem_take hc)

/-! ## Files -/

section Files

variable {config : Config}

theorem StyleFile.lacksPlaceholder_hashed (hvalid : config.problem? = none)
    (hhash : config.hashFileNames = true) (minifiers : Minifiers) (f : StyleFile) :
    LacksPlaceholder (f.artifact config minifiers).content.toList := by
  have hdigest : IsHashedId config (f.digest config minifiers) :=
    isHashedId_contentHash hvalid hhash _
  have hbounds := bounds_of_valid hvalid hhash
  have hkind : ForeignToPlaceholder f.kindMark := by
    unfold kindMark
    cases f.isScoped <;> decide
  refine lacksPlaceholder_fill ?_ ?_ _
  · intro hempty
    have hlength := congrArg String.length hempty
    rw [f.id_hashed hhash, String.length_append, hdigest.length] at hlength
    unfold minHashLength at hbounds
    simp only [String.length_empty] at hlength
    omega
  · intro c hc
    rw [f.id_hashed hhash, String.toList_append, List.mem_append] at hc
    exact hc.elim (fun hc => hexDigit_notMem_placeholder (hdigest.digits c hc)) (hkind c)

theorem forall_values_write {P : String → Prop} {t : OutputTree} {a : Artifact} (ha : P a.content)
    {s : Emission} (h : ∀ text ∈ (t.of s.files).values, P text) :
    ∀ text ∈ (t.of (s.write config a).2.files).values, P text := by
  by_cases hholds : s.cache.Holds config a
  · rw [Emission.write_unchanged hholds]
    exact h
  · rw [Emission.write_written hholds]
    dsimp only
    rw [of_queue]
    split
    · intro text htext
      rcases SortedMap.mem_values_insert htext with rfl | htext
      · exact ha
      · exact h text htext
    · exact h

/-- What holds of the texts of all files, and of what is queued, holds of all that is queued after
the files were written. -/
theorem forall_values_writeAll {P : String → Prop} {t : OutputTree} {files : List Artifact}
    (hfiles : ∀ a ∈ files, P a.content) {s : Emission}
    (h : ∀ text ∈ (t.of s.files).values, P text) :
    ∀ text ∈ (t.of (s.writeAll config files).files).values, P text := by
  unfold Emission.writeAll
  induction files generalizing s with
  | nil => exact h
  | cons a files ih =>
    exact ih (fun b hb => hfiles b (List.mem_cons_of_mem _ hb))
      (forall_values_write (hfiles a List.mem_cons_self) h)

end Files

/-! ## Builds -/

section Builds

variable {config : Config} {world : StyleWorld} {ctx : BuildContext} {bundles : List ManifestBundle}

theorem isHashedId_emitted (hvalid : config.problem? = none) (hhash : config.hashFileNames = true)
    {b : EmittedBundle} (hb : b ∈ (generateBundles config world ctx bundles).results.bundles)
    {v : EmittedVariant} (hv : v ∈ b.variants) : IsHashedId config v.bundleId := by
  have hb' : b.announced ∈ (assembleBundles config world.minifiers
      (compileBundles config world ctx.change ctx.styleCache bundles).1).1.map
        AssembledBundle.announced := by
    rw [← emitBundles_announced config { cache := ctx.emitCache }]
    exact List.mem_map_of_mem hb
  rw [assembleBundles_fst] at hb'
  obtain ⟨assembled, hassembled, hsame⟩ := List.mem_map.1 hb'
  obtain ⟨compiled, -, hcompiled⟩ := List.mem_filterMap.1 hassembled
  rw [assembleBundle_fst] at hcompiled
  obtain ⟨tag, -, rfl⟩ := Option.map_eq_some_iff.1 hcompiled
  have hv' : v.announced ∈ (assembledVariants config world.minifiers tag compiled.bundle
      compiled.styles).map AssembledVariant.announced := by
    have hvariants : (assembledVariants config world.minifiers tag compiled.bundle
        compiled.styles).map AssembledVariant.announced = b.announced.2 := congrArg Prod.snd hsame
    rw [hvariants]
    exact List.mem_map_of_mem hv
  unfold assembledVariants at hv'
  rw [List.map_map] at hv'
  obtain ⟨w, -, hw⟩ := List.mem_map.1 hv'
  rw [Function.comp, announced_assembleVariant] at hw
  have hid : variantId config world.minifiers tag compiled.bundle w = v.bundleId :=
    congrArg (fun announced => announced.2.1) hw
  rw [← hid, variantId]
  unfold bundleId
  rw [if_pos hhash]
  exact isHashedId_contentHash hvalid hhash _

theorem lacksPlaceholder_queued (hvalid : config.problem? = none)
    (hhash : config.hashFileNames = true) (t : OutputTree) :
    ∀ text ∈ (t.of (generateBundles config world ctx bundles).results.files).values,
      LacksPlaceholder text.toList := by
  rw [files_generateBundles]
  refine forall_values_writeAll (fun a ha => ?_) ?_
  · rw [assembledFiles, artifacts_assembleBundles] at ha
    obtain ⟨b, -, ha⟩ := List.mem_flatMap.1 ha
    obtain ⟨f, -, rfl⟩ := StyleFile.mem_bundleFiles.1 ha
    exact f.lacksPlaceholder_hashed hvalid hhash world.minifiers
  · cases t <;> exact fun text htext => absurd htext List.not_mem_nil

end Builds

/-- **No placeholder is left.** A text that is filled with an id that shares no character with the
placeholder does not hold it. So where names are hashed, by a valid configuration, every id has the
configured number of digits, and no file that a build queues holds the placeholder, whatever the
bundles, the files and the context of the build are. -/
theorem no_placeholder_is_left :
    (∀ text id : String, id ≠ "" → ForeignToPlaceholder id →
      LacksPlaceholder (fillBundleId text id).toList) ∧
    ∀ config : Config, config.validate = .ok config → config.hashFileNames = true →
      ∀ (world : StyleWorld) (ctx : BuildContext) (bundles : List ManifestBundle),
        let results := (generateBundles config world ctx bundles).results
        (∀ b ∈ results.bundles, ∀ v ∈ b.variants, IsHashedId config v.bundleId) ∧
          ∀ t : OutputTree, ∀ text ∈ (t.of results.files).values, LacksPlaceholder text.toList := by
  refine ⟨fun text id hne hid => lacksPlaceholder_fill hne hid text, ?_⟩
  intro config hvalidate hhash world ctx bundles
  have hvalid := (Config.validate_eq_ok.1 hvalidate).1
  exact ⟨fun b hb v hv => isHashedId_emitted hvalid hhash hb hv,
    lacksPlaceholder_queued hvalid hhash⟩

/-! ## Placeholders that overlap -/

/-- A bundle whose tag, styles and modules hold the placeholder, twice over in the modules. -/
def placeholderBundle : ManifestBundle where
  components :=
    [{ tag := "__BUNDLE__ID__", encapsulation := .scopedCss,
       styles := .ofList [("$", { inlineText := some "a\x7b\x7d/*__BUNDLE__ID__*/" })] }]
  moduleText := "__BUNDLE__ID__BUNDLE__ID__"

def hashingConfig : Config := { hashFileNames := true }

/-- Of two placeholders that share their underscores the first one is replaced, and what is left of
the second one is none. Both files of such a bundle are queued without any. -/
theorem overlapping_placeholders_are_filled :
    fillBundleId "__BUNDLE__ID__BUNDLE__ID__" "0a" = "0aBUNDLE__ID__" ∧
      LacksPlaceholder "0aBUNDLE__ID__".toList ∧
      hashingConfig.validate = .ok hashingConfig ∧
      (let results := (generateBundles hashingConfig emptyWorld ∅ [placeholderBundle]).results
      results.bundles.length = 1 ∧ results.files.www.size = 2 ∧
        (∀ b ∈ results.bundles, ∀ v ∈ b.variants, IsHashedId hashingConfig v.bundleId) ∧
        ∀ text ∈ results.files.www.values, LacksPlaceholder text.toList) := by
  have hvalidate : hashingConfig.validate = .ok hashingConfig :=
    Config.validate_eq_ok.2 ⟨by decide +kernel, rfl⟩
  have hfilled : fillBundleId "__BUNDLE__ID__BUNDLE__ID__" "0a" = "0aBUNDLE__ID__" := by
    decide +kernel
  have hlacks := no_placeholder_is_left.1 "__BUNDLE__ID__BUNDLE__ID__" "0a" (by decide) (by decide)
  rw [hfilled] at hlacks
  obtain ⟨hids, hfiles⟩ :=
    no_placeholder_is_left.2 hashingConfig hvalidate rfl emptyWorld ∅ [placeholderBundle]
  exact ⟨hfilled, hlacks, hvalidate, by decide +kernel, by decide +kernel, hids, hfiles .www⟩

end ComponentBundle
