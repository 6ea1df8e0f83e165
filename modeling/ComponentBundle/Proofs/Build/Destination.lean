import ComponentBundle.Proofs.Build.Disk

/-!
# Files of one name

A build writes its files one after another, and a later file takes the place of an earlier one of
the same name. Names that follow tags and modes are put together with dots, so a tag or a mode with
a dot may spell the name of another file. Hashed names are made from the plain text alone, so two
files of scoped styles may share one.

* `same_id_named`, `same_id_hashed` : when two files of a build have one id;
* `no_overwriting_iff` : no file takes the place of a different one exactly if the files whose names
  clash have the same text;
* `not_clash_of_simple_names` : without dots and separators in tags and modes nothing clashes.
-/

namespace ComponentBundle

namespace StyleFile

/-! ## Ids -/

/-- The tag that names the files of the bundle, unless names are hashed. -/
def namingTag (f : StyleFile) : String := f.bundle.bundle.firstTag?.getD ""

def modeMark (f : StyleFile) : String :=
  match f.variant.mode with
  | some mode => if mode = defaultMode then "" else "." ++ mode
  | none => ""

def kindMark (f : StyleFile) : String := if f.isScoped then ".sc" else ""

/-- What follows the tag in an id that is not hashed. -/
def marks (f : StyleFile) : String := f.modeMark ++ f.kindMark

/-- The digits that name the variant of the file if names are hashed. -/
def digest (config : Config) (minifiers : Minifiers) (f : StyleFile) : String :=
  contentHash (plainContent config minifiers f.bundle.bundle f.variant) config.hashLength

section Ids

variable {config : Config} {minifiers : Minifiers} (f : StyleFile)

theorem id_eq :
    f.id config minifiers =
      variantId config minifiers f.namingTag f.bundle.bundle f.variant ++ f.kindMark := by
  unfold id kindMark namingTag
  cases f.isScoped with
  | true => rfl
  | false => exact (String.append_empty).symm

theorem id_hashed (hhash : config.hashFileNames = true) :
    f.id config minifiers = f.digest config minifiers ++ f.kindMark := by
  rw [id_eq, variantId]
  unfold bundleId
  rw [if_pos hhash]
  rfl

theorem id_named (hname : config.hashFileNames = false) :
    f.id config minifiers = f.namingTag ++ f.marks := by
  rw [id_eq, variantId, marks, ← String.append_assoc]
  congr 1
  unfold bundleId modeMark
  rw [if_neg (by simp [hname])]
  cases f.variant.mode with
  | none => exact (String.append_empty).symm
  | some mode =>
    dsimp only
    split
    · exact (String.append_empty).symm
    · rw [String.append_assoc]

end Ids

end StyleFile

/-! ## Clashes -/

/-- Why two files have one name.
* Hashed names are digests of plain texts, whatever the kind of the files.
* The mark of scoped styles may be the end of another mode of the bundle.
* A tag may go on with what follows another one.
* Names with separators may be different spellings of one path. -/
inductive Clash (config : Config) (minifiers : Minifiers) (t : OutputTree) (f g : StyleFile) :
    Prop where
  | digest : config.hashFileNames = true → f.isScoped = g.isScoped →
    f.digest config minifiers = g.digest config minifiers → Clash config minifiers t f g
  | mode {m : String} : config.hashFileNames = false → f.bundle = g.bundle → m ≠ defaultMode →
    f.variant.mode = some m → f.isScoped = true →
    g.variant.mode = some (m ++ ".sc") → g.isScoped = false → Clash config minifiers t f g
  | tag {w : String} : config.hashFileNames = false → g.namingTag = f.namingTag ++ "." ++ w →
    f.marks = "." ++ w ++ g.marks → Clash config minifiers t f g
  | spelling : config.hashFileNames = false → f.id config minifiers ≠ g.id config minifiers →
    '/' ∈ (f.id config minifiers).toList ∨ '/' ∈ (g.id config minifiers).toList →
    compare (t.path config (bundleFileName (f.id config minifiers)))
      (t.path config (bundleFileName (g.id config minifiers))) = .eq → Clash config minifiers t f g

section Clashes

variable {config : Config} {minifiers : Minifiers} {t : OutputTree} {f g : StyleFile}

theorem Clash.compare_path (h : Clash config minifiers t f g) :
    compare (t.path config (f.artifact config minifiers).fileName)
      (t.path config (g.artifact config minifiers).fileName) = .eq := by
  have hsame : f.id config minifiers = g.id config minifiers →
      compare (t.path config (f.artifact config minifiers).fileName)
        (t.path config (g.artifact config minifiers).fileName) = .eq := by
    intro hid
    have hname : (f.artifact config minifiers).fileName = (g.artifact config minifiers).fileName :=
      congrArg bundleFileName hid
    rw [hname]
    exact Std.ReflCmp.compare_self
  cases h with
  | digest hhash hkind hdigest =>
    refine hsame ?_
    rw [f.id_hashed hhash, g.id_hashed hhash, hdigest, StyleFile.kindMark, hkind]
    rfl
  | @mode m hname hbundle hm hf hfkind hg hgkind =>
    refine hsame ?_
    have hlong : m ++ ".sc" ≠ defaultMode := by
      intro h
      have hlength := congrArg (fun s : String => s.toList.length) h
      simp [defaultMode] at hlength
    rw [f.id_named hname, g.id_named hname]
    unfold StyleFile.namingTag StyleFile.marks StyleFile.modeMark StyleFile.kindMark
    simp only [hbundle, hf, hg, hfkind, hgkind, if_neg hm, if_neg hlong, if_true,
      Bool.false_eq_true, if_false, String.append_assoc, String.append_empty]
  | tag hname htag hmarks =>
    refine hsame ?_
    rw [f.id_named hname, g.id_named hname, htag, hmarks]
    simp only [String.append_assoc]
  | spelling _ _ _ hpath => exact hpath

theorem StyleFile.IsOf.eq_of_mode {compiled : List CompiledBundle} (hf : f.IsOf compiled)
    (hg : g.IsOf compiled) (hbundle : f.bundle = g.bundle)
    (hmode : f.variant.mode = g.variant.mode) (hkind : f.isScoped = g.isScoped) : f = g := by
  obtain ⟨b, v, kind⟩ := f
  obtain ⟨b', v', kind'⟩ := g
  dsimp only at hbundle hmode hkind
  subst hbundle hkind
  have hv := hf.variant
  have hv' := hg.variant
  dsimp only at hv hv'
  rw [bundleVariants_eq] at hv hv'
  congr 1
  split at hv
  · rename_i hmodes
    rw [if_pos hmodes] at hv'
    rw [List.mem_singleton.1 hv, List.mem_singleton.1 hv']
  · rename_i hmodes
    rw [if_neg hmodes] at hv'
    obtain ⟨m, -, rfl⟩ := List.mem_map.1 hv
    obtain ⟨m', -, rfl⟩ := List.mem_map.1 hv'
    obtain rfl := Option.some.inj hmode
    rfl

theorem StyleFile.IsOf.exists_namingTag {compiled : List CompiledBundle} (hf : f.IsOf compiled) :
    ∃ c ∈ f.bundle.bundle.components, c.tag = f.namingTag := by
  obtain ⟨c, rest, hc⟩ := List.exists_cons_of_ne_nil hf.members
  refine ⟨c, by simp [hc], ?_⟩
  simp [StyleFile.namingTag, ManifestBundle.firstTag?, hc]

theorem StyleFile.IsOf.mode_cases {compiled : List CompiledBundle} (hf : f.IsOf compiled) :
    (f.variant.mode = none ∧ bundleModes f.bundle.bundle.components = []) ∨
      ∃ m, f.variant.mode = some m ∧ m ∈ offeredModes (bundleModes f.bundle.bundle.components) := by
  have hv := hf.variant
  rw [bundleVariants_eq] at hv
  split at hv
  · rename_i hmodes
    rw [List.mem_singleton.1 hv]
    exact .inl ⟨rfl, hmodes⟩
  · obtain ⟨m, hm, hvariant⟩ := List.mem_map.1 hv
    rw [← hvariant]
    exact .inr ⟨m, rfl, hm⟩

theorem StyleFile.modeMark_named {m : String} (hm : f.variant.mode = some m)
    (hne : m ≠ defaultMode) :
    f.modeMark = "." ++ m := by
  simp [modeMark, hm, hne]

theorem StyleFile.modeMark_default (hm : f.variant.mode = some defaultMode) : f.modeMark = "" := by
  simp [modeMark, hm]

theorem StyleFile.IsOf.mode_of_modeMark {compiled : List CompiledBundle} (hf : f.IsOf compiled)
    (hg : g.IsOf compiled) (hbundle : f.bundle = g.bundle) (hmark : f.modeMark = g.modeMark) :
    f.variant.mode = g.variant.mode := by
  have hmodes := hf.mode_cases
  rw [hbundle] at hmodes
  rcases hmodes with ⟨hnone, hempty⟩ | ⟨m, hm, hmem⟩
  · rcases hg.mode_cases with ⟨hnone', -⟩ | ⟨m', -, hmem'⟩
    · rw [hnone, hnone']
    · rw [hempty] at hmem'
      cases hmem'
  · rcases hg.mode_cases with ⟨-, hempty⟩ | ⟨m', hm', -⟩
    · rw [hempty] at hmem
      cases hmem
    · rw [hm, hm']
      by_cases hdef : m = defaultMode <;> by_cases hdef' : m' = defaultMode
      · rw [hdef, hdef']
      · subst hdef
        rw [StyleFile.modeMark_default hm, StyleFile.modeMark_named hm' hdef'] at hmark
        simp at hmark
      · subst hdef'
        rw [StyleFile.modeMark_named hm hdef, StyleFile.modeMark_default hm'] at hmark
        simp at hmark
      · rw [StyleFile.modeMark_named hm hdef, StyleFile.modeMark_named hm' hdef',
          String.append_right_inj] at hmark
        rw [hmark]

/-- A scoped file has the mark of a plain one of the same bundle only if the mode of that one ends
in the mark of scoped styles. -/
theorem clash_of_mixed_kinds {compiled : List CompiledBundle} (hf : f.IsOf compiled)
    (hg : g.IsOf compiled) (hname : config.hashFileNames = false) (hbundle : f.bundle = g.bundle)
    (hscoped : f.isScoped = true) (hplain : g.isScoped = false)
    (hmark : f.modeMark ++ ".sc" = g.modeMark) : Clash config minifiers t f g := by
  have hsome := hf.needs hscoped
  rw [Bool.and_eq_true, Option.isSome_iff_exists] at hsome
  obtain ⟨-, m, hm⟩ := hsome
  obtain ⟨m', hm', hmem', hne'⟩ : ∃ m', g.variant.mode = some m' ∧
      m' ∈ offeredModes (bundleModes g.bundle.bundle.components) ∧ m' ≠ defaultMode := by
    rcases hg.mode_cases with ⟨hnone, -⟩ | ⟨m', hm', hmem'⟩
    · simp [StyleFile.modeMark, hnone] at hmark
    · refine ⟨m', hm', hmem', ?_⟩
      rintro rfl
      rw [StyleFile.modeMark_default hm'] at hmark
      simp at hmark
  rw [StyleFile.modeMark_named hm' hne'] at hmark
  by_cases hdef : m = defaultMode
  · -- beside a named mode there is no file for `$`
    subst hdef
    rcases hf.mode_cases with ⟨hnone, -⟩ | ⟨m, hm'', hmem⟩
    · rw [hnone] at hm
      cases hm
    · obtain rfl : m = defaultMode := Option.some.inj (hm''.symm.trans hm)
      have hnamed := (mem_offeredModes.1 hmem).2 rfl
      rw [hbundle, Bool.eq_false_iff, ne_eq, hasNamedMode_iff] at hnamed
      exact absurd ⟨m', (mem_offeredModes.1 hmem').1, hne'⟩ hnamed
  · rw [StyleFile.modeMark_named hm hdef, String.append_assoc, String.append_right_inj] at hmark
    exact .mode hname hbundle hdef hm hscoped (hmark ▸ hm') hplain

theorem same_marks {compiled : List CompiledBundle} (hf : f.IsOf compiled) (hg : g.IsOf compiled)
    (hname : config.hashFileNames = false) (hbundle : f.bundle = g.bundle)
    (hmarks : f.marks = g.marks) :
    f = g ∨ Clash config minifiers t f g ∨ Clash config minifiers t g f := by
  unfold StyleFile.marks StyleFile.kindMark at hmarks
  cases hkind : f.isScoped <;> cases hkind' : g.isScoped <;>
    simp only [hkind, hkind', if_true, Bool.false_eq_true, if_false, String.append_empty,
      String.append_left_inj] at hmarks
  · exact .inl (hf.eq_of_mode hg hbundle (hf.mode_of_modeMark hg hbundle hmarks)
      (hkind.trans hkind'.symm))
  · exact .inr (.inr (clash_of_mixed_kinds hg hf hname hbundle.symm hkind' hkind hmarks.symm))
  · exact .inr (.inl (clash_of_mixed_kinds hf hg hname hbundle hkind hkind' hmarks))
  · exact .inl (hf.eq_of_mode hg hbundle (hf.mode_of_modeMark hg hbundle hmarks)
      (hkind.trans hkind'.symm))

theorem StyleFile.marks_cases (f : StyleFile) : f.marks = "" ∨ ∃ w, f.marks = "." ++ w := by
  unfold marks modeMark kindMark
  have hkind : (if f.isScoped then ".sc" else "") = "" ∨
      ∃ w, (if f.isScoped then ".sc" else "") = "." ++ w := by
    cases f.isScoped
    · exact .inl rfl
    · exact .inr ⟨"sc", rfl⟩
  cases f.variant.mode with
  | none => simpa using hkind
  | some mode =>
    dsimp only
    split
    · simpa using hkind
    · exact .inr ⟨mode ++ (if f.isScoped then ".sc" else ""), by rw [String.append_assoc]⟩

/-- One tag followed by marks is another one followed by marks only if it goes on with a dot. -/
theorem clash_of_longer_tag (hname : config.hashFileNames = false) {w : List Char} (hw : w ≠ [])
    (htag : g.namingTag.toList = f.namingTag.toList ++ w)
    (hmarks : f.marks.toList = w ++ g.marks.toList) : Clash config minifiers t f g := by
  rcases f.marks_cases with hempty | ⟨m, hm⟩
  · rw [hempty] at hmarks
    exact absurd (List.append_eq_nil_iff.1 hmarks.symm).1 hw
  · obtain ⟨c, w, rfl⟩ := List.exists_cons_of_ne_nil hw
    have hdot : c = '.' := by
      rw [hm] at hmarks
      simpa using (congrArg List.head? hmarks).symm
    subst hdot
    refine @Clash.tag config minifiers t f g (String.ofList w) hname ?_ ?_ <;>
      apply String.toList_injective <;> simp [htag, hmarks]

/-- Names that are not hashed: two files of a build have one id only if they are the same or clash.
-/
theorem same_id_named {compiled : List CompiledBundle}
    (hdistinct : DistinctTags (compiled.map (·.bundle))) (hf : f.IsOf compiled)
    (hg : g.IsOf compiled) (hname : config.hashFileNames = false)
    (hid : f.id config minifiers = g.id config minifiers) :
    f = g ∨ Clash config minifiers t f g ∨ Clash config minifiers t g f := by
  rw [f.id_named hname, g.id_named hname] at hid
  by_cases htag : f.namingTag = g.namingTag
  · have hbundle : f.bundle = g.bundle := by
      obtain ⟨c, hc, hctag⟩ := hf.exists_namingTag
      obtain ⟨d, hd, hdtag⟩ := hg.exists_namingTag
      exact (hdistinct.unique hf.bundle hg.bundle hc hd (by rw [hctag, hdtag, htag])).1
    rw [htag, String.append_right_inj] at hid
    exact same_marks hf hg hname hbundle hid
  · have hchars := congrArg String.toList hid
    rw [String.toList_append, String.toList_append, List.append_eq_append_iff] at hchars
    have hne : ∀ {w : List Char} {a b : String}, a ≠ b → b.toList = a.toList ++ w → w ≠ [] := by
      rintro _ a b hab hb rfl
      rw [List.append_nil] at hb
      exact hab (String.toList_injective hb.symm)
    rcases hchars with ⟨w, hlonger, hmarks⟩ | ⟨w, hlonger, hmarks⟩
    · exact .inr (.inl (clash_of_longer_tag hname (hne htag hlonger) hlonger hmarks))
    · exact .inr (.inr (clash_of_longer_tag hname (hne (Ne.symm htag) hlonger) hlonger hmarks))

theorem isHexDigit_of_mem_digest {c : Char} (hc : c ∈ (f.digest config minifiers).toList) :
    Digest.isHexDigit c = true := by
  rw [StyleFile.digest, contentHash, String.toList_ofList] at hc
  exact Digest.isHexDigit_of_mem_hexDigest (List.mem_of_mem_take hc)

/-- Hashed names: files have one id exactly if they are of one kind and have one digest. -/
theorem same_id_hashed (hhash : config.hashFileNames = true)
    (hid : f.id config minifiers = g.id config minifiers) :
    f.isScoped = g.isScoped ∧ f.digest config minifiers = g.digest config minifiers := by
  have hdot : ∀ k : StyleFile, '.' ∉ (k.digest config minifiers).toList := fun k hk =>
    absurd (isHexDigit_of_mem_digest hk) (by decide)
  rw [f.id_hashed hhash, g.id_hashed hhash] at hid
  unfold StyleFile.kindMark at hid
  cases hkind : f.isScoped <;> cases hkind' : g.isScoped <;>
    simp only [hkind, hkind', if_true, Bool.false_eq_true, if_false, String.append_empty,
      String.append_left_inj] at hid
  · exact ⟨rfl, hid⟩
  · exact absurd (by rw [hid]; simp) (hdot f)
  · exact absurd (by rw [← hid]; simp) (hdot g)
  · exact ⟨rfl, hid⟩

theorem same_path {compiled : List CompiledBundle}
    (hdistinct : DistinctTags (compiled.map (·.bundle))) (hf : f.IsOf compiled)
    (hg : g.IsOf compiled) (hpath : compare (t.path config (f.artifact config minifiers).fileName)
      (t.path config (g.artifact config minifiers).fileName) = .eq) :
    f = g ∨ Clash config minifiers t f g ∨ Clash config minifiers t g f := by
  have hid : '/' ∉ (f.id config minifiers).toList → '/' ∉ (g.id config minifiers).toList →
      f.id config minifiers = g.id config minifiers := by
    intro hslash hslash'
    rw [path_eq, path_eq] at hpath
    have hname : bundleFileName (f.id config minifiers) = bundleFileName (g.id config minifiers) :=
      FilePath.eq_of_compare_join (isName_bundleFileName hslash) (isName_bundleFileName hslash')
        hpath
    exact (String.append_left_inj _).1 hname
  cases hhash : config.hashFileNames with
  | true =>
    have hslash : ∀ k : StyleFile, '/' ∉ (k.id config minifiers).toList := by
      intro k hk
      rw [k.id_hashed hhash, String.toList_append, List.mem_append] at hk
      rcases hk with hk | hk
      · exact absurd (isHexDigit_of_mem_digest hk) (by decide)
      · unfold StyleFile.kindMark at hk
        cases hkind : k.isScoped <;> simp [hkind] at hk
    obtain ⟨hkind, hdigest⟩ := same_id_hashed hhash (hid (hslash f) (hslash g))
    exact .inr (.inl (.digest hhash hkind hdigest))
  | false =>
    by_cases heq : f.id config minifiers = g.id config minifiers
    · exact same_id_named hdistinct hf hg hhash heq
    · by_cases hslash : '/' ∈ (f.id config minifiers).toList ∨ '/' ∈ (g.id config minifiers).toList
      · exact .inr (.inl (.spelling hhash heq hslash hpath))
      · rw [not_or] at hslash
        exact absurd (hid hslash.1 hslash.2) heq

end Clashes

/-! ## Simple names -/

/-- The tags and modes of a bundle hold neither dots nor separators. -/
def ManifestBundle.SimpleNames (b : ManifestBundle) : Prop :=
  ∀ c ∈ b.components, ('.' ∉ c.tag.toList ∧ '/' ∉ c.tag.toList) ∧
    ∀ mode ∈ c.styles.keys, '.' ∉ mode.toList ∧ '/' ∉ mode.toList

section SimpleNames

variable {config : Config} {minifiers : Minifiers} {t : OutputTree} {f g : StyleFile}
  {compiled : List CompiledBundle}

theorem StyleFile.IsOf.exists_mode (hf : f.IsOf compiled) {m : String}
    (hm : f.variant.mode = some m) : ∃ c ∈ f.bundle.bundle.components, m ∈ c.styles.keys := by
  rcases hf.mode_cases with ⟨hnone, -⟩ | ⟨m', hm', hmem⟩
  · rw [hnone] at hm
    cases hm
  · obtain rfl : m' = m := Option.some.inj (hm'.symm.trans hm)
    exact mem_bundleModes.1 (mem_offeredModes.1 hmem).1

theorem notMem_id (hsimple : f.bundle.bundle.SimpleNames) (hf : f.IsOf compiled) :
    '/' ∉ (f.id config minifiers).toList := by
  obtain ⟨c, hc, hctag⟩ := hf.exists_namingTag
  have hvariant :
      '/' ∉ (variantId config minifiers f.namingTag f.bundle.bundle f.variant).toList := by
    refine notMem_bundleId (hctag ▸ (hsimple c hc).1.2) fun m hm => ?_
    obtain ⟨d, hd, hmode⟩ := hf.exists_mode hm
    exact ((hsimple d hd).2 m hmode).2
  rw [f.id_eq, String.toList_append, List.mem_append, not_or]
  refine ⟨hvariant, ?_⟩
  unfold StyleFile.kindMark
  cases f.isScoped <;> simp

/-- Simple names do not clash: without dots and separators in tags and modes every file has its
own name, unless names are hashed. -/
theorem not_clash_of_simple_names (hname : config.hashFileNames = false)
    (hsimple : ∀ b ∈ compiled, b.bundle.SimpleNames) (hf : f.IsOf compiled)
    (hg : g.IsOf compiled) : ¬ Clash config minifiers t f g := by
  have hsimple' := hsimple g.bundle hg.bundle
  intro h
  cases h with
  | digest hhash => simp [hname] at hhash
  | mode _ _ _ _ _ hmode =>
    obtain ⟨c, hc, hkey⟩ := hg.exists_mode hmode
    exact ((hsimple' c hc).2 _ hkey).1 (by simp)
  | tag _ htag =>
    obtain ⟨c, hc, hctag⟩ := hg.exists_namingTag
    refine (hsimple' c hc).1.1 ?_
    rw [hctag, htag]
    simp
  | spelling _ _ hslash =>
    rcases hslash with hslash | hslash
    · exact notMem_id (hsimple f.bundle hf.bundle) hf hslash
    · exact notMem_id hsimple' hg hslash

end SimpleNames

/-! ## Overwriting -/

/-- Whether no file takes the place of a different one in a tree. -/
def NoOverwriting (config : Config) (t : OutputTree) (files : List Artifact) : Prop :=
  ∀ a ∈ files, ∀ a' ∈ files,
    compare (t.path config a.fileName) (t.path config a'.fileName) = .eq → a.content = a'.content

/-- **No file takes the place of a different one** exactly if the files whose names clash have the
same text. -/
theorem no_overwriting_iff {bundles : List ManifestBundle} (hdistinct : DistinctTags bundles)
    (config : Config) (t : OutputTree) (w : Workspace) (r : BuildRound) :
    NoOverwriting config t (w.assembled config bundles r) ↔
      ∀ f g : StyleFile, f.IsOf (w.compiled config bundles r) →
        g.IsOf (w.compiled config bundles r) → Clash config r.world.minifiers t f g →
        (f.artifact config r.world.minifiers).content =
          (g.artifact config r.world.minifiers).content := by
  rw [← map_bundle_compiled config w bundles r] at hdistinct
  constructor
  · intro h f g hf hg hclash
    exact h _ (mem_assembled.2 ⟨f, hf, rfl⟩) _ (mem_assembled.2 ⟨g, hg, rfl⟩) hclash.compare_path
  · intro h a ha a' ha' hpath
    obtain ⟨f, hf, rfl⟩ := mem_assembled.1 ha
    obtain ⟨g, hg, rfl⟩ := mem_assembled.1 ha'
    rcases same_path hdistinct hf hg hpath with rfl | hclash | hclash
    · rfl
    · exact h f g hf hg hclash
    · exact (h g f hg hf hclash).symm

/-! ## A tag that spells a mode -/

/-- A bundle with styles in the mode `b` only. -/
def modedBundle : ManifestBundle where
  components := [{ tag := "x-a", styles := .ofList [("b", { inlineText := some "h1\x7b\x7d" })] }]
  moduleText := ""

/-- A bundle whose tag reads like the tag and the mode of the other one. -/
def dottedBundle : ManifestBundle := ⟨[{ tag := "x-a.b" }], ""⟩

def modedFile : StyleFile :=
  let styles := [⟨"x-a", "b", "h1\x7b\x7d", none⟩]
  ⟨⟨modedBundle, styles⟩, ⟨some "b", styles⟩, false⟩

def dottedFile : StyleFile := ⟨⟨dottedBundle, []⟩, ⟨none, []⟩, false⟩

theorem compiled_moded_dotted :
    Workspace.compiled {} {} [modedBundle, dottedBundle] bareRound =
      [modedFile.bundle, dottedFile.bundle] := by
  decide +kernel

/-- Both bundles write `x-a.b.js`, so the styles of the first one are lost. -/
theorem moded_styles_are_lost :
    Config.problem? {} = none ∧ DistinctTags [modedBundle, dottedBundle] ∧
      ¬ NoOverwriting {} .www
        (Workspace.assembled {} {} [modedBundle, dottedBundle] bareRound) := by
  have hdistinct : DistinctTags [modedBundle, dottedBundle] := by decide
  refine ⟨by decide +kernel, hdistinct, fun h => ?_⟩
  have hfiles := (no_overwriting_iff hdistinct {} .www {} bareRound).1 h
  rw [compiled_moded_dotted] at hfiles
  have hmoded : modedFile.IsOf [modedFile.bundle, dottedFile.bundle] :=
    ⟨by simp, by decide, by decide +kernel, by decide⟩
  have hdotted : dottedFile.IsOf [modedFile.bundle, dottedFile.bundle] :=
    ⟨by simp, by decide, by decide +kernel, by decide⟩
  have hclash : Clash {} bareRound.world.minifiers .www modedFile dottedFile :=
    @Clash.tag _ _ _ _ _ "b" rfl (by decide +kernel) (by decide +kernel)
  have hcontent : (modedFile.artifact {} bareRound.world.minifiers).content ≠
      (dottedFile.artifact {} bareRound.world.minifiers).content := by decide +kernel
  exact hcontent (hfiles modedFile dottedFile hmoded hdotted hclash)

end ComponentBundle
