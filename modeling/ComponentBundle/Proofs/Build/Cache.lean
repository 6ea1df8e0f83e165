import ComponentBundle.Build
import ComponentBundle.Proofs.FileTree
import ComponentBundle.Proofs.Style.Compile

/-!
# The style cache during a build

Bundles are compiled one after another, and each sees what earlier ones left in the cache. A slot
changes only when its file is compiled anew, and then holds the text that the file yields now
(`slot?_compileBundles`). So what holds of the cache at the start of a build holds at every bundle:

* `remembered_compileBundles` : in the end every listed file that can be compiled is remembered;
* `compileBundles_full`, `fewer_compileBundles` : a build gives what a full build gives if it hides
  no failure, and reports less if it hides one.
-/

namespace ComponentBundle

/-- Whether a member of some bundle lists a file of some kind. -/
def HasSource (bundles : List ManifestBundle) (c : Component) (kind : StyleKind) (p : FilePath) :
    Prop :=
  (∃ b ∈ bundles, c ∈ b.components) ∧ c.Lists kind p

def Listed (bundles : List ManifestBundle) (kind : StyleKind) (p : FilePath) : Prop :=
  ∃ c, HasSource bundles c kind p

/-- Whether all spellings of a path that bundles list yield one text. -/
def StyleWorld.Pathwise (world : StyleWorld) (minify : Bool) (bundles : List ManifestBundle) :
    Prop :=
  ∀ kind p q text, Listed bundles kind p → Listed bundles kind q → compare p q = .eq →
    world.outcome minify kind q = .ok text → world.outcome minify kind p = .ok text

theorem Listed.mono {bundles listed : List ManifestBundle} (hsub : bundles ⊆ listed)
    {kind : StyleKind} {p : FilePath} (h : Listed bundles kind p) : Listed listed kind p := by
  obtain ⟨c, ⟨b, hb, hc⟩, hlists⟩ := h
  exact ⟨c, ⟨b, hsub hb, hc⟩, hlists⟩

/-- Whether no path that the members of a bundle list is too long to be read. -/
def ManifestBundle.PathsFit (b : ManifestBundle) : Prop :=
  ∀ c ∈ b.components, ∀ e ∈ c.styles.entries, ∀ p ∈ e.2.paths,
    p.text.utf8ByteSize ≤ FileTree.maxPathSize

instance (b : ManifestBundle) : Decidable b.PathsFit := inferInstanceAs (Decidable (∀ _ ∈ _, _))

theorem Listed.size_le {bundles : List ManifestBundle} {kind : StyleKind} {p : FilePath}
    (h : Listed bundles kind p) (hfit : ∀ b ∈ bundles, b.PathsFit) :
    p.text.utf8ByteSize ≤ FileTree.maxPathSize := by
  obtain ⟨c, ⟨b, hb, hc⟩, -, mode, sources, hget, hp⟩ := h
  obtain ⟨key, -, hmem⟩ :=
    SortedMap.mem_of_lastValue? ((SortedMap.lastValue?_entries c.styles mode).trans hget)
  exact hfit b hb c hc _ hmem p hp

/-- A file tree yields one text for all spellings that are not too long, so with a preprocessor that
goes by the path too, so does a world over it. -/
theorem pathwise_of_tree (tree : FileTree) {world : StyleWorld} (hread : world.read = tree.read)
    {minify : Bool} {bundles : List ManifestBundle}
    (hpreprocess : ∀ p q, compare p q = .eq → ∀ text,
      world.preprocess q minify = .ok text → world.preprocess p minify = .ok text)
    (hfit : ∀ b ∈ bundles, b.PathsFit) : world.Pathwise minify bundles := by
  have hok : ∀ {ε ε' : Type} {f : ε → ε'} {r : Except ε String} {text : String},
      r.mapError f = .ok text ↔ r = .ok text := by
    intro ε ε' f r text
    cases r <;> simp [Except.mapError]
  intro kind p q text hp hq hpath hout
  cases kind with
  | preprocessed => exact hok.2 (hpreprocess p q hpath text (hok.1 hout))
  | css =>
    have hsame := tree.read_congr hpath (hp.size_le hfit) (hq.size_le hfit)
    rw [← hread] at hsame
    exact hok.2 (hsame.trans (hok.1 hout))

/-! ## One bundle -/

namespace StyleEnv

def after (env : StyleEnv) (components : List Component) : StyleEnv :=
  { env with cache := env.cache.apply (compileMembers env components).2.updates }

-- `listed` are the bundles whose paths are spelled consistently, `b` is the one that is compiled
variable {env : StyleEnv} {listed : List ManifestBundle} {b : ManifestBundle} {c : Component}
  {kind : StyleKind} {p : FilePath}

theorem slot?_after (hworld : env.world.Pathwise env.config.minifyStyles listed)
    (hp : Listed listed kind p) (hb : b ∈ listed) :
    (∃ text, env.outcome kind p = .ok text ∧
      (env.after b.components).cache.slot? kind p = some (remembered text)) ∨
    (env.after b.components).cache.slot? kind p = env.cache.slot? kind p := by
  rcases env.cache.slot?_apply kind p (compileMembers env b.components).2.updates with
    ⟨u, hu, rfl, hpath, hslot⟩ | ⟨-, hslot⟩
  · obtain ⟨c, hc, hlists, -, text, hout, hstyle⟩ := mem_updates_compileMembers.1 hu
    refine .inl ⟨text, hworld _ _ _ _ hp ⟨c, ⟨b, hb, hc⟩, hlists⟩ hpath hout, ?_⟩
    rw [← hstyle]
    exact hslot
  · exact .inr hslot

theorem slot?_of_reusable {cached : CachedStyle} (h : env.reusable? c kind p = some cached) :
    env.cache.slot? kind p = some cached := by
  unfold StyleEnv.reusable? at h
  cases hchange : env.change with
  | none => rw [hchange, StyleCache.reusable?_none] at h; cases h
  | some change =>
    rw [hchange, StyleCache.reusable?_some] at h
    split at h
    · cases h
    · exact h

theorem reusable?_after {components : List Component}
    (hslot : (env.after components).cache.slot? kind p = env.cache.slot? kind p) :
    (env.after components).reusable? c kind p = env.reusable? c kind p := by
  unfold StyleEnv.reusable?
  show (env.after components).cache.reusable? env.change c kind p = _
  cases env.change with
  | none => rw [StyleCache.reusable?_none, StyleCache.reusable?_none]
  | some change => rw [StyleCache.reusable?_some, StyleCache.reusable?_some, hslot]

theorem remembered_after (hworld : env.world.Pathwise env.config.minifyStyles listed)
    (hb : b ∈ listed) (hc : c ∈ b.components) (hlists : c.Lists kind p)
    (hfaithful : env.Faithful c kind p) {text : String} (hout : env.outcome kind p = .ok text) :
    (env.after b.components).cache.slot? kind p = some (remembered text) := by
  have hp : Listed listed kind p := ⟨c, ⟨b, hb, hc⟩, hlists⟩
  cases hreuse : env.reusable? c kind p with
  | some cached =>
    obtain rfl := hfaithful text cached hout hreuse
    rcases slot?_after hworld hp hb with ⟨text', hout', hslot⟩ | hslot
    · rw [hout] at hout'
      obtain rfl := Except.ok.inj hout'
      exact hslot
    · exact hslot.trans (slot?_of_reusable hreuse)
  | none =>
    -- compiled anew, so the slot holds an update; it may be another spelling's, of the same text
    have hmem : ⟨kind, p, remembered text⟩ ∈ (compileMembers env b.components).2.updates :=
      mem_updates_compileMembers.2 ⟨c, hc, hlists, hreuse, text, hout, rfl⟩
    rcases env.cache.slot?_apply kind p (compileMembers env b.components).2.updates with
      ⟨u, hu, rfl, hpath, hslot⟩ | ⟨hnone, -⟩
    · obtain ⟨d, hd, hlists', -, text', hout', hstyle⟩ := mem_updates_compileMembers.1 hu
      have hsame := hworld _ _ _ _ hp ⟨d, ⟨b, hb, hd⟩, hlists'⟩ hpath hout'
      rw [← StyleEnv.outcome, hout] at hsame
      obtain rfl := Except.ok.inj hsame
      rw [← hstyle]
      exact hslot
    · exact absurd ⟨rfl, FilePath.compare_eq_iff.2 rfl⟩ (hnone _ hmem)

theorem Faithful.after (hworld : env.world.Pathwise env.config.minifyStyles listed)
    (hp : Listed listed kind p) (h : env.Faithful c kind p) (hb : b ∈ listed) :
    (env.after b.components).Faithful c kind p := by
  intro text cached hout hreuse
  rcases slot?_after hworld hp hb with ⟨text', hout', hslot⟩ | hslot
  · have htext : text = text' := Except.ok.inj (hout.symm.trans hout')
    subst htext
    exact Option.some.inj ((slot?_of_reusable hreuse).symm.trans hslot)
  · exact h text cached hout ((reusable?_after hslot).symm.trans hreuse)

theorem hides_after_iff (hworld : env.world.Pathwise env.config.minifyStyles listed)
    (hp : Listed listed kind p) (hb : b ∈ listed) :
    (env.after b.components).Hides c kind p ↔ env.Hides c kind p := by
  refine and_congr_right ?_
  rintro ⟨d, herror⟩
  -- a slot that was filled anew belongs to a file that does not fail
  rcases slot?_after hworld hp hb with ⟨text, hout, -⟩ | hslot
  · have hsame : (Except.error d : Except Diagnostic String) = .ok text := herror.symm.trans hout
    cases hsame
  · rw [reusable?_after hslot]

end StyleEnv

/-! ## All bundles -/

section Bundles

def cacheAfter (env : StyleEnv) (bundles : List ManifestBundle) : StyleCache :=
  (compileBundles env.config env.world env.change env.cache bundles).2.2

variable {env full : StyleEnv} {bundles listed : List ManifestBundle} {c : Component}
  {kind : StyleKind} {p : FilePath}

theorem slot?_compileBundles (hworld : env.world.Pathwise env.config.minifyStyles listed)
    (hp : Listed listed kind p) (hsub : bundles ⊆ listed) :
    (∃ text, env.outcome kind p = .ok text ∧
      (cacheAfter env bundles).slot? kind p = some (remembered text)) ∨
    (cacheAfter env bundles).slot? kind p = env.cache.slot? kind p := by
  induction bundles generalizing env with
  | nil => exact .inr rfl
  | cons b bundles ih =>
    have hrest := @ih (env.after b.components) hworld (List.subset_of_cons_subset hsub)
    rcases hrest with h | h
    · exact .inl h
    · rcases StyleEnv.slot?_after hworld hp (hsub List.mem_cons_self) with
        ⟨text, hout, hslot⟩ | hslot
      · exact .inl ⟨text, hout, h.trans hslot⟩
      · exact .inr (h.trans hslot)

theorem remembered_compileBundles (hworld : env.world.Pathwise env.config.minifyStyles listed)
    (hsub : bundles ⊆ listed) (hsource : HasSource bundles c kind p)
    (hfaithful : env.Faithful c kind p) {text : String} (hout : env.outcome kind p = .ok text) :
    (cacheAfter env bundles).slot? kind p = some (remembered text) := by
  have hp : Listed listed kind p := Listed.mono hsub ⟨c, hsource⟩
  obtain ⟨⟨b, hb, hc⟩, hlists⟩ := hsource
  induction bundles generalizing env with
  | nil => cases hb
  | cons b' bundles ih =>
    have hhead := hsub List.mem_cons_self
    have hrest := List.subset_of_cons_subset hsub
    rcases List.mem_cons.1 hb with rfl | hb
    · have hslot := StyleEnv.remembered_after hworld hhead hc hlists hfaithful hout
      have hworld' : (env.after b.components).world.Pathwise
          (env.after b.components).config.minifyStyles listed := hworld
      rcases slot?_compileBundles hworld' hp hrest with ⟨text', hout', h⟩ | h
      · have htext : text = text' := Except.ok.inj (hout.symm.trans hout')
        subst htext
        exact h
      · exact h.trans hslot
    · have hnext := hfaithful.after hworld hp hhead
      exact @ih (env.after b'.components) hworld hrest hnext hout hb

theorem compileBundles_full (hfull : full.IsFullOf env)
    (hworld : env.world.Pathwise env.config.minifyStyles listed) (hsub : bundles ⊆ listed)
    (hfaithful : ∀ c kind p, HasSource bundles c kind p → env.Faithful c kind p)
    (hhides : ∀ c kind p, HasSource bundles c kind p → ¬ env.Hides c kind p) :
    (compileBundles env.config env.world env.change env.cache bundles).1 =
        (compileBundles full.config full.world full.change full.cache bundles).1 ∧
      (compileBundles env.config env.world env.change env.cache bundles).2.1.diagnostics =
        (compileBundles full.config full.world full.change full.cache bundles).2.1.diagnostics := by
  induction bundles generalizing env full with
  | nil => exact ⟨rfl, rfl⟩
  | cons b bundles ih =>
    have hhead := hsub List.mem_cons_self
    have hsource : ∀ {c kind p}, HasSource bundles c kind p → HasSource (b :: bundles) c kind p :=
      fun ⟨⟨d, hd, hc⟩, hlists⟩ => ⟨⟨d, List.mem_cons_of_mem _ hd, hc⟩, hlists⟩
    have hmembers := compileMembers_full hfull b.components
      (fun c hc kind p hlists => hfaithful c kind p ⟨⟨b, List.mem_cons_self, hc⟩, hlists⟩)
      (fun c hc kind p hlists => hhides c kind p ⟨⟨b, List.mem_cons_self, hc⟩, hlists⟩)
    have hrest := @ih (env.after b.components) (full.after b.components)
      ⟨hfull.config, hfull.world, hfull.change⟩ hworld (List.subset_of_cons_subset hsub)
      (fun c kind p h =>
        (hfaithful c kind p (hsource h)).after hworld (Listed.mono hsub ⟨c, hsource h⟩) hhead)
      (fun c kind p h hhidden => hhides c kind p (hsource h)
        ((StyleEnv.hides_after_iff hworld (Listed.mono hsub ⟨c, hsource h⟩) hhead).1 hhidden))
    refine ⟨?_, ?_⟩
    · exact congrArg₂ (fun styles rest => (⟨b, styles⟩ : CompiledBundle) :: rest) hmembers.1 hrest.1
    · exact congrArg₂ (· ++ ·) hmembers.2 hrest.2

/-- A failure that a build hides is missing among its diagnostics. -/
theorem fewer_compileBundles (hfull : full.IsFullOf env)
    (hworld : env.world.Pathwise env.config.minifyStyles listed) (hsub : bundles ⊆ listed) :
    Fewer (∃ c kind p, HasSource bundles c kind p ∧ env.Hides c kind p)
      (compileBundles env.config env.world env.change env.cache bundles).2.1.diagnostics
      (compileBundles full.config full.world full.change full.cache bundles).2.1.diagnostics := by
  induction bundles generalizing env full with
  | nil =>
    refine (Fewer.refl []).mono ?_
    rintro ⟨c, kind, p, ⟨⟨b, hb, -⟩, -⟩, -⟩
    cases hb
  | cons b bundles ih =>
    have hrest := @ih (env.after b.components) (full.after b.components)
      ⟨hfull.config, hfull.world, hfull.change⟩ hworld (List.subset_of_cons_subset hsub)
    refine ((fewer_compileMembers hfull b.components).append hrest).mono ?_
    rintro ⟨c, kind, p, ⟨⟨d, hd, hc⟩, hlists⟩, hhides⟩
    rcases List.mem_cons.1 hd with rfl | hd
    · exact .inl ⟨c, hc, kind, p, hlists, hhides⟩
    · have hp : Listed listed kind p :=
        ⟨c, ⟨d, hsub (List.mem_cons_of_mem _ hd), hc⟩, hlists⟩
      exact .inr ⟨c, kind, p, ⟨⟨d, hd, hc⟩, hlists⟩,
        (StyleEnv.hides_after_iff hworld hp (hsub List.mem_cons_self)).2 hhides⟩

end Bundles

end ComponentBundle
