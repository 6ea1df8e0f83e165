import ComponentBundle.Proofs.Build.Cache
import ComponentBundle.Proofs.Bundle.Assembly
import Mathlib.Data.List.Chain

/-!
# Change builds against full builds

Builds follow one another on one context while files come, change and go. A change build is told
every listed file whose outcome differs from that of the build before it.

A text once remembered is replaced by a later one, but a failure leaves it in the cache. So a change
build gives what a full build gives as long as no listed file fails that was compiled in an earlier
build, unless the changes bypass it (`change_build_sound_iff`).

* `Remembers` : the invariant of the cache between two builds;
* `matchesFull_iff` : a single build against a full one.
-/

namespace ComponentBundle

/-! ## One build -/

def BuildResults.bundleIds (r : BuildResults) : List (List String) :=
  r.bundles.map fun b => b.variants.map (·.bundleId)

/-- Whether a build gives what the full build gives in the same context. -/
structure MatchesFull (config : Config) (world : StyleWorld) (ctx : BuildContext)
    (bundles : List ManifestBundle) : Prop where
  styles : (compileBundles config world ctx.change ctx.styleCache bundles).1 =
    (compileBundles config world none ctx.styleCache bundles).1
  ids : (generateBundles config world ctx bundles).results.bundleIds =
    (generateBundles config world ctx.clearChangedFiles bundles).results.bundleIds
  registry : (generateBundles config world ctx bundles).results.registry =
    (generateBundles config world ctx.clearChangedFiles bundles).results.registry
  diagnostics : (generateBundles config world ctx bundles).results.diagnostics.Perm
    (generateBundles config world ctx.clearChangedFiles bundles).results.diagnostics

section Build

variable {config : Config} {world : StyleWorld} {ctx : BuildContext}
  {bundles : List ManifestBundle}

/-- What the style tasks of a build see at its start. -/
def BuildContext.styleEnv (ctx : BuildContext) (config : Config) (world : StyleWorld) : StyleEnv :=
  ⟨config, ctx.styleCache, ctx.change, world⟩

theorem isFullOf_clearChangedFiles :
    (ctx.clearChangedFiles.styleEnv config world).IsFullOf (ctx.styleEnv config world) :=
  ⟨rfl, rfl, rfl⟩

theorem matchesFull_iff (hworld : world.Pathwise config.minifyStyles bundles)
    (hfaithful : ∀ c kind p, HasSource bundles c kind p →
      (ctx.styleEnv config world).Faithful c kind p) :
    MatchesFull config world ctx bundles ↔
      ∀ c kind p, HasSource bundles c kind p → ¬ (ctx.styleEnv config world).Hides c kind p := by
  constructor
  · intro h c kind p hsource hhides
    have hperm := h.diagnostics
    rw [diagnostics_generateBundles, diagnostics_generateBundles] at hperm
    exact (fewer_compileBundles isFullOf_clearChangedFiles hworld (List.Subset.refl _)).not_perm
      ⟨c, kind, p, hsource, hhides⟩ ((List.perm_append_right_iff _).1 hperm)
  · intro hhides
    obtain ⟨hstyles, hdiagnostics⟩ :=
      compileBundles_full isFullOf_clearChangedFiles hworld (List.Subset.refl _) hfaithful hhides
    have hstyles : (compileBundles config world ctx.change ctx.styleCache bundles).1 =
        (compileBundles config world none ctx.styleCache bundles).1 := hstyles
    have hdiagnostics : (compileBundles config world ctx.change ctx.styleCache
        bundles).2.1.diagnostics = (compileBundles config world none ctx.styleCache
        bundles).2.1.diagnostics := hdiagnostics
    refine ⟨hstyles, ?_, ?_, ?_⟩
    · simp only [generateBundles, BuildContext.clearChangedFiles, BuildResults.bundleIds, hstyles]
    · simp only [generateBundles, BuildContext.clearChangedFiles, hstyles]
    · rw [diagnostics_generateBundles, diagnostics_generateBundles, hdiagnostics]
      exact List.Perm.refl _

end Build

/-! ## Builds on one context -/

/-- A build of a sequence: the files and the preprocessor that it sees and, for a change build, the
files that it is told. -/
structure BuildRound where
  world : StyleWorld
  changed : Option (List FilePath) := none

namespace BuildRound

def enter (r : BuildRound) (ctx : BuildContext) : BuildContext :=
  match r.changed with
  | some files => ctx.setChangedFiles files
  | none => ctx.clearChangedFiles

def run (config : Config) (bundles : List ManifestBundle) (ctx : BuildContext) (r : BuildRound) :
    BuildOutcome :=
  generateBundles config r.world (r.enter ctx) bundles

/-- What a file yields in the build when it is compiled anew. -/
def outcome (r : BuildRound) (config : Config) (kind : StyleKind) (p : FilePath) :
    Except Diagnostic String :=
  r.world.outcome config.minifyStyles kind p

def Fails (r : BuildRound) (config : Config) (kind : StyleKind) (p : FilePath) : Prop :=
  ∃ d, r.outcome config kind p = .error d

/-- Whether a change build is told every listed file whose outcome differs from that of the build
before it. A full build need not be told. -/
def Covers (config : Config) (bundles : List ManifestBundle) (prev next : BuildRound) : Prop :=
  ∀ files, next.changed = some files → ∀ c kind p, HasSource bundles c kind p →
    prev.outcome config kind p ≠ next.outcome config kind p → p ∈ files

end BuildRound

/-- Whether every build of a sequence is told what changed since the build before it, in worlds
where all spellings of a listed path yield one text. -/
structure ValidRounds (config : Config) (bundles : List ManifestBundle)
    (rounds : List BuildRound) : Prop where
  world : ∀ r ∈ rounds, r.world.Pathwise config.minifyStyles bundles
  covers : rounds.IsChain (BuildRound.Covers config bundles)

/-- The context that builds one after another leave, from a new one on. -/
def contextAfter (config : Config) (bundles : List ManifestBundle) (rounds : List BuildRound) :
    BuildContext :=
  rounds.foldl (fun ctx r => (r.run config bundles ctx).context) ∅

/-- The cache between two builds: a listed file that could be compiled in the last build is
remembered as it was then, and a file is remembered at all if it could ever be compiled. -/
structure Remembers (config : Config) (bundles : List ManifestBundle) (rounds : List BuildRound)
    (cache : StyleCache) : Prop where
  last : ∀ r, rounds.getLast? = some r → ∀ c kind p, HasSource bundles c kind p →
    ∀ text, r.outcome config kind p = .ok text → cache.slot? kind p = some (remembered text)
  ever : ∀ c kind p, HasSource bundles c kind p →
    ((cache.slot? kind p).isSome ↔ ∃ r ∈ rounds, ¬ r.Fails config kind p)

section Rounds

variable {config : Config} {bundles : List ManifestBundle} {rounds : List BuildRound}
  {r : BuildRound} {ctx : BuildContext}

theorem BuildRound.not_fails_iff {kind : StyleKind} {p : FilePath} :
    ¬ r.Fails config kind p ↔ ∃ text, r.outcome config kind p = .ok text := by
  unfold Fails
  cases r.outcome config kind p <;> simp

theorem ValidRounds.init (h : ValidRounds config bundles (rounds ++ [r])) :
    ValidRounds config bundles rounds where
  world s hs := h.world s (List.mem_append_left _ hs)
  covers := (List.isChain_append.1 h.covers).1

theorem ValidRounds.covers_last (h : ValidRounds config bundles (rounds ++ [r]))
    {prev : BuildRound} (hprev : rounds.getLast? = some prev) : prev.Covers config bundles r :=
  (List.isChain_append.1 h.covers).2.2 prev hprev r rfl

theorem ChangeSet.bypasses_of_mem {files : List FilePath} {p : FilePath} (hp : p ∈ files)
    {kind : StyleKind} (hkind : StyleKind.ofPath? p = some kind) (c : Component) :
    (ChangeSet.mk files).bypasses c kind = true := by
  unfold StyleKind.ofPath? at hkind
  cases kind with
  | preprocessed =>
    have hfile : StyleKind.isPreprocessorFile p = true := by
      split at hkind
      · assumption
      · split at hkind <;> cases hkind
    rw [ChangeSet.bypasses, Bool.or_eq_true]
    exact .inl (List.any_eq_true.2 ⟨p, hp, hfile⟩)
  | css =>
    have hfile : StyleKind.isCssFile p = true := by
      split at hkind
      · cases hkind
      · split at hkind
        · assumption
        · cases hkind
    exact List.any_eq_true.2 ⟨p, hp, hfile⟩

theorem BuildRound.enter_styleCache : (r.enter ctx).styleCache = ctx.styleCache := by
  unfold enter
  cases r.changed <;> rfl

theorem BuildRound.enter_change : (r.enter ctx).change = r.changed.map ChangeSet.mk := by
  unfold enter
  cases r.changed <;> rfl

theorem BuildRound.reusable?_eq_some_iff {c : Component} {kind : StyleKind} {p : FilePath}
    {cached : CachedStyle} :
    ((r.enter ctx).styleEnv config r.world).reusable? c kind p = some cached ↔
      ∃ files, r.changed = some files ∧ (ChangeSet.mk files).bypasses c kind = false ∧
        ctx.styleCache.slot? kind p = some cached := by
  show (r.enter ctx).styleCache.reusable? (r.enter ctx).change c kind p = _ ↔ _
  rw [enter_styleCache, enter_change]
  cases r.changed with
  | none => simp [StyleCache.reusable?_none]
  | some files =>
    rw [Option.map_some, StyleCache.reusable?_some]
    cases hbypass : (ChangeSet.mk files).bypasses c kind <;> simp [hbypass]

theorem Remembers.faithful (h : Remembers config bundles rounds ctx.styleCache)
    (hvalid : ValidRounds config bundles (rounds ++ [r])) {c : Component} {kind : StyleKind}
    {p : FilePath} (hsource : HasSource bundles c kind p) :
    ((r.enter ctx).styleEnv config r.world).Faithful c kind p := by
  intro text cached hout hreuse
  obtain ⟨files, hfiles, hbypass, hslot⟩ := BuildRound.reusable?_eq_some_iff.1 hreuse
  -- the file was compiled before, so there is a build before this one
  obtain ⟨s, hs, -⟩ := (h.ever c kind p hsource).1 (by rw [hslot]; rfl)
  obtain ⟨prev, hprev⟩ : ∃ prev, rounds.getLast? = some prev := by
    cases hlast : rounds.getLast? with
    | some prev => exact ⟨prev, rfl⟩
    | none =>
      rw [List.getLast?_eq_none_iff.1 hlast] at hs
      cases hs
  have hsame : prev.outcome config kind p = r.outcome config kind p := by
    by_contra hne
    have hp := hvalid.covers_last hprev files hfiles c kind p hsource hne
    have htrue := ChangeSet.bypasses_of_mem hp hsource.2.1 c
    rw [hbypass] at htrue
    cases htrue
  have hright := h.last prev hprev c kind p hsource text (hsame.trans hout)
  exact Option.some.inj (hslot.symm.trans hright)

theorem remembers_nil : Remembers config bundles [] (∅ : BuildContext).styleCache where
  last r hr := by cases hr
  ever c kind p _ := by
    have hslot : (∅ : BuildContext).styleCache.slot? kind p = none := StyleCache.slot?_empty kind p
    simp [hslot]

theorem Remembers.run (h : Remembers config bundles rounds ctx.styleCache)
    (hvalid : ValidRounds config bundles (rounds ++ [r])) :
    Remembers config bundles (rounds ++ [r]) (r.run config bundles ctx).context.styleCache := by
  let env := (r.enter ctx).styleEnv config r.world
  have hworld : env.world.Pathwise env.config.minifyStyles bundles :=
    hvalid.world r (List.mem_append_right _ List.mem_cons_self)
  -- what can be compiled now fills its slot, and what cannot leaves its slot alone
  have hfilled : ∀ c kind p, HasSource bundles c kind p → ∀ text,
      r.outcome config kind p = .ok text →
      (cacheAfter env bundles).slot? kind p = some (remembered text) :=
    fun c kind p hsource text hout =>
      remembered_compileBundles hworld (List.Subset.refl _) hsource (h.faithful hvalid hsource) hout
  have hkept : ∀ c kind p, HasSource bundles c kind p → r.Fails config kind p →
      (cacheAfter env bundles).slot? kind p = ctx.styleCache.slot? kind p := by
    rintro c kind p hsource ⟨d, herror⟩
    rcases slot?_compileBundles hworld ⟨c, hsource⟩ (List.Subset.refl _) with
      ⟨text, hout, -⟩ | hslot
    · have hboth : (Except.error d : Except Diagnostic String) = .ok text := herror.symm.trans hout
      cases hboth
    · exact hslot.trans (congrArg (StyleCache.slot? · kind p) BuildRound.enter_styleCache)
  show Remembers config bundles (rounds ++ [r]) (cacheAfter env bundles)
  refine ⟨fun s hs c kind p hsource text hout => ?_, fun c kind p hsource => ?_⟩
  · rw [List.getLast?_concat] at hs
    obtain rfl := Option.some.inj hs
    exact hfilled c kind p hsource text hout
  · simp only [List.mem_append, List.mem_singleton, or_and_right, exists_or, exists_eq_left]
    by_cases hfails : r.Fails config kind p
    · rw [hkept c kind p hsource hfails, h.ever c kind p hsource]
      simp [hfails]
    · obtain ⟨text, hout⟩ := BuildRound.not_fails_iff.1 hfails
      rw [hfilled c kind p hsource text hout]
      simp [hfails]

theorem remembers_contextAfter (hvalid : ValidRounds config bundles rounds) :
    Remembers config bundles rounds (contextAfter config bundles rounds).styleCache := by
  induction rounds using List.reverseRecOn with
  | nil => exact remembers_nil
  | append_singleton rounds r ih =>
    unfold contextAfter
    rw [List.foldl_append, List.foldl_cons, List.foldl_nil]
    exact (ih hvalid.init).run hvalid

end Rounds

/-- **A change build gives what a full build gives**, after any builds on the context, exactly if
every listed file that cannot be compiled now could never be compiled before or is bypassed by the
changes. -/
theorem change_build_sound_iff {config : Config} {bundles : List ManifestBundle}
    {rounds : List BuildRound} {r : BuildRound} {files : List FilePath}
    (hchanged : r.changed = some files)
    (hvalid : ValidRounds config bundles (rounds ++ [r])) :
    MatchesFull config r.world (r.enter (contextAfter config bundles rounds)) bundles ↔
      ∀ c kind p, HasSource bundles c kind p → r.Fails config kind p →
        (ChangeSet.mk files).bypasses c kind = true ∨ ∀ s ∈ rounds, s.Fails config kind p := by
  have hcache := remembers_contextAfter hvalid.init
  have hworld := hvalid.world r (List.mem_append_right _ List.mem_cons_self)
  rw [matchesFull_iff hworld fun c kind p hsource => hcache.faithful hvalid hsource]
  refine forall₄_congr fun c kind p hsource => ?_
  have hhides : ((r.enter (contextAfter config bundles rounds)).styleEnv config r.world).Hides
      c kind p ↔ r.Fails config kind p ∧ (ChangeSet.mk files).bypasses c kind = false ∧
        ∃ s ∈ rounds, ¬ s.Fails config kind p := by
    refine and_congr_right fun _ => ?_
    rw [← hcache.ever c kind p hsource, Option.isSome_iff_exists, ← exists_and_left]
    refine exists_congr fun cached => ?_
    rw [BuildRound.reusable?_eq_some_iff, hchanged]
    simp
  rw [hhides]
  constructor
  · intro h hfails
    by_cases hbypass : (ChangeSet.mk files).bypasses c kind = true
    · exact .inl hbypass
    · refine .inr fun s hs => ?_
      by_contra hnot
      exact h ⟨hfails, Bool.not_eq_true _ ▸ hbypass, s, hs, hnot⟩
  · rintro h ⟨hfails, hbypass, s, hs, hnot⟩
    rcases h hfails with htrue | hall
    · rw [hbypass] at htrue
      cases htrue
    · exact hnot (hall s hs)

/-! ## A deleted file -/

def sampleCard : Component where
  tag := "x-card"
  styles := .ofList [("$", { paths := [⟨"a.css"⟩] })]

def sampleSheet : ManifestBundle := ⟨[sampleCard], ""⟩

def sheetTree : FileTree := (∅ : FileTree).put ⟨"a.css"⟩ (.file "h1{}".toUTF8)

/-- A world that holds the style sheet only. -/
def sheetWorld : StyleWorld := ⟨sheetTree.read, noPreprocessor, verbatim⟩

/-- The style sheet is built, then deleted, and then another file changes. -/
def deletedSheet : List BuildRound := [⟨sheetWorld, none⟩, ⟨emptyWorld, some [⟨"a.css"⟩]⟩]

theorem sheetWorld_pathwise {minify : Bool} {bundles : List ManifestBundle}
    (hfit : ∀ b ∈ bundles, b.PathsFit) : sheetWorld.Pathwise minify bundles := by
  refine pathwise_of_tree sheetTree rfl (fun p q _ text hout => ?_) hfit
  cases hout

theorem emptyWorld_pathwise (minify : Bool) (bundles : List ManifestBundle) :
    emptyWorld.Pathwise minify bundles := by
  intro kind p q text _ _ _ hout
  cases kind <;> cases hout

theorem eq_of_sampleSheet {c : Component} {kind : StyleKind} {p : FilePath}
    (h : HasSource [sampleSheet] c kind p) : p = ⟨"a.css"⟩ := by
  obtain ⟨⟨b, hb, hc⟩, -, mode, sources, hget, hp⟩ := h
  obtain rfl := List.mem_singleton.1 hb
  obtain rfl := List.mem_singleton.1 hc
  have hlast := (SortedMap.get?_ofList _ mode).symm.trans hget
  obtain ⟨key, -, hmem⟩ := SortedMap.mem_of_lastValue? hlast
  obtain ⟨-, rfl⟩ := Prod.mk.inj (List.mem_singleton.1 hmem)
  exact List.mem_singleton.1 hp

/-- The deleted style sheet is still served, and its failure is no longer reported. -/
theorem deleted_sheet_is_served :
    ¬ MatchesFull {} emptyWorld
      (BuildRound.enter ⟨emptyWorld, some [⟨"x.txt"⟩]⟩ (contextAfter {} [sampleSheet] deletedSheet))
      [sampleSheet] := by
  have hvalid : ValidRounds {} [sampleSheet]
      (deletedSheet ++ [⟨emptyWorld, some [⟨"x.txt"⟩]⟩]) := by
    constructor
    · intro r hr
      simp only [deletedSheet, List.cons_append, List.nil_append, List.mem_cons, List.not_mem_nil,
        or_false] at hr
      rcases hr with rfl | rfl | rfl
      · exact sheetWorld_pathwise (by decide +kernel)
      · exact emptyWorld_pathwise _ _
      · exact emptyWorld_pathwise _ _
    · refine .cons_cons ?_ (.cons_cons ?_ (.singleton _))
      · intro files hfiles c kind p hsource _
        obtain rfl := Option.some.inj hfiles
        rw [eq_of_sampleSheet hsource]
        exact List.mem_singleton_self _
      · intro files _ c kind p _ hne
        exact absurd rfl hne
  intro hmatches
  have hsource : HasSource [sampleSheet] sampleCard .css ⟨"a.css"⟩ :=
    ⟨⟨sampleSheet, List.mem_cons_self, List.mem_cons_self⟩, by decide, "$",
      { paths := [⟨"a.css"⟩] }, by decide, List.mem_cons_self⟩
  rcases (change_build_sound_iff rfl hvalid).1 hmatches _ .css ⟨"a.css"⟩ hsource ⟨_, rfl⟩ with
    hbypass | hall
  · exact absurd hbypass (by decide)
  · obtain ⟨d, hd⟩ := hall ⟨sheetWorld, none⟩ List.mem_cons_self
    have hread : sheetWorld.outcome false .css ⟨"a.css"⟩ = .ok "h1{}" := by decide +kernel
    cases hread.symm.trans hd

end ComponentBundle
