import ComponentBundle.Proofs.Build.Emitted
import ComponentBundle.Proofs.Build.Order
import Mathlib.Algebra.GroupWithZero.Nat

/-!
# The summary of a build

A build tells which bundles it emitted, which files it wrote and how often the preprocessor made a
style sheet. Each of these is counted where it happens; together they account for all bundles, all
files and all calls, whatever fails on the way.

* `countsCalls_compileBundles` : each successful call of the preprocessor is one counted update;
* `warnings_generateBundles` : one warning for each bundle without members;
* `outcome_emitVariant_iff` : a variant is unchanged exactly if each of its files was in its place
  when its turn came;
* `queued_writeAll` : how many files the queues hold;
* `summary_accounts_for_build` : all of this for any build.
-/

namespace ComponentBundle

/-! ## Calls of the preprocessor -/

/-- Whether the preprocessor makes a style sheet when it is called like this. -/
def StyleWorld.accepts (world : StyleWorld) (call : PreprocessorCall) : Bool :=
  (world.preprocess call.path call.minify).isOk

/-- Whether a log has one update for every successful call of the preprocessor. -/
def CompileLog.CountsCalls (world : StyleWorld) (log : CompileLog) : Prop :=
  log.updates.countP (·.kind == .preprocessed) = log.calls.countP world.accepts

namespace CompileLog

variable {world : StyleWorld}

theorem CountsCalls.append {log more : CompileLog} (h : log.CountsCalls world)
    (hmore : more.CountsCalls world) : (log ++ more).CountsCalls world := by
  show (log.updates ++ more.updates).countP _ = (log.calls ++ more.calls).countP _
  rw [List.countP_append, List.countP_append, h, hmore]

theorem countsCalls_concat {logs : List CompileLog} (h : ∀ log ∈ logs, log.CountsCalls world) :
    (concat logs).CountsCalls world := by
  unfold CountsCalls concat
  dsimp only
  rw [List.countP_flatMap, List.countP_flatMap]
  exact congrArg List.sum (List.map_congr_left h)

end CompileLog

section Calls

variable (env : StyleEnv) (c : Component)

/-- A preprocessed file is remembered exactly if the preprocessor was called and did not refuse. -/
theorem countsCalls_ofFile (kind : StyleKind) (order : Nat) (p : FilePath) :
    ((StyleTask.ofFile kind order p).run env c).2.CountsCalls env.world := by
  cases hreuse : env.reusable? c kind p with
  | some cached =>
    rw [run_of_reusable order hreuse]
    rfl
  | none =>
    cases kind with
    | css =>
      cases hout : env.outcome .css p with
      | ok text => rw [run_of_ok order hreuse hout]; rfl
      | error d => rw [run_of_error order hreuse hout]; rfl
    | preprocessed =>
      have houtcome : env.outcome .preprocessed p =
          (env.world.preprocess p env.config.minifyStyles).mapError Diagnostic.ofError := rfl
      have haccepts : env.world.accepts ⟨p, env.config.minifyStyles⟩ =
          (env.world.preprocess p env.config.minifyStyles).isOk := rfl
      cases hworld : env.world.preprocess p env.config.minifyStyles with
      | ok text =>
        rw [hworld] at houtcome haccepts
        rw [run_of_ok order hreuse houtcome]
        simp [CompileLog.CountsCalls, StyleTask.callsFor, haccepts, Except.isOk, Except.toBool]
      | error e =>
        rw [hworld] at houtcome haccepts
        rw [run_of_error order hreuse houtcome]
        simp [CompileLog.CountsCalls, StyleTask.callsFor, haccepts, Except.isOk, Except.toBool]

theorem countsCalls_run (task : StyleTask) : (task.run env c).2.CountsCalls env.world := by
  cases task with
  | preprocess order p => exact countsCalls_ofFile env c .preprocessed order p
  | css order p => exact countsCalls_ofFile env c .css order p
  | inlineText order text => rfl

theorem countsCalls_compileMode (mode : String) :
    (compileMode env c mode).2.CountsCalls env.world := by
  have htasks : ∀ log ∈ ((c.plan mode).map (StyleTask.run env c)).map (·.2),
      log.CountsCalls env.world := by
    simp only [List.forall_mem_map]
    exact fun task _ => countsCalls_run env c task
  -- refusals before the tasks and reports of the minifier after them call nothing
  exact CompileLog.CountsCalls.append
    (CompileLog.CountsCalls.append rfl (CompileLog.countsCalls_concat htasks)) rfl

theorem countsCalls_compileMembers (components : List Component) :
    (compileMembers env components).2.CountsCalls env.world := by
  refine CompileLog.countsCalls_concat ?_
  simp only [List.forall_mem_map]
  intro c _
  refine CompileLog.countsCalls_concat ?_
  simp only [List.forall_mem_map]
  exact fun mode _ => countsCalls_compileMode env c mode

end Calls

section Bundles

variable (config : Config) (world : StyleWorld) (change : Option ChangeSet)

/-- Each successful call of the preprocessor is one update of the cache. -/
theorem countsCalls_compileBundles (cache : StyleCache) (bundles : List ManifestBundle) :
    (compileBundles config world change cache bundles).2.1.CountsCalls world := by
  induction bundles generalizing cache with
  | nil => rfl
  | cons b bundles ih =>
    exact (countsCalls_compileMembers ⟨config, cache, change, world⟩ b.components).append (ih _)

theorem cache_compileBundles (cache : StyleCache) (bundles : List ManifestBundle) :
    (compileBundles config world change cache bundles).2.2 =
      cache.apply (compileBundles config world change cache bundles).2.1.updates := by
  induction bundles generalizing cache with
  | nil => rfl
  | cons b bundles ih => exact (ih _).trans (StyleCache.apply_append _ _ _).symm

end Bundles

/-! ## Bundles without members -/

def emptyBundleWarning : Diagnostic :=
  .warning Diagnostic.emptyBundle "bundle has no components and was skipped"

section Warnings

variable {env : StyleEnv} {c : Component} {d : Diagnostic}

theorem code_run {task : StyleTask} (hd : d ∈ (task.run env c).2.diagnostics) :
    d.code ∈ Diagnostic.errorCodes := by
  have hfile : ∀ kind order p, d ∈ ((StyleTask.ofFile kind order p).run env c).2.diagnostics →
      d.code ∈ Diagnostic.errorCodes := by
    intro kind order p hd
    rw [run_ofFile] at hd
    split at hd
    · cases hd
    · split at hd
      · cases hd
      · rename_i hout
        obtain rfl := List.mem_singleton.1 hd
        exact code_outcome hout
  cases task with
  | preprocess order p => exact hfile .preprocessed order p hd
  | css order p => exact hfile .css order p hd
  | inlineText order text => cases hd

theorem code_compileMembers {components : List Component}
    (hd : d ∈ (compileMembers env components).2.diagnostics) :
    d.code ≠ Diagnostic.emptyBundle := by
  rw [diagnostics_compileMembers] at hd
  obtain ⟨c, -, hd⟩ := List.mem_flatMap.1 hd
  obtain ⟨mode, -, hd⟩ := List.mem_flatMap.1 hd
  rw [diagnostics_compileMode] at hd
  have herror : d.code ∈ Diagnostic.errorCodes → d.code ≠ Diagnostic.emptyBundle :=
    fun hcode => ne_of_mem_of_not_mem hcode (by decide)
  rcases List.mem_append.1 hd with hd | hminify
  · rcases List.mem_append.1 hd with hrefused | htask
    · obtain ⟨p, -, rfl⟩ := List.mem_map.1 hrefused
      exact herror (codeOf_mem_errorCodes (.unsupportedStyle p c.tag))
    · obtain ⟨task, -, hd⟩ := List.mem_flatMap.1 htask
      exact herror (code_run hd)
  · rw [code_minify d hminify]
    decide

theorem code_compileBundles {config : Config} {world : StyleWorld} {change : Option ChangeSet}
    {cache : StyleCache} {bundles : List ManifestBundle}
    (hd : d ∈ (compileBundles config world change cache bundles).2.1.diagnostics) :
    d.code ≠ Diagnostic.emptyBundle := by
  induction bundles generalizing cache with
  | nil => cases hd
  | cons b bundles ih =>
    rcases List.mem_append.1 hd with hd | hd
    · exact code_compileMembers hd
    · exact ih hd

theorem code_moduleTextFor {config : Config} {minifiers : Minifiers} {text : String}
    (hd : d ∈ (moduleTextFor config minifiers text).2) : d.code = Diagnostic.scriptMinify := by
  unfold moduleTextFor at hd
  split at hd
  · exact (minifiers.script text).code_minified d hd
  · cases hd

theorem warnings_assembleBundle (config : Config) (minifiers : Minifiers) (b : ManifestBundle) :
    (assembleBundle config minifiers b []).2.filter (·.code = Diagnostic.emptyBundle) =
      if b.hasMembers then [] else [emptyBundleWarning] := by
  unfold assembleBundle ManifestBundle.hasMembers ManifestBundle.firstTag?
  cases b.components with
  | nil => rfl
  | cons c rest =>
    refine List.filter_eq_nil_iff.2 fun d hd => ?_
    rw [code_moduleTextFor hd]
    decide

/-- One warning for each bundle without members, whatever else a build meets. -/
theorem warnings_generateBundles (config : Config) (world : StyleWorld) (ctx : BuildContext)
    (bundles : List ManifestBundle) :
    (generateBundles config world ctx bundles).results.diagnostics.filter
        (·.code = Diagnostic.emptyBundle) =
      List.replicate (bundles.countP (!·.hasMembers)) emptyBundleWarning := by
  have hcompiled : (compileBundles config world ctx.change ctx.styleCache
      bundles).2.1.diagnostics.filter (·.code = Diagnostic.emptyBundle) = [] :=
    List.filter_eq_nil_iff.2 fun d hd => by simp [code_compileBundles hd]
  rw [diagnostics_generateBundles, List.filter_append, hcompiled, List.nil_append]
  clear hcompiled
  induction bundles with
  | nil => rfl
  | cons b bundles ih =>
    rw [List.flatMap_cons, List.filter_append, ih, warnings_assembleBundle, List.countP_cons]
    cases b.hasMembers with
    | true => rfl
    | false => rfl

end Warnings

/-! ## Files in their turn -/

/-- The text in the place of a path after files were written: that of the last of them that has the
place, or else the one that was there before. -/
def EmitCache.textAfter? (config : Config) (cache : EmitCache) (files : List Artifact)
    (p : FilePath) : Option String :=
  (SortedMap.lastValue? (files.map fun a => (wwwPath config a.fileName, a.content)) p).or
    (cache.contents.get? p)

/-- Whether each of some files is in its place already when its turn comes, after earlier files. -/
def EmitCache.HoldsInTurn (config : Config) (cache : EmitCache) (earlier files : List Artifact) :
    Prop :=
  ∀ before a after, files = before ++ a :: after →
    cache.textAfter? config (earlier ++ before) (wwwPath config a.fileName) = some a.content

section Turns

variable {config : Config} {s : Emission} {cache : EmitCache}

theorem holdsInTurn_nil (earlier : List Artifact) : cache.HoldsInTurn config earlier [] := by
  intro before a after h
  simp at h

theorem holdsInTurn_cons {earlier files : List Artifact} {a : Artifact} :
    cache.HoldsInTurn config earlier (a :: files) ↔
      cache.textAfter? config earlier (wwwPath config a.fileName) = some a.content ∧
        cache.HoldsInTurn config (earlier ++ [a]) files := by
  constructor
  · intro h
    refine ⟨?_, fun before a' after hfiles => ?_⟩
    · have hfirst := h [] a files rfl
      rwa [List.append_nil] at hfirst
    · have hlater := h (a :: before) a' after (by rw [hfiles, List.cons_append])
      rwa [List.append_assoc]
  · rintro ⟨hfirst, hlater⟩ before a' after hfiles
    rcases List.cons_eq_append_iff.1 hfiles with ⟨rfl, hone⟩ | ⟨before, rfl, hmore⟩
    · obtain ⟨rfl, -⟩ := List.cons.inj hone
      rwa [List.append_nil]
    · have hrest := hlater before a' after hmore
      rwa [List.append_assoc] at hrest

variable (config s) in
theorem outcome_write_iff (earlier : List Artifact) (a : Artifact) :
    ((s.writeAll config earlier).write config a).1 = .unchanged ↔
      s.cache.textAfter? config earlier (wwwPath config a.fileName) = some a.content := by
  have htext : (s.writeAll config earlier).cache.contents.get? (wwwPath config a.fileName) =
      s.cache.textAfter? config earlier (wwwPath config a.fileName) :=
    Emission.get?_cache_writeAll config s earlier _
  rw [← htext]
  by_cases h : (s.writeAll config earlier).cache.Holds config a
  · rw [Emission.write_unchanged h]
    exact iff_of_true rfl h
  · rw [Emission.write_written h]
    exact iff_of_false nofun h

theorem either_eq_unchanged_iff {o o' : WriteOutcome} :
    o.either o' = .unchanged ↔ o = .unchanged ∧ o' = .unchanged := by
  cases o <;> cases o' <;> simp [WriteOutcome.either]

/-- A variant is unchanged exactly if each of its files is in its place in its turn. -/
theorem outcome_emitVariant_iff (earlier : List Artifact) (v : AssembledVariant) :
    (emitVariant config (s.writeAll config earlier) v).1.outcome = .unchanged ↔
      s.cache.HoldsInTurn config earlier v.artifacts := by
  have hplain := outcome_write_iff config s earlier v.plain
  have hnext : ((s.writeAll config earlier).write config v.plain).2 =
      s.writeAll config (earlier ++ [v.plain]) :=
    (Emission.writeAll_append config s earlier [v.plain]).symm
  unfold emitVariant AssembledVariant.artifacts
  rw [holdsInTurn_cons, ← hplain]
  cases v.withScoped with
  | none => exact (and_iff_left (holdsInTurn_nil _)).symm
  | some a =>
    have hscoped := outcome_write_iff config s (earlier ++ [v.plain]) a
    dsimp only
    rw [either_eq_unchanged_iff, Option.toList_some, holdsInTurn_cons, ← hscoped, hnext]
    exact and_congr_right fun _ => (and_iff_left (holdsInTurn_nil _)).symm

theorem emitVariants_append (s : Emission) (vs ws : List AssembledVariant) :
    (emitVariants config s (vs ++ ws)).1 = (emitVariants config s vs).1 ++
      (emitVariants config (s.writeAll config (vs.flatMap AssembledVariant.artifacts)) ws).1 := by
  induction vs generalizing s with
  | nil => rfl
  | cons v vs ih =>
    rw [List.flatMap_cons, Emission.writeAll_append, ← emitVariant_emission]
    exact congrArg (_ :: ·) (ih _)

theorem variants_emitBundles (s : Emission) (bs : List AssembledBundle) :
    (emitBundles config s bs).1.flatMap (·.variants) =
      (emitVariants config s (bs.flatMap (·.variants))).1 := by
  induction bs generalizing s with
  | nil => rfl
  | cons b bs ih =>
    rw [List.flatMap_cons, emitVariants_append, ← emitVariants_emission]
    exact congrArg (_ ++ ·) (ih _)

theorem length_emitVariants (s : Emission) (vs : List AssembledVariant) :
    (emitVariants config s vs).1.length = vs.length := by
  have h := congrArg List.length (emitVariants_announced config s vs)
  rwa [List.length_map, List.length_map] at h

theorem emitVariants_inTurn (s : Emission) (before : List AssembledVariant)
    (v : AssembledVariant) (after : List AssembledVariant) :
    ∃ emitted e more, (emitVariants config s (before ++ v :: after)).1 = emitted ++ e :: more ∧
      emitted.length = before.length ∧ e.announced = v.announced ∧
      (e.outcome = .unchanged ↔ s.cache.HoldsInTurn config
        (before.flatMap AssembledVariant.artifacts) v.artifacts) :=
  ⟨_, _, _, emitVariants_append s before (v :: after), length_emitVariants s before, rfl,
    outcome_emitVariant_iff _ v⟩

end Turns

/-! ## Queues -/

/-- Whether the queue of a tree holds no more files than were written, and some if the tree is
written and there are any. -/
structure Emission.Queued (config : Config) (t : OutputTree) (s : Emission) : Prop where
  atMost : (t.of s.files).size ≤ s.written
  some : t.enabled config = true → 0 < s.written → 0 < (t.of s.files).size

section Queues

variable {config : Config} {t : OutputTree} {s : Emission}

theorem Emission.Queued.write (h : s.Queued config t) (a : Artifact) :
    (s.write config a).2.Queued config t := by
  by_cases hholds : s.cache.Holds config a
  · rw [write_unchanged hholds]
    exact ⟨h.atMost, h.some⟩
  · rw [write_written hholds]
    constructor
    case atMost =>
      dsimp only
      rw [of_queue]
      split
      · exact (SortedMap.size_insert_le _ _ _).trans (Nat.succ_le_succ h.atMost)
      · exact h.atMost.trans (Nat.le_succ _)
    case some =>
      intro henabled _
      dsimp only
      rw [of_queue, if_pos henabled]
      exact SortedMap.size_insert_pos _ _ _

theorem queued_writeAll (h : s.Queued config t) (files : List Artifact) :
    (s.writeAll config files).Queued config t := by
  induction files generalizing s with
  | nil => exact h
  | cons a files ih => exact ih (h.write a)

end Queues

/-! ## Builds -/

/-- All variants that a build assembles, one bundle after another. -/
def assembledVariantsOf (config : Config) (world : StyleWorld) (ctx : BuildContext)
    (bundles : List ManifestBundle) : List AssembledVariant :=
  (assembleBundles config world.minifiers
    (compileBundles config world ctx.change ctx.styleCache bundles).1).1.flatMap (·.variants)

/-- All variants that a build emitted, one bundle after another. -/
def BuildResults.variants (r : BuildResults) : List EmittedVariant := r.bundles.flatMap (·.variants)

/-- Whether the outcome of a build accounts for everything that it was given and did. -/
structure BuildOutcome.AccountsFor (outcome : BuildOutcome) (config : Config) (world : StyleWorld)
    (ctx : BuildContext) (bundles : List ManifestBundle) : Prop where
  emitted : List.Forall₂ EmittedBundle.IsOf
    (bundles.filter ManifestBundle.hasMembers) outcome.results.bundles
  warnings : outcome.results.diagnostics.filter (·.code = Diagnostic.emptyBundle) =
    List.replicate (bundles.countP (!·.hasMembers)) emptyBundleWarning
  counted : outcome.results.stats.filesWritten + outcome.results.stats.filesUnchanged =
    (outcome.results.variants.map fun v => 1 + v.hasScoped.toNat).sum
  announced : outcome.results.variants.map EmittedVariant.announced =
    (assembledVariantsOf config world ctx bundles).map AssembledVariant.announced
  /-- A variant is unchanged exactly if each of its files was in its place in its turn. -/
  outcomes : ∀ before v after, assembledVariantsOf config world ctx bundles = before ++ v :: after →
    ∃ emitted e more, outcome.results.variants = emitted ++ e :: more ∧
      emitted.length = before.length ∧ e.announced = v.announced ∧
      (e.outcome = .unchanged ↔ ctx.emitCache.HoldsInTurn config
        (before.flatMap AssembledVariant.artifacts) v.artifacts)
  queued : ∀ t : OutputTree, (t.of outcome.results.files).size ≤ outcome.results.stats.filesWritten
  nothingQueued : (config.writesWww = true ∨ config.writesDist = true) →
    (outcome.results.files.isEmpty = true ↔ outcome.results.stats.filesWritten = 0)
  preprocessed : outcome.results.stats.preprocessCount = outcome.calls.countP world.accepts
  /-- The count of the style cache never falls, so the difference is the number of new calls. -/
  counting : outcome.context.styleCache.preprocessCount =
    ctx.styleCache.preprocessCount + outcome.results.stats.preprocessCount

section Builds

variable (config : Config) (world : StyleWorld) (ctx : BuildContext) (bundles : List ManifestBundle)

theorem variants_generateBundles :
    (generateBundles config world ctx bundles).results.variants =
      (emitVariants config { cache := ctx.emitCache }
        (assembledVariantsOf config world ctx bundles)).1 :=
  variants_emitBundles _ _

theorem announced_variants :
    (generateBundles config world ctx bundles).results.variants.map EmittedVariant.announced =
      (assembledVariantsOf config world ctx bundles).map AssembledVariant.announced := by
  rw [variants_generateBundles]
  exact emitVariants_announced ..

theorem AssembledVariant.length_artifacts (v : AssembledVariant) :
    v.artifacts.length = 1 + v.announced.2.2.toNat := by
  unfold artifacts announced
  cases v.withScoped <;> rfl

theorem counted_generateBundles :
    (generateBundles config world ctx bundles).results.stats.filesWritten +
        (generateBundles config world ctx bundles).results.stats.filesUnchanged =
      ((generateBundles config world ctx bundles).results.variants.map
        fun v => 1 + v.hasScoped.toNat).sum := by
  have hfiles : assembledFiles config world ctx bundles =
      (assembledVariantsOf config world ctx bundles).flatMap AssembledVariant.artifacts :=
    List.flatMap_assoc.symm
  have hannounced := congrArg (List.map fun a : Option String × String × Bool => 1 + a.2.2.toNat)
    (announced_variants config world ctx bundles)
  rw [List.map_map, List.map_map] at hannounced
  rw [filesWritten_generateBundles, filesUnchanged_generateBundles, emissionAfter,
    written_add_unchanged, hfiles, List.length_flatMap]
  simp only [AssembledVariant.length_artifacts, Nat.zero_add]
  exact congrArg List.sum hannounced.symm

theorem queued_generateBundles (t : OutputTree) :
    (emissionAfter config world ctx bundles).Queued config t := by
  refine queued_writeAll ⟨?_, fun _ hpos => absurd hpos (Nat.lt_irrefl 0)⟩ _
  show (t.of ∅).size ≤ 0
  rw [t.of_empty]
  rfl

theorem isEmpty_files_iff (h : config.writesWww = true ∨ config.writesDist = true) :
    (generateBundles config world ctx bundles).results.files.isEmpty = true ↔
      (generateBundles config world ctx bundles).results.stats.filesWritten = 0 := by
  have hempty : ∀ files : OutputFiles,
      files.isEmpty = true ↔ files.www.size = 0 ∧ files.dist.size = 0 := by
    intro files
    simp [OutputFiles.isEmpty, SortedMap.isEmpty, SortedMap.size]
  have hwww := queued_generateBundles config world ctx bundles .www
  have hdist := queued_generateBundles config world ctx bundles .dist
  rw [hempty, files_generateBundles, filesWritten_generateBundles]
  constructor
  · rintro ⟨hw, hd⟩
    by_contra hne
    rcases h with henabled | henabled
    · exact absurd hw (hwww.some henabled (Nat.pos_of_ne_zero hne)).ne'
    · exact absurd hd (hdist.some henabled (Nat.pos_of_ne_zero hne)).ne'
  · intro hzero
    exact ⟨Nat.le_zero.1 (hzero ▸ hwww.atMost), Nat.le_zero.1 (hzero ▸ hdist.atMost)⟩

theorem preprocessCount_generateBundles :
    (generateBundles config world ctx bundles).context.styleCache.preprocessCount =
      ctx.styleCache.preprocessCount +
        (generateBundles config world ctx bundles).calls.countP world.accepts := by
  have hcalls := countsCalls_compileBundles config world ctx.change ctx.styleCache bundles
  have hcache := cache_compileBundles config world ctx.change ctx.styleCache bundles
  show (compileBundles config world ctx.change ctx.styleCache bundles).2.2.preprocessCount = _
  rw [hcache, StyleCache.preprocessCount_apply, hcalls]
  rfl

end Builds

/-- **The summary accounts for everything**, in any context, with any change set and whatever
fails. -/
theorem summary_accounts_for_build (config : Config) (world : StyleWorld) (ctx : BuildContext)
    (bundles : List ManifestBundle) :
    (generateBundles config world ctx bundles).AccountsFor config world ctx bundles := by
  have hcount := preprocessCount_generateBundles config world ctx bundles
  have hdifference : (generateBundles config world ctx bundles).results.stats.preprocessCount =
      (generateBundles config world ctx bundles).context.styleCache.preprocessCount -
        ctx.styleCache.preprocessCount := rfl
  exact {
    emitted := emitted_isOf config world ctx bundles
    warnings := warnings_generateBundles config world ctx bundles
    counted := counted_generateBundles config world ctx bundles
    announced := announced_variants config world ctx bundles
    outcomes := by
      intro before v after hsplit
      rw [variants_generateBundles, hsplit]
      exact emitVariants_inTurn _ before v after
    queued := by
      intro t
      rw [files_generateBundles, filesWritten_generateBundles]
      exact (queued_generateBundles config world ctx bundles t).atMost
    nothingQueued := isEmpty_files_iff config world ctx bundles
    preprocessed := by omega
    counting := by omega }

end ComponentBundle
