import ComponentBundle.Proofs.Style.Source
import Mathlib.Data.List.Basic

/-!
# What compiling leaves, and what a change build may hide

A change build takes texts from the cache, a full one takes none. The two give the same as long as
every remembered text that is taken is the one that compiling anew would give.

* `mem_updates_compileMembers` : the updates are the texts compiled anew;
* `compileMembers_congr` : same styles and same reports of every task give the same of all;
* `Fewer` : a failure that a remembered text hides makes the reports fewer.
-/

namespace ComponentBundle

/-! ## Logs of several tasks -/

def Component.plan (c : Component) (mode : String) : List StyleTask :=
  ((c.styles.get? mode).getD {}).plan

/-- Whether a component lists a file of some kind in one of its modes. -/
def Component.Lists (c : Component) (kind : StyleKind) (p : FilePath) : Prop :=
  StyleKind.ofPath? p = some kind ∧
    ∃ mode sources, c.styles.get? mode = some sources ∧ p ∈ sources.paths

/-- The diagnostics of the listed files that cannot be compiled. -/
def Component.refusals (c : Component) (mode : String) : List Diagnostic :=
  ((c.styles.get? mode).getD {}).unsupported.map fun p => .ofError (.unsupportedStyle p c.tag)

section Logs

variable (env : StyleEnv) (c : Component) (mode : String)

def joinedStyles : ModeStyles :=
  .ofSources c.tag mode ((c.plan mode).map fun task => (task.run env c).1)

theorem styles_compileMode :
    (compileMode env c mode).1 =
      (minifyIfConfigured env.config env.world.minifiers (joinedStyles env c mode)).1 := by
  unfold joinedStyles Component.plan
  rw [← Function.comp_def, ← List.map_map]
  rfl

theorem updates_compileMode :
    (compileMode env c mode).2.updates =
      (c.plan mode).flatMap fun task => (task.run env c).2.updates := by
  show [] ++ ((c.plan mode).map (StyleTask.run env c) |>.map (·.2)).flatMap (·.updates) ++ [] = _
  rw [List.append_nil, List.nil_append, List.map_map, List.flatMap_map]
  rfl

theorem diagnostics_compileMode :
    (compileMode env c mode).2.diagnostics =
      c.refusals mode ++ ((c.plan mode).flatMap fun task => (task.run env c).2.diagnostics) ++
        (minifyIfConfigured env.config env.world.minifiers (joinedStyles env c mode)).2 := by
  have h : (compileMode env c mode).2.diagnostics =
      c.refusals mode ++
        (((c.plan mode).map (StyleTask.run env c)).map (·.2)).flatMap (·.diagnostics) ++
        (minifyIfConfigured env.config env.world.minifiers (.ofSources c.tag mode
          (((c.plan mode).map (StyleTask.run env c)).map (·.1)))).2 := rfl
  rw [h, List.map_map, List.map_map, List.flatMap_map]
  rfl

theorem log_compileMembers {α : Type} (part : CompileLog → List α)
    (hconcat : ∀ logs, part (.concat logs) = logs.flatMap part) (components : List Component) :
    part (compileMembers env components).2 =
      components.flatMap fun c => c.styles.keys.flatMap fun mode =>
        part (compileMode env c mode).2 := by
  show part (.concat ((components.map (compileComponent env)).map (·.2))) = _
  rw [hconcat, List.map_map, List.flatMap_map]
  refine congrArg (components.flatMap ·) (funext fun c => ?_)
  show part (.concat ((c.styles.keys.map (compileMode env c)).map (·.2))) = _
  rw [hconcat, List.map_map, List.flatMap_map]
  rfl

theorem updates_compileMembers (components : List Component) :
    (compileMembers env components).2.updates =
      components.flatMap fun c => c.styles.keys.flatMap fun mode =>
        (compileMode env c mode).2.updates :=
  log_compileMembers env CompileLog.updates (fun _ => rfl) components

theorem diagnostics_compileMembers (components : List Component) :
    (compileMembers env components).2.diagnostics =
      components.flatMap fun c => c.styles.keys.flatMap fun mode =>
        (compileMode env c mode).2.diagnostics :=
  log_compileMembers env CompileLog.diagnostics (fun _ => rfl) components

theorem styles_compileMembers (components : List Component) :
    (compileMembers env components).1 =
      components.flatMap fun c => c.styles.keys.map fun mode => (compileMode env c mode).1 := by
  show (components.map (compileComponent env)).flatMap (·.1) = _
  rw [List.flatMap_map]
  refine congrArg (components.flatMap ·) (funext fun c => ?_)
  show (c.styles.keys.map (compileMode env c)).map (·.1) = _
  rw [List.map_map]
  rfl

end Logs

theorem Component.Lists.exists_task {c : Component} {kind : StyleKind} {p : FilePath}
    (h : c.Lists kind p) :
    ∃ mode ∈ c.styles.keys, ∃ order, StyleTask.ofFile kind order p ∈ c.plan mode := by
  obtain ⟨hkind, mode, sources, hget, hp⟩ := h
  obtain ⟨order, hmem⟩ := StyleSources.exists_mem_plan hp hkind
  refine ⟨mode, SortedMap.mem_keys.2 (by rw [hget]; rfl), order, ?_⟩
  rw [Component.plan, hget]
  exact hmem

theorem Component.mem_plan {c : Component} {mode : String} {task : StyleTask}
    (h : task ∈ c.plan mode) :
    (∃ kind order p, c.Lists kind p ∧ task = .ofFile kind order p) ∨
      ∃ order text, task = .inlineText order text := by
  unfold Component.plan at h
  cases hget : c.styles.get? mode with
  | none =>
    rw [hget] at h
    simp [StyleSources.plan] at h
  | some sources =>
    rw [hget, Option.getD_some] at h
    rcases StyleSources.mem_plan h with ⟨kind, order, p, hp, hkind, rfl⟩ | htext
    · exact .inl ⟨kind, order, p, ⟨hkind, mode, sources, hget, hp⟩, rfl⟩
    · exact .inr htext

/-! ## Updates -/

theorem mem_updates_run {env : StyleEnv} {c : Component} {kind : StyleKind} {order : Nat}
    {p : FilePath} {u : CacheUpdate} :
    u ∈ ((StyleTask.ofFile kind order p).run env c).2.updates ↔
      env.reusable? c kind p = none ∧
        ∃ text, env.outcome kind p = .ok text ∧ u = ⟨kind, p, remembered text⟩ := by
  cases hreuse : env.reusable? c kind p with
  | some cached =>
    rw [run_of_reusable order hreuse]
    constructor
    · intro h
      cases h
    · rintro ⟨h, -⟩
      cases h
  | none =>
    cases hout : env.outcome kind p with
    | ok text =>
      rw [run_of_ok order hreuse hout, List.mem_singleton]
      simp
    | error d =>
      rw [run_of_error order hreuse hout]
      simp

theorem mem_updates_compileMembers {env : StyleEnv} {components : List Component}
    {u : CacheUpdate} :
    u ∈ (compileMembers env components).2.updates ↔
      ∃ c ∈ components, c.Lists u.kind u.path ∧ env.reusable? c u.kind u.path = none ∧
        ∃ text, env.outcome u.kind u.path = .ok text ∧ u.style = remembered text := by
  rw [updates_compileMembers]
  simp only [List.mem_flatMap, updates_compileMode]
  constructor
  · rintro ⟨c, hc, mode, -, task, htask, hu⟩
    rcases Component.mem_plan htask with ⟨kind, order, p, hlists, rfl⟩ | ⟨order, text, rfl⟩
    · obtain ⟨hreuse, text, hout, rfl⟩ := mem_updates_run.1 hu
      exact ⟨c, hc, hlists, hreuse, text, hout, rfl⟩
    · cases hu
  · rintro ⟨c, hc, hlists, hreuse, text, hout, hstyle⟩
    obtain ⟨mode, hmode, order, htask⟩ := hlists.exists_task
    refine ⟨c, hc, mode, hmode, _, htask, mem_updates_run.2 ⟨hreuse, text, hout, ?_⟩⟩
    rw [← hstyle]

/-! ## Builds that report the same -/

/-- Whether a task gives the same style and reports the same in two builds. -/
def SameRun (env env' : StyleEnv) (c : Component) (task : StyleTask) : Prop :=
  (task.run env c).1 = (task.run env' c).1 ∧
    (task.run env c).2.diagnostics = (task.run env' c).2.diagnostics

theorem compileMode_congr {env env' : StyleEnv} (hconfig : env.config = env'.config)
    (hworld : env.world = env'.world) {c : Component} {mode : String}
    (h : ∀ task ∈ c.plan mode, SameRun env env' c task) :
    (compileMode env c mode).1 = (compileMode env' c mode).1 ∧
      (compileMode env c mode).2.diagnostics = (compileMode env' c mode).2.diagnostics := by
  have hstyles : joinedStyles env c mode = joinedStyles env' c mode :=
    congrArg (ModeStyles.ofSources c.tag mode) (List.map_congr_left fun task ht => (h task ht).1)
  have hdiagnostics : ((c.plan mode).flatMap fun task => (task.run env c).2.diagnostics) =
      (c.plan mode).flatMap fun task => (task.run env' c).2.diagnostics :=
    List.flatMap_congr fun task ht => (h task ht).2
  rw [styles_compileMode, styles_compileMode, diagnostics_compileMode, diagnostics_compileMode,
    hconfig, hworld, hstyles, hdiagnostics]
  exact ⟨rfl, rfl⟩

theorem compileMembers_congr {env env' : StyleEnv} (hconfig : env.config = env'.config)
    (hworld : env.world = env'.world) {components : List Component}
    (h : ∀ c ∈ components, ∀ mode, ∀ task ∈ c.plan mode, SameRun env env' c task) :
    (compileMembers env components).1 = (compileMembers env' components).1 ∧
      (compileMembers env components).2.diagnostics =
        (compileMembers env' components).2.diagnostics := by
  rw [styles_compileMembers, styles_compileMembers, diagnostics_compileMembers,
    diagnostics_compileMembers]
  constructor
  · refine List.flatMap_congr fun c hc => List.map_congr_left fun mode _ => ?_
    exact (compileMode_congr hconfig hworld (h c hc mode)).1
  · refine List.flatMap_congr fun c hc => List.flatMap_congr fun mode _ => ?_
    exact (compileMode_congr hconfig hworld (h c hc mode)).2

/-! ## Change builds and full builds -/

/-- Whether a build is the full build in the surroundings of another one. -/
structure StyleEnv.IsFullOf (full env : StyleEnv) : Prop where
  config : full.config = env.config
  world : full.world = env.world
  change : full.change = none

/-- Whether a text that a build takes from the cache is the one that compiling anew gives. -/
def StyleEnv.Faithful (env : StyleEnv) (c : Component) (kind : StyleKind) (p : FilePath) : Prop :=
  ∀ text cached, env.outcome kind p = .ok text → env.reusable? c kind p = some cached →
    cached = remembered text

/-- Whether a build takes a text from the cache for a file that cannot be compiled any more. -/
def StyleEnv.Hides (env : StyleEnv) (c : Component) (kind : StyleKind) (p : FilePath) : Prop :=
  (∃ d, env.outcome kind p = .error d) ∧ ∃ cached, env.reusable? c kind p = some cached

section Full

variable {full env : StyleEnv} {c : Component}

theorem StyleEnv.IsFullOf.reusable? (h : full.IsFullOf env) (kind : StyleKind) (p : FilePath) :
    full.reusable? c kind p = none := by
  rw [StyleEnv.reusable?, h.change, StyleCache.reusable?_none]

theorem StyleEnv.IsFullOf.outcome (h : full.IsFullOf env) (kind : StyleKind) (p : FilePath) :
    full.outcome kind p = env.outcome kind p := by
  rw [StyleEnv.outcome, StyleEnv.outcome, h.config, h.world]

theorem sameRun_ofFile (h : full.IsFullOf env) {kind : StyleKind} {p : FilePath}
    (hfaithful : env.Faithful c kind p) (hhides : ¬ env.Hides c kind p) (order : Nat) :
    SameRun env full c (.ofFile kind order p) := by
  unfold SameRun
  cases hout : env.outcome kind p with
  | ok text =>
    rw [run_of_ok order (h.reusable? kind p) ((h.outcome kind p).trans hout)]
    cases hreuse : env.reusable? c kind p with
    | none =>
      rw [run_of_ok order hreuse hout]
      exact ⟨rfl, rfl⟩
    | some cached =>
      obtain rfl := hfaithful text cached hout hreuse
      rw [run_of_reusable order hreuse]
      exact ⟨ofCached_remembered c order text, rfl⟩
  | error d =>
    rw [run_of_error order (h.reusable? kind p) ((h.outcome kind p).trans hout)]
    cases hreuse : env.reusable? c kind p with
    | none =>
      rw [run_of_error order hreuse hout]
      exact ⟨rfl, rfl⟩
    | some cached => exact absurd ⟨⟨d, hout⟩, cached, hreuse⟩ hhides

theorem compileMembers_full (h : full.IsFullOf env) (components : List Component)
    (hfaithful : ∀ c ∈ components, ∀ kind p, c.Lists kind p → env.Faithful c kind p)
    (hhides : ∀ c ∈ components, ∀ kind p, c.Lists kind p → ¬ env.Hides c kind p) :
    (compileMembers env components).1 = (compileMembers full components).1 ∧
      (compileMembers env components).2.diagnostics =
        (compileMembers full components).2.diagnostics := by
  refine compileMembers_congr h.config.symm h.world.symm fun c hc mode task htask => ?_
  rcases Component.mem_plan htask with ⟨kind, order, p, hlists, rfl⟩ | ⟨order, text, rfl⟩
  · exact sameRun_ofFile h (hfaithful c hc kind p hlists) (hhides c hc kind p hlists) order
  · exact ⟨rfl, rfl⟩

end Full

/-! ## Hidden failures -/

/-- Whether a list holds at most as many diagnostics as another one, apart from those of the style
minifier, and fewer of them under some condition. -/
structure Fewer (strict : Prop) (ds es : List Diagnostic) : Prop where
  le : ds.countP (·.code ≠ Diagnostic.styleMinify) ≤ es.countP (·.code ≠ Diagnostic.styleMinify)
  lt : strict →
    ds.countP (·.code ≠ Diagnostic.styleMinify) < es.countP (·.code ≠ Diagnostic.styleMinify)

namespace Fewer

variable {P Q : Prop} {ds es ds' es' : List Diagnostic}

theorem mono (h : Fewer P ds es) (hPQ : Q → P) : Fewer Q ds es := ⟨h.le, fun hQ => h.lt (hPQ hQ)⟩

theorem refl (ds : List Diagnostic) : Fewer False ds ds := ⟨Nat.le_refl _, False.elim⟩

theorem append (h : Fewer P ds es) (h' : Fewer Q ds' es') :
    Fewer (P ∨ Q) (ds ++ ds') (es ++ es') := by
  have hle := h.le
  have hle' := h'.le
  constructor
  · rw [List.countP_append, List.countP_append]
    omega
  · rw [List.countP_append, List.countP_append]
    rintro (hP | hQ)
    · have hlt := h.lt hP
      omega
    · have hlt := h'.lt hQ
      omega

theorem flatMap {α : Type} {S : α → Prop} {f g : α → List Diagnostic} {l : List α}
    (h : ∀ a ∈ l, Fewer (S a) (f a) (g a)) :
    Fewer (∃ a ∈ l, S a) (l.flatMap f) (l.flatMap g) := by
  induction l with
  | nil => exact (refl []).mono (by simp)
  | cons a l ih =>
    rw [List.flatMap_cons, List.flatMap_cons]
    have htail := ih fun b hb => h b (List.mem_cons_of_mem _ hb)
    refine ((h a List.mem_cons_self).append htail).mono ?_
    rintro ⟨b, hb, hS⟩
    rcases List.mem_cons.1 hb with rfl | hb
    · exact .inl hS
    · exact .inr ⟨b, hb, hS⟩

theorem not_perm (h : Fewer P ds es) (hP : P) : ¬ ds.Perm es := by
  intro hperm
  have hlt := h.lt hP
  rw [hperm.countP_eq] at hlt
  exact Nat.lt_irrefl _ hlt

end Fewer

theorem code_minify {styles : ModeStyles} {config : Config} {minifiers : Minifiers} :
    ∀ d ∈ (minifyIfConfigured config minifiers styles).2, d.code = Diagnostic.styleMinify := by
  unfold minifyIfConfigured ModeStyles.minify
  intro d hd
  split at hd
  · split at hd
    · cases hd
    · exact SheetOutcome.code_minified _ d hd
  · cases hd

/-- The codes of errors. -/
def Diagnostic.errorCodes : List String :=
  [unsupportedStyle, preprocessFailed, styleReadFailed, invalidInput]

theorem codeOf_mem_errorCodes (e : BundleError) :
    Diagnostic.codeOf e ∈ Diagnostic.errorCodes := by
  cases e <;> simp [Diagnostic.codeOf, Diagnostic.errorCodes]

theorem code_outcome {env : StyleEnv} {kind : StyleKind} {p : FilePath} {d : Diagnostic}
    (h : env.outcome kind p = .error d) : d.code ∈ Diagnostic.errorCodes := by
  rcases error_outcome h with ⟨e, rfl⟩ | ⟨e, rfl⟩
  · exact codeOf_mem_errorCodes e
  · exact (by decide : Diagnostic.styleReadFailed ∈ Diagnostic.errorCodes)

section Hidden

variable {full env : StyleEnv} {c : Component}

theorem fewer_ofFile (h : full.IsFullOf env) (kind : StyleKind) (order : Nat) (p : FilePath) :
    Fewer (env.Hides c kind p) ((StyleTask.ofFile kind order p).run env c).2.diagnostics
      ((StyleTask.ofFile kind order p).run full c).2.diagnostics := by
  cases hout : env.outcome kind p with
  | ok text =>
    have hempty : ((StyleTask.ofFile kind order p).run env c).2.diagnostics = [] := by
      cases hreuse : env.reusable? c kind p with
      | none => rw [run_of_ok order hreuse hout]
      | some cached =>
        rw [run_of_reusable order hreuse]
        rfl
    rw [hempty, run_of_ok order (h.reusable? kind p) ((h.outcome kind p).trans hout)]
    refine (Fewer.refl []).mono ?_
    rintro ⟨⟨d, herror⟩, -⟩
    rw [hout] at herror
    cases herror
  | error d =>
    rw [run_of_error order (h.reusable? kind p) ((h.outcome kind p).trans hout)]
    cases hreuse : env.reusable? c kind p with
    | none =>
      rw [run_of_error order hreuse hout]
      refine (Fewer.refl [d]).mono ?_
      rintro ⟨-, cached, hcached⟩
      rw [hreuse] at hcached
      cases hcached
    | some cached =>
      rw [run_of_reusable order hreuse]
      have hone : [d].countP (·.code ≠ Diagnostic.styleMinify) = 1 := by
        have hcode : d.code ≠ Diagnostic.styleMinify :=
          ne_of_mem_of_not_mem (code_outcome hout) (by decide)
        simp [hcode]
      exact ⟨Nat.zero_le _, fun _ => by rw [hone]; exact Nat.one_pos⟩

theorem fewer_compileMembers (h : full.IsFullOf env) (components : List Component) :
    Fewer (∃ c ∈ components, ∃ kind p, c.Lists kind p ∧ env.Hides c kind p)
      (compileMembers env components).2.diagnostics
      (compileMembers full components).2.diagnostics := by
  rw [diagnostics_compileMembers, diagnostics_compileMembers]
  refine (Fewer.flatMap fun c _ => Fewer.flatMap fun mode _ => ?_ :
    Fewer (∃ c ∈ components, ∃ mode ∈ c.styles.keys, ∃ task ∈ c.plan mode,
      ∃ kind order p, task = .ofFile kind order p ∧ env.Hides c kind p) _ _).mono ?_
  · rw [diagnostics_compileMode, diagnostics_compileMode]
    -- the two builds may minify different texts, so what the minifier reports is not counted
    have hminify : Fewer False
        (minifyIfConfigured env.config env.world.minifiers (joinedStyles env c mode)).2
        (minifyIfConfigured full.config full.world.minifiers (joinedStyles full c mode)).2 := by
      refine ⟨?_, False.elim⟩
      rw [List.countP_eq_zero.2]
      · exact Nat.zero_le _
      · exact fun d hd => by simp [code_minify d hd]
    refine (((Fewer.refl (c.refusals mode)).append (Fewer.flatMap fun task htask => ?_ :
      Fewer (∃ task ∈ c.plan mode, ∃ kind order p, task = .ofFile kind order p ∧
        env.Hides c kind p) _ _)).append hminify).mono (fun hS => .inl (.inr hS))
    rcases Component.mem_plan htask with ⟨kind, order, p, -, rfl⟩ | ⟨order, text, rfl⟩
    · refine (fewer_ofFile h kind order p).mono ?_
      rintro ⟨kind', order', p', heq, hhides⟩
      cases kind <;> cases kind' <;> cases heq <;> exact hhides
    · refine (Fewer.refl []).mono ?_
      rintro ⟨kind, order', p, heq, -⟩
      cases kind <;> cases heq
  · rintro ⟨c, hc, kind, p, hlists, hhides⟩
    obtain ⟨mode, hmode, order, htask⟩ := hlists.exists_task
    exact ⟨c, hc, mode, hmode, _, htask, kind, order, p, rfl, hhides⟩

end Hidden

end ComponentBundle
