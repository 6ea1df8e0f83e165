import ComponentBundle.Proofs.SortedMap
import ComponentBundle.Proofs.Text.Blank
import ComponentBundle.Style.Compile

/-!
# Style files of either kind

The two kinds of style files go through the same steps: a text is taken from the cache unless a
change bypasses it, or else compiled anew, which yields a text or a diagnostic.

* `run_ofFile` : what a task does, for both kinds at once;
* `slot?_apply` : a slot holds the last update of its kind and path;
* `run_of_reusable`, `run_of_ok`, `run_of_error` : a remembered text gives the style that the text
  itself gives, and nothing to report.
-/

namespace ComponentBundle

/-! ## Slots of the cache -/

/-- What the cache remembers of a file. -/
def StyleCache.slot? (cache : StyleCache) : StyleKind → FilePath → Option CachedStyle
  | .preprocessed, p => cache.preprocessed.get? p
  | .css, p => cache.css.get? p

/-- Whether a change bypasses what is remembered of a component's files of some kind. -/
def ChangeSet.bypasses (change : ChangeSet) (c : Component) : StyleKind → Bool
  | .preprocessed => change.hasPreprocessorChange || c.modulePath.any change.touchesModule
  | .css => change.hasCssChange

/-- What a build may take of a component's file from the cache. -/
def StyleCache.reusable? (cache : StyleCache) (change : Option ChangeSet) (c : Component) :
    StyleKind → FilePath → Option CachedStyle
  | .preprocessed, p => cache.reusablePreprocessed? change p c.modulePath
  | .css, p => cache.reusableCss? change p

section Slots

variable (cache : StyleCache) (c : Component) (kind : StyleKind) (p : FilePath)

theorem StyleCache.reusable?_none : cache.reusable? none c kind p = none := by
  cases kind <;> rfl

theorem StyleCache.reusable?_some (change : ChangeSet) :
    cache.reusable? (some change) c kind p =
      if change.bypasses c kind then none else cache.slot? kind p := by
  cases kind <;> rfl

theorem StyleCache.slot?_empty : (∅ : StyleCache).slot? kind p = none := by
  cases kind <;> rfl

theorem StyleCache.slot?_applyUpdate (u : CacheUpdate) :
    (cache.applyUpdate u).slot? kind p =
      if u.kind = kind ∧ compare p u.path = .eq then some u.style else cache.slot? kind p := by
  cases kind with
  | preprocessed => exact cache.get?_preprocessed_applyUpdate u p
  | css => exact cache.get?_css_applyUpdate u p

theorem StyleCache.slot?_apply (updates : List CacheUpdate) :
    (∃ u ∈ updates, u.kind = kind ∧ compare p u.path = .eq ∧
      (cache.apply updates).slot? kind p = some u.style) ∨
    (∀ u ∈ updates, ¬ (u.kind = kind ∧ compare p u.path = .eq)) ∧
      (cache.apply updates).slot? kind p = cache.slot? kind p := by
  induction updates generalizing cache with
  | nil => exact .inr ⟨by simp, rfl⟩
  | cons u us ih =>
    have happly : cache.apply (u :: us) = (cache.applyUpdate u).apply us := rfl
    rw [happly]
    rcases ih (cache.applyUpdate u) with ⟨v, hv, hkind, hpath, heq⟩ | ⟨hnone, heq⟩
    · exact .inl ⟨v, List.mem_cons_of_mem _ hv, hkind, hpath, heq⟩
    · rw [heq, slot?_applyUpdate]
      by_cases hu : u.kind = kind ∧ compare p u.path = .eq
      · exact .inl ⟨u, List.mem_cons_self, hu.1, hu.2, if_pos hu⟩
      · refine .inr ⟨fun v hv => ?_, if_neg hu⟩
        rcases List.mem_cons.1 hv with rfl | hv
        · exact hu
        · exact hnone v hv

end Slots

/-! ## Outcomes -/

/-- What compiling a file anew yields: its text, or the diagnostic of its failure. -/
def StyleWorld.outcome (world : StyleWorld) (minify : Bool) :
    StyleKind → FilePath → Except Diagnostic String
  | .preprocessed, p => (world.preprocess p minify).mapError Diagnostic.ofError
  | .css, p => (world.read p).mapError (unreadableCss p)

/-- Minifiers that leave every text as it is. -/
def verbatim : Minifiers := ⟨(.printed · []), fun text => { text }⟩

def emptyWorld : StyleWorld := ⟨fun _ => .error .notFound, noPreprocessor, verbatim⟩

def StyleEnv.outcome (env : StyleEnv) (kind : StyleKind) (p : FilePath) :
    Except Diagnostic String :=
  env.world.outcome env.config.minifyStyles kind p

def StyleEnv.reusable? (env : StyleEnv) (c : Component) (kind : StyleKind) (p : FilePath) :
    Option CachedStyle :=
  env.cache.reusable? env.change c kind p

theorem error_outcome {env : StyleEnv} {kind : StyleKind} {p : FilePath} {d : Diagnostic}
    (h : env.outcome kind p = .error d) :
    (∃ e, d = .ofError e) ∨ ∃ e, d = unreadableCss p e := by
  unfold StyleEnv.outcome StyleWorld.outcome at h
  cases kind with
  | preprocessed =>
    dsimp only at h
    cases hp : env.world.preprocess p env.config.minifyStyles with
    | ok text => simp [hp, Except.mapError] at h
    | error e =>
      rw [hp] at h
      exact .inl ⟨e, (Except.error.inj h).symm⟩
  | css =>
    dsimp only at h
    cases hr : env.world.read p with
    | ok text => simp [hr, Except.mapError] at h
    | error e =>
      rw [hr] at h
      exact .inr ⟨e, (Except.error.inj h).symm⟩

/-- What the cache remembers of a text. -/
def remembered (text : String) : CachedStyle := ⟨some (Text.trim text)⟩

theorem ofText_trim (c : Component) (order : Nat) (text : String) :
    SourceStyle.ofText c order (Text.trim text) = .ofText c order text := by
  unfold SourceStyle.ofText
  rw [Text.trim_trim]

theorem ofCached_remembered (c : Component) (order : Nat) (text : String) :
    SourceStyle.ofCached c order (remembered text) = .ofText c order text :=
  ofText_trim c order text

/-! ## Tasks -/

def StyleTask.ofFile (kind : StyleKind) (order : Nat) (p : FilePath) : StyleTask :=
  match kind with
  | .preprocessed => preprocess order p
  | .css => css order p

theorem StyleTask.ofPath?_eq (p : FilePath) (order : Nat) :
    ofPath? p order = (StyleKind.ofPath? p).map fun kind => ofFile kind order p := by
  unfold ofPath?
  cases StyleKind.ofPath? p with
  | none => rfl
  | some kind => cases kind <;> rfl

theorem StyleSources.mem_plan {sources : StyleSources} {task : StyleTask}
    (h : task ∈ sources.plan) :
    (∃ kind order, ∃ p ∈ sources.paths, StyleKind.ofPath? p = some kind ∧
      task = .ofFile kind order p) ∨ ∃ order text, task = .inlineText order text := by
  unfold plan at h
  rcases List.mem_append.1 h with h | h
  · obtain ⟨⟨p, order⟩, hp, htask⟩ := List.mem_filterMap.1 h
    rw [StyleTask.ofPath?_eq] at htask
    obtain ⟨kind, hkind, rfl⟩ := Option.map_eq_some_iff.1 htask
    exact .inl ⟨kind, order, p, List.fst_mem_of_mem_zipIdx hp, hkind, rfl⟩
  · obtain ⟨text, -, rfl⟩ := List.mem_map.1 h
    exact .inr ⟨_, _, rfl⟩

theorem StyleSources.exists_mem_plan {sources : StyleSources} {kind : StyleKind} {p : FilePath}
    (hp : p ∈ sources.paths) (hkind : StyleKind.ofPath? p = some kind) :
    ∃ order, .ofFile kind order p ∈ sources.plan := by
  obtain ⟨i, hi, rfl⟩ := List.getElem_of_mem hp
  refine ⟨1 + i, List.mem_append_left _ (List.mem_filterMap.2 ⟨(sources.paths[i], 1 + i), ?_, ?_⟩)⟩
  · rw [List.mk_mem_zipIdx_iff_le_and_getElem?_sub]
    simp [hi]
  · rw [StyleTask.ofPath?_eq, hkind, Option.map_some]

/-- The calls of the preprocessor that compiling a file takes. -/
def StyleTask.callsFor (env : StyleEnv) (kind : StyleKind) (p : FilePath) :
    List PreprocessorCall :=
  match kind with
  | .preprocessed => [⟨p, env.config.minifyStyles⟩]
  | .css => []

section Run

variable (env : StyleEnv) (c : Component) (kind : StyleKind) (order : Nat) (p : FilePath)

theorem run_ofFile :
    (StyleTask.ofFile kind order p).run env c =
      match env.reusable? c kind p with
      | some cached => (.ofCached c order cached, ∅)
      | none =>
        match env.outcome kind p with
        | .ok text => (.ofText c order text,
            { updates := [⟨kind, p, remembered text⟩], calls := StyleTask.callsFor env kind p })
        | .error d => ({ order := order },
            { diagnostics := [d], calls := StyleTask.callsFor env kind p }) := by
  cases kind with
  | preprocessed =>
    have hreuse : env.reusable? c .preprocessed p =
        env.cache.reusablePreprocessed? env.change p c.modulePath := rfl
    have houtcome : env.outcome .preprocessed p =
        (env.world.preprocess p env.config.minifyStyles).mapError Diagnostic.ofError := rfl
    rw [hreuse, houtcome]
    show compilePreprocessed env c order p = _
    unfold compilePreprocessed
    cases env.cache.reusablePreprocessed? env.change p c.modulePath with
    | some cached => rfl
    | none => cases env.world.preprocess p env.config.minifyStyles <;> rfl
  | css =>
    have hreuse : env.reusable? c .css p =
        env.cache.reusableCss? env.change p := rfl
    have houtcome : env.outcome .css p =
        (env.world.read p).mapError (unreadableCss p) := rfl
    rw [hreuse, houtcome]
    show compileCss env c order p = _
    unfold compileCss
    cases env.cache.reusableCss? env.change p with
    | some cached => rfl
    | none => cases env.world.read p <;> rfl

end Run

section RunCases

variable {env : StyleEnv} {c : Component} {kind : StyleKind} {p : FilePath}

theorem run_of_reusable (order : Nat) {cached : CachedStyle}
    (h : env.reusable? c kind p = some cached) :
    (StyleTask.ofFile kind order p).run env c = (.ofCached c order cached, ∅) := by
  rw [run_ofFile, h]

theorem run_of_ok (order : Nat) {text : String}
    (h : env.reusable? c kind p = none)
    (hok : env.outcome kind p = .ok text) :
    (StyleTask.ofFile kind order p).run env c = (.ofText c order text,
      { updates := [⟨kind, p, remembered text⟩], calls := StyleTask.callsFor env kind p }) := by
  rw [run_ofFile, h, hok]

theorem run_of_error (order : Nat) {d : Diagnostic}
    (h : env.reusable? c kind p = none)
    (herror : env.outcome kind p = .error d) :
    (StyleTask.ofFile kind order p).run env c = ({ order := order },
      { diagnostics := [d], calls := StyleTask.callsFor env kind p }) := by
  rw [run_ofFile, h, herror]

end RunCases

theorem StyleTask.style_run (task : StyleTask) (env : StyleEnv) (c : Component) :
    (∃ text, (task.run env c).1 = .ofText c task.order text) ∨
      (task.run env c).1 = { order := task.order } := by
  have hfile : ∀ kind order p,
      (∃ text, ((ofFile kind order p).run env c).1 = .ofText c order text) ∨
        ((ofFile kind order p).run env c).1 = { order := order } := by
    intro kind order p
    cases hreuse : env.reusable? c kind p with
    | some cached =>
      rw [run_of_reusable order hreuse]
      unfold SourceStyle.ofCached
      cases cached.plainText with
      | some text => exact .inl ⟨text, rfl⟩
      | none => exact .inr rfl
    | none =>
      cases houtcome : env.outcome kind p with
      | ok text => exact .inl ⟨text, by rw [run_of_ok order hreuse houtcome]⟩
      | error d => exact .inr (by rw [run_of_error order hreuse houtcome])
  cases task with
  | preprocess order p => exact hfile .preprocessed order p
  | css order p => exact hfile .css order p
  | inlineText order text => exact .inl ⟨text, rfl⟩

end ComponentBundle
