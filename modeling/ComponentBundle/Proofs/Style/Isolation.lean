import ComponentBundle.Proofs.Style.Joined

/-!
# Sources do not disturb each other

A component in one mode has files of two kinds, files that cannot be compiled, and a text of its
own. Every file that can be compiled meets one fate: its text is remembered, compiled anew, or not
to be had. What a file adds to the texts, the diagnostics and the cache updates is decided by its
own fate and by that of no other file.

* `run_ofFile_fate` : what a file adds follows from its fate;
* `tasks_eq_unnumbered` : apart from numbers, the tasks are those of files that can be compiled;
* `sources_are_isolated` : compiling a component in one mode puts together what its sources add.
-/

namespace ComponentBundle

/-! ## Fates of files -/

/-- What becomes of a style file that can be compiled. -/
inductive SourceFate where
  | remembered (cached : CachedStyle)
  | compiled (text : String)
  | failed (d : Diagnostic)

namespace SourceFate

/-- The text that a file adds; one that is neither remembered nor compiled is empty. -/
def text : SourceFate → String
  | remembered cached => (cached.plainText.map Text.trim).getD ""
  | compiled text => Text.trim text
  | failed _ => ""

def problem? : SourceFate → Option Diagnostic
  | failed d => some d
  | remembered _ | compiled _ => none

/-- The cache update of a file; only a text compiled anew has one. -/
def update? (kind : StyleKind) (p : FilePath) : SourceFate → Option CacheUpdate
  | compiled text => some ⟨kind, p, ⟨some (Text.trim text)⟩⟩
  | remembered _ | failed _ => none

end SourceFate

/-- The fate of a file: the cache comes first, then the file itself. -/
def StyleEnv.fate (env : StyleEnv) (c : Component) (kind : StyleKind) (p : FilePath) :
    SourceFate :=
  match env.reusable? c kind p with
  | some cached => .remembered cached
  | none =>
    match env.outcome kind p with
    | .ok text => .compiled text
    | .error d => .failed d

theorem isError_outcome {env : StyleEnv} {kind : StyleKind} {p : FilePath} {d : Diagnostic}
    (h : env.outcome kind p = .error d) : d.isError = true := by
  rcases error_outcome h with ⟨e, rfl⟩ | ⟨e, rfl⟩
  · exact Diagnostic.isError_ofError e
  · rfl

section Fates

variable (env : StyleEnv) (c : Component) (kind : StyleKind) (p : FilePath)

theorem run_ofFile_fate (order : Nat) :
    let (style, log) := (StyleTask.ofFile kind order p).run env c
    let fate := env.fate c kind p
    style.plainText.getD "" = fate.text ∧ log.diagnostics = fate.problem?.toList ∧
      log.updates = (fate.update? kind p).toList := by
  unfold StyleEnv.fate
  cases hreuse : env.reusable? c kind p with
  | some cached =>
    rw [run_of_reusable order hreuse]
    refine ⟨?_, rfl, rfl⟩
    unfold SourceStyle.ofCached
    cases hcached : cached.plainText <;> simp [SourceFate.text, SourceStyle.ofText, hcached]
  | none =>
    cases houtcome : env.outcome kind p with
    | ok text =>
      rw [run_of_ok order hreuse houtcome]
      exact ⟨rfl, rfl, rfl⟩
    | error d =>
      rw [run_of_error order hreuse houtcome]
      exact ⟨rfl, rfl, rfl⟩

theorem isError_problem {d : Diagnostic} (h : (env.fate c kind p).problem? = some d) :
    d.isError = true := by
  unfold StyleEnv.fate at h
  cases hreuse : env.reusable? c kind p with
  | some cached => simp [hreuse, SourceFate.problem?] at h
  | none =>
    cases houtcome : env.outcome kind p with
    | ok text => simp [hreuse, houtcome, SourceFate.problem?] at h
    | error e =>
      rw [hreuse, houtcome] at h
      obtain rfl := Option.some.inj h
      exact isError_outcome houtcome

end Fates

/-! ## Tasks without numbers -/

/-- A task without its place in the list. -/
def StyleTask.unnumbered : StyleTask → StyleTask
  | preprocess _ p => preprocess 0 p
  | css _ p => css 0 p
  | inlineText _ text => inlineText 0 text

theorem StyleTask.unnumbered_ofFile (kind : StyleKind) (order : Nat) (p : FilePath) :
    (ofFile kind order p).unnumbered = ofFile kind 0 p := by
  cases kind <;> rfl

theorem StyleTask.run_unnumbered (task : StyleTask) (env : StyleEnv) (c : Component) :
    task.unnumbered.run env c = ({ (task.run env c).1 with order := 0 }, (task.run env c).2) := by
  have hfile : ∀ kind order p, (ofFile kind 0 p).run env c =
      ({ ((ofFile kind order p).run env c).1 with order := 0 },
        ((ofFile kind order p).run env c).2) := by
    intro kind order p
    rw [run_ofFile, run_ofFile]
    cases env.reusable? c kind p with
    | some cached =>
      dsimp only
      unfold SourceStyle.ofCached
      cases cached.plainText <;> rfl
    | none => cases env.outcome kind p <;> rfl
  cases task with
  | preprocess order p => exact hfile .preprocessed order p
  | css order p => exact hfile .css order p
  | inlineText order text => rfl

namespace StyleSources

/-- The listed files that can be compiled, with their kinds. -/
def files (sources : StyleSources) : List (StyleKind × FilePath) :=
  sources.paths.filterMap fun p => (StyleKind.ofPath? p).map fun kind => (kind, p)

def tasks (sources : StyleSources) : List StyleTask :=
  sources.files.map (fun f => .ofFile f.1 0 f.2) ++ sources.inlineText.toList.map (.inlineText 0)

theorem tasks_eq_unnumbered (sources : StyleSources) :
    sources.tasks = sources.plan.map StyleTask.unnumbered := by
  have hfile : ∀ p order, (StyleTask.ofPath? p order).map StyleTask.unnumbered =
      ((StyleKind.ofPath? p).map fun kind => (kind, p)).map fun f => .ofFile f.1 0 f.2 := by
    intro p order
    rw [StyleTask.ofPath?_eq]
    cases StyleKind.ofPath? p with
    | none => rfl
    | some kind => exact congrArg some (StyleTask.unnumbered_ofFile kind order p)
  unfold tasks plan files
  rw [List.map_append, List.map_map, List.map_filterMap, List.map_filterMap]
  congr 1
  simp only [hfile]
  conv_lhs => rw [← List.zipIdx_map_fst 1 sources.paths]
  rw [List.filterMap_map]
  rfl

theorem files_congr {sources other : StyleSources}
    (h : other.paths.filter (fun p => (StyleKind.ofPath? p).isSome) =
      sources.paths.filter fun p => (StyleKind.ofPath? p).isSome) :
    other.files = sources.files := by
  have hfiles : ∀ s : StyleSources, s.files =
      (s.paths.filter fun p => (StyleKind.ofPath? p).isSome).filterMap fun p =>
        (StyleKind.ofPath? p).map fun kind => (kind, p) := by
    intro s
    unfold files
    rw [List.filterMap_filter]
    refine List.filterMap_congr fun p _ => ?_
    cases StyleKind.ofPath? p <;> rfl
  rw [hfiles, hfiles, h]

end StyleSources

/-! ## Compiling one mode -/

/-- What a list of tasks gives when their texts are joined as they come. -/
def joinedTasks (env : StyleEnv) (c : Component) (mode : String) (tasks : List StyleTask) :
    ModeStyles :=
  let sources := tasks.map fun task => (task.run env c).1
  { tag := c.tag
    mode := mode
    plainText := joinTexts (sources.map (·.plainText))
    scopedText :=
      if sources.any (·.scopedText.isSome) then some (joinTexts (sources.map (·.scopedText)))
      else none }

theorem joinedTasks_unnumbered (env : StyleEnv) (c : Component) (mode : String)
    (tasks : List StyleTask) :
    joinedTasks env c mode (tasks.map StyleTask.unnumbered) = joinedTasks env c mode tasks := by
  simp only [joinedTasks, List.map_map, List.any_map, Function.comp_def,
    StyleTask.run_unnumbered]

section Tasks

variable (env : StyleEnv) (c : Component) (sources : StyleSources)

theorem joinedTasks_tasks (mode : String) :
    (joinedTasks env c mode sources.tasks).plainText =
      Text.trim ("\n\n".intercalate
        (sources.files.map (fun f => (env.fate c f.1 f.2).text) ++
          sources.inlineText.toList.map Text.trim)) := by
  unfold joinedTasks joinTexts StyleSources.tasks
  simp only [List.map_append, List.map_map]
  refine congrArg (fun texts => Text.trim ("\n\n".intercalate (texts ++ _))) ?_
  exact List.map_congr_left fun f _ => (run_ofFile_fate env c f.1 f.2 0).1

theorem flatMap_tasks {α : Type} (part : CompileLog → List α) (hempty : part ∅ = [])
    {item? : StyleKind × FilePath → Option α}
    (hitem : ∀ f, part ((StyleTask.ofFile f.1 0 f.2).run env c).2 = (item? f).toList) :
    (sources.tasks.flatMap fun task => part (task.run env c).2) =
      sources.files.filterMap item? := by
  have hown : (sources.inlineText.toList.flatMap fun text =>
      part ((StyleTask.inlineText 0 text).run env c).2) = [] :=
    List.flatMap_eq_nil_iff.2 fun _ _ => hempty
  rw [StyleSources.tasks, List.flatMap_append, List.flatMap_map, List.flatMap_map, hown,
    List.append_nil, List.filterMap_eq_flatMap_toList]
  exact List.flatMap_congr fun f _ => hitem f

end Tasks

section Mode

variable {env : StyleEnv} {c : Component} {mode : String} {sources : StyleSources}

theorem styles_compileMode_of_tasks (hsources : c.styles.get? mode = some sources)
    (hminify : env.config.minifyStyles = false) :
    (compileMode env c mode).1 = joinedTasks env c mode sources.tasks := by
  have hplan : c.plan mode = sources.plan := by rw [Component.plan, hsources, Option.getD_some]
  rw [styles_compileMode, minifyIfConfigured, if_neg (by simp [hminify]), joinedStyles_eq, hplan,
    sources.tasks_eq_unnumbered, joinedTasks_unnumbered]
  rfl

theorem flatMap_plan {α : Type} (hsources : c.styles.get? mode = some sources)
    (part : CompileLog → List α) :
    ((c.plan mode).flatMap fun task => part (task.run env c).2) =
      sources.tasks.flatMap fun task => part (task.run env c).2 := by
  rw [Component.plan, hsources, Option.getD_some, sources.tasks_eq_unnumbered, List.flatMap_map]
  simp only [StyleTask.run_unnumbered]

theorem updates_compileMode_of_tasks (hsources : c.styles.get? mode = some sources) :
    (compileMode env c mode).2.updates =
      sources.tasks.flatMap fun task => (task.run env c).2.updates := by
  rw [updates_compileMode]
  exact flatMap_plan hsources CompileLog.updates

theorem diagnostics_compileMode_of_tasks (hsources : c.styles.get? mode = some sources)
    (hminify : env.config.minifyStyles = false) :
    (compileMode env c mode).2.diagnostics =
      sources.unsupported.map (fun p => .ofError (.unsupportedStyle p c.tag)) ++
        sources.tasks.flatMap fun task => (task.run env c).2.diagnostics := by
  rw [diagnostics_compileMode, minifyIfConfigured, if_neg (by simp [hminify]), List.append_nil,
    Component.refusals, hsources, Option.getD_some]
  exact congrArg _ (flatMap_plan hsources CompileLog.diagnostics)

end Mode

/-! ## Isolation -/

/-- A component with other sources in one of its modes. -/
def Component.withSources (c : Component) (mode : String) (sources : StyleSources) : Component :=
  { c with styles := c.styles.insert mode sources }

theorem run_withSources (env : StyleEnv) (c : Component) (mode : String) (sources : StyleSources)
    (task : StyleTask) : task.run env (c.withSources mode sources) = task.run env c := by
  cases task <;> rfl

/-- Whether compiling a component in one mode puts together what each source adds for itself. -/
structure SourcesIsolated (env : StyleEnv) (c : Component) (mode : String)
    (sources : StyleSources) : Prop where
  plainText : (compileMode env c mode).1.plainText =
    Text.trim ("\n\n".intercalate
      (sources.files.map (fun f => (env.fate c f.1 f.2).text) ++
        sources.inlineText.toList.map Text.trim))
  diagnostics : (compileMode env c mode).2.diagnostics =
    sources.unsupported.map (fun p => .ofError (.unsupportedStyle p c.tag)) ++
      sources.files.filterMap fun f => (env.fate c f.1 f.2).problem?
  errors : ∀ d ∈ (compileMode env c mode).2.diagnostics, d.isError = true
  updates : (compileMode env c mode).2.updates =
    sources.files.filterMap fun f => (env.fate c f.1 f.2).update? f.1 f.2
  /-- Paths that cannot be compiled may be removed, or be there in any number. -/
  unsupported : ∀ paths : List FilePath,
    paths.filter (fun p => (StyleKind.ofPath? p).isSome) =
      sources.paths.filter (fun p => (StyleKind.ofPath? p).isSome) →
    let other := c.withSources mode { sources with paths := paths }
    (compileMode env other mode).1 = (compileMode env c mode).1 ∧
      (compileMode env other mode).2.updates = (compileMode env c mode).2.updates

/-- **The sources of a component do not disturb each other**, if nothing is minified. -/
theorem sources_are_isolated {env : StyleEnv} {c : Component} {mode : String}
    {sources : StyleSources} (hsources : c.styles.get? mode = some sources)
    (hminify : env.config.minifyStyles = false) : SourcesIsolated env c mode sources := by
  have hdiagnostics : (compileMode env c mode).2.diagnostics =
      sources.unsupported.map (fun p => .ofError (.unsupportedStyle p c.tag)) ++
        sources.files.filterMap fun f => (env.fate c f.1 f.2).problem? := by
    rw [diagnostics_compileMode_of_tasks hsources hminify]
    exact congrArg _ (flatMap_tasks env c sources CompileLog.diagnostics rfl fun f =>
      (run_ofFile_fate env c f.1 f.2 0).2.1)
  constructor
  case plainText =>
    rw [styles_compileMode_of_tasks hsources hminify]
    exact joinedTasks_tasks env c sources mode
  case diagnostics => exact hdiagnostics
  case errors =>
    intro d hd
    rw [hdiagnostics] at hd
    rcases List.mem_append.1 hd with hd | hd
    · obtain ⟨p, -, rfl⟩ := List.mem_map.1 hd
      exact Diagnostic.isError_ofError _
    · obtain ⟨f, -, hproblem⟩ := List.mem_filterMap.1 hd
      exact isError_problem env c f.1 f.2 hproblem
  case updates =>
    rw [updates_compileMode_of_tasks hsources]
    exact flatMap_tasks env c sources CompileLog.updates rfl fun f =>
      (run_ofFile_fate env c f.1 f.2 0).2.2
  case unsupported =>
    intro paths hpaths other
    have hother : other.styles.get? mode = some { sources with paths := paths } :=
      SortedMap.get?_insert_self c.styles mode _
    have hfiles : StyleSources.files { sources with paths := paths } = sources.files :=
      StyleSources.files_congr hpaths
    have htasks : StyleSources.tasks { sources with paths := paths } = sources.tasks := by
      unfold StyleSources.tasks
      rw [hfiles]
    have hrun : ∀ task : StyleTask, task.run env other = task.run env c :=
      run_withSources env c mode _
    constructor
    · rw [styles_compileMode_of_tasks hother hminify, styles_compileMode_of_tasks hsources hminify,
        htasks]
      unfold joinedTasks
      simp only [hrun]
      rfl
    · rw [updates_compileMode_of_tasks hother, updates_compileMode_of_tasks hsources, htasks]
      simp only [hrun]

/-! ## A component with sources of every fate -/

/-- Files that are read, preprocessed, remembered with a text and without one, missing, refused by
the preprocessor and of an unknown kind, with a text of the component's own. -/
def mixedSources : StyleSources where
  paths := [⟨"read.css"⟩, ⟨"notes.txt"⟩, ⟨"bad.scss"⟩, ⟨"blank.css"⟩, ⟨"known.css"⟩,
    ⟨"notes.txt"⟩, ⟨"missing.css"⟩, ⟨"good.scss"⟩]
  inlineText := some " p\x7b\x7d "

def mixedComponent : Component where
  tag := "x-a"
  encapsulation := .scopedCss
  styles := .ofList [("$", mixedSources)]

def mixedEnv : StyleEnv where
  config := {}
  cache :=
    { css := .ofList [(⟨"blank.css"⟩, ⟨none⟩), (⟨"known.css"⟩, ⟨some " b\x7b\x7d "⟩)] }
  change := some ⟨[⟨"index.js"⟩]⟩
  world :=
    { read := fun p => if p = ⟨"read.css"⟩ then .ok "a\x7b\x7d\n" else .error .notFound
      preprocess := fun p minify =>
        if p = ⟨"good.scss"⟩ then .ok "\nc\x7b\x7d" else noPreprocessor p minify
      minifiers := verbatim }

/-- Every source adds its part, or an empty text and an error. -/
theorem mixed_sources_are_isolated :
    let compiled := compileMode mixedEnv mixedComponent "$"
    SourcesIsolated mixedEnv mixedComponent "$" mixedSources ∧
    compiled.1.plainText =
      "a\x7b\x7d\n\n\n\n\n\nb\x7b\x7d\n\n\n\nc\x7b\x7d\n\np\x7b\x7d" ∧
    compiled.2.diagnostics.map (·.code) = [Diagnostic.unsupportedStyle,
      Diagnostic.unsupportedStyle, Diagnostic.preprocessFailed, Diagnostic.styleReadFailed] ∧
    compiled.2.updates = [⟨.css, ⟨"read.css"⟩, ⟨some "a\x7b\x7d"⟩⟩,
      ⟨.preprocessed, ⟨"good.scss"⟩, ⟨some "c\x7b\x7d"⟩⟩] := by
  intro compiled
  have hisolated : SourcesIsolated mixedEnv mixedComponent "$" mixedSources :=
    sources_are_isolated (by decide +kernel) rfl
  refine ⟨hisolated, ?_, ?_, ?_⟩
  · rw [hisolated.plainText]
    decide +kernel
  · rw [hisolated.diagnostics]
    decide +kernel
  · rw [hisolated.updates]
    decide +kernel

end ComponentBundle
