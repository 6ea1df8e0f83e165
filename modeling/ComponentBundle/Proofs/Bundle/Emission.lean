import ComponentBundle.Proofs.SortedMap
import ComponentBundle.Registry

/-!
# What writing leaves, and what it does not depend on

Bundles are written file by file, so what is left in the cache and the queues follows from the list
of their files alone. What is announced of a bundle, in turn, does not depend on what was written
before.

* `emitBundles_emission` : writing bundles is writing their files one after another;
* `get?_cache_writeAll` : the cache holds the last text written to each path;
* `get?_www_writeAll` : from empty queues on, the web tree's queue holds what the cache holds;
* `emitBundles_announced`, `ofBundles_eq` : components, modes, ids and the registry do not depend on
  the state in which writing starts.
-/

namespace ComponentBundle

/-! ## Files one after another -/

def Emission.writeAll (config : Config) (s : Emission) (files : List Artifact) : Emission :=
  files.foldl (fun s a => (s.write config a).2) s

theorem Emission.writeAll_append (config : Config) (s : Emission) (as bs : List Artifact) :
    s.writeAll config (as ++ bs) = (s.writeAll config as).writeAll config bs :=
  List.foldl_append

theorem emitVariant_emission (config : Config) (s : Emission) (v : AssembledVariant) :
    (emitVariant config s v).2 = s.writeAll config v.artifacts := by
  unfold emitVariant AssembledVariant.artifacts Emission.writeAll
  cases v.withScoped <;> rfl

theorem emitVariants_emission (config : Config) (s : Emission) (vs : List AssembledVariant) :
    (emitVariants config s vs).2 = s.writeAll config (vs.flatMap AssembledVariant.artifacts) := by
  induction vs generalizing s with
  | nil => rfl
  | cons v vs ih =>
    rw [List.flatMap_cons, Emission.writeAll_append, ← emitVariant_emission, ← ih]
    rfl

theorem emitBundles_emission (config : Config) (s : Emission) (bs : List AssembledBundle) :
    (emitBundles config s bs).2 = s.writeAll config (bs.flatMap AssembledBundle.artifacts) := by
  induction bs generalizing s with
  | nil => rfl
  | cons b bs ih =>
    rw [List.flatMap_cons, Emission.writeAll_append, AssembledBundle.artifacts,
      ← emitVariants_emission, ← ih]
    rfl

/-! ## What a write leaves -/

theorem Emission.get?_cache_write (config : Config) (s : Emission) (a : Artifact) (p : FilePath) :
    (s.write config a).2.cache.contents.get? p =
      if compare p (wwwPath config a.fileName) = .eq then some a.content
      else s.cache.contents.get? p := by
  by_cases h : s.cache.contents.get? (wwwPath config a.fileName) = some a.content
  · rw [write_unchanged h]
    split
    · rename_i hp
      rw [← h]
      exact SortedMap.get?_congr _ hp
    · rfl
  · rw [write_written h]
    exact SortedMap.get?_insert _ _ _ _

theorem Emission.get?_cache_writeAll (config : Config) (s : Emission) (files : List Artifact)
    (p : FilePath) :
    (s.writeAll config files).cache.contents.get? p =
      (SortedMap.lastValue? (files.map fun a => (wwwPath config a.fileName, a.content)) p).or
        (s.cache.contents.get? p) := by
  unfold writeAll
  induction files generalizing s with
  | nil => rfl
  | cons a files ih =>
    rw [List.foldl_cons, ih, get?_cache_write, List.map_cons, SortedMap.lastValue?_cons]
    cases SortedMap.lastValue? (files.map fun a => (wwwPath config a.fileName, a.content)) p with
    | some t => rfl
    | none => split <;> rfl

theorem Emission.get?_www_write {config : Config} (hwww : config.writesWww = true) {s : Emission}
    (h : ∀ p, s.files.www.get? p = s.cache.contents.get? p) (a : Artifact) (p : FilePath) :
    (s.write config a).2.files.www.get? p = (s.write config a).2.cache.contents.get? p := by
  by_cases hc : s.cache.contents.get? (wwwPath config a.fileName) = some a.content
  · rw [write_unchanged hc]
    exact h p
  · rw [write_written hc]
    simp only [OutputFiles.queue, hwww, if_true]
    rw [SortedMap.get?_insert, SortedMap.get?_insert, h p]

theorem Emission.get?_www_writeAll {config : Config} (hwww : config.writesWww = true)
    (files : List Artifact) (p : FilePath) :
    (Emission.writeAll config {} files).files.www.get? p =
      SortedMap.lastValue? (files.map fun a => (wwwPath config a.fileName, a.content)) p := by
  suffices h : ∀ s : Emission, (∀ p, s.files.www.get? p = s.cache.contents.get? p) →
      ∀ p, (s.writeAll config files).files.www.get? p =
        (s.writeAll config files).cache.contents.get? p by
    rw [h {} (fun _ => rfl), get?_cache_writeAll]
    exact Option.or_none
  unfold writeAll
  induction files with
  | nil => exact fun s h => h
  | cons a files ih => exact fun s h => ih _ (get?_www_write hwww h a)

/-! ## What is announced -/

/-- The mode and the id of a variant, and whether it has a scoped twin. -/
def EmittedVariant.announced (v : EmittedVariant) : Option String × String × Bool :=
  (v.mode, v.bundleId, v.hasScoped)

/-- The members of a bundle and what is announced of its variants. -/
def EmittedBundle.announced (b : EmittedBundle) :
    List Component × List (Option String × String × Bool) :=
  (b.components, b.variants.map EmittedVariant.announced)

/-- The mode and the id of a variant, and whether it has a scoped twin. -/
def AssembledVariant.announced (v : AssembledVariant) : Option String × String × Bool :=
  (v.mode, v.bundleId, v.withScoped.isSome)

/-- The members of a bundle and what is announced of its variants. -/
def AssembledBundle.announced (b : AssembledBundle) :
    List Component × List (Option String × String × Bool) :=
  (b.components, b.variants.map AssembledVariant.announced)

theorem emitVariants_announced (config : Config) (s : Emission) (vs : List AssembledVariant) :
    (emitVariants config s vs).1.map EmittedVariant.announced =
      vs.map AssembledVariant.announced := by
  induction vs generalizing s with
  | nil => rfl
  | cons v vs ih =>
    rw [emitVariants, List.map_cons, List.map_cons, ih]
    rfl

/-- What is announced of bundles does not depend on what was written before. -/
theorem emitBundles_announced (config : Config) (s : Emission) (bs : List AssembledBundle) :
    (emitBundles config s bs).1.map EmittedBundle.announced =
      bs.map AssembledBundle.announced := by
  induction bs generalizing s with
  | nil => rfl
  | cons b bs ih =>
    rw [emitBundles, List.map_cons, List.map_cons, ih]
    congr 1
    exact congrArg (Prod.mk b.components) (emitVariants_announced config s b.variants)

/-- The ids that variants of these modes and ids give a bundle. -/
def idsOfVariants : List (Option String × String × Bool) → Option BundleIds
  | [] => none
  | [(none, id, _)] => some (.single id)
  | variants => some (.perMode (SortedMap.ofList
      (variants.filterMap fun v => v.1.map fun mode => (mode, v.2.1))))

/-- The members of a bundle with the ids of its variants. -/
def membersOfAnnounced (b : List Component × List (Option String × String × Bool)) :
    List Component :=
  match idsOfVariants b.2 with
  | some ids => b.1.map fun c => { c with bundleIds := some ids }
  | none => []

theorem idsOfVariants_cons_cons (v w : Option String × String × Bool)
    (rest : List (Option String × String × Bool)) :
    idsOfVariants (v :: w :: rest) = some (.perMode (SortedMap.ofList
      ((v :: w :: rest).filterMap fun v => v.1.map fun mode => (mode, v.2.1)))) := by
  obtain ⟨mode, id, hasScoped⟩ := v
  cases mode <;> rfl

theorem EmittedBundle.bundleIds?_eq (b : EmittedBundle) :
    b.bundleIds? = idsOfVariants b.announced.2 := by
  obtain ⟨components, variants⟩ := b
  match variants with
  | [] => rfl
  | [⟨none, id, _, _⟩] => rfl
  | [⟨some mode, id, _, _⟩] => rfl
  | ⟨mode, id, _, _⟩ :: w :: rest =>
    rw [announced, List.map_cons, List.map_cons, idsOfVariants_cons_cons, ← List.map_cons,
      ← List.map_cons, List.filterMap_map]
    cases mode <;> rfl

theorem EmittedBundle.registered_eq (b : EmittedBundle) :
    b.registered = membersOfAnnounced b.announced := by
  unfold registered membersOfAnnounced
  rw [b.bundleIds?_eq]
  rfl

theorem ofBundles_eq (bs : List EmittedBundle) :
    Registry.ofBundles bs =
      .ofComponents ((bs.map EmittedBundle.announced).flatMap membersOfAnnounced) := by
  unfold Registry.ofBundles
  rw [List.flatMap_map, funext EmittedBundle.registered_eq]

end ComponentBundle
