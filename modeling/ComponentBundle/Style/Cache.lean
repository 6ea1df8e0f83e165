import ComponentBundle.Json.Codec
import ComponentBundle.Style.Kind

/-!
# Style cache

A change build may take the text of a style file from an earlier build. The cache holds plain
texts only, because the scoped text depends on the component that reads the file.

* a change to any file of a kind bypasses the whole cache of that kind;
* a change to a file that has the stem of the component's module bypasses the preprocessed texts;
* `preprocessCount_apply`, `get?_css_applyUpdate`, `get?_preprocessed_applyUpdate` : what updates
  change.
-/

namespace ComponentBundle

/-! ## Change sets -/

/-- The files that changed since the last build. -/
structure ChangeSet where
  files : List FilePath
  deriving DecidableEq

namespace ChangeSet

def hasPreprocessorChange (change : ChangeSet) : Bool :=
  change.files.any StyleKind.isPreprocessorFile

def hasCssChange (change : ChangeSet) : Bool := change.files.any StyleKind.isCssFile

/-- Whether a file changed that has the stem of a module. -/
def touchesModule (change : ChangeSet) (modulePath : FilePath) : Bool :=
  match modulePath.stem? with
  | some stem => change.files.any fun f => f.stem? == some stem
  | none => false

end ChangeSet

/-! ## The cache -/

/-- The text remembered for a style file. -/
structure CachedStyle where
  plainText : Option String
  deriving DecidableEq

instance : JsonCodec CachedStyle where
  encode s := .obj [("unscoped", encode s.plainText)]
  decode j := do
    let slot ← j.record? ["unscoped"]
    return { plainText := ← (slot "unscoped").nullable }

/-- What a compiled file adds to the cache. -/
structure CacheUpdate where
  kind : StyleKind
  path : FilePath
  style : CachedStyle
  deriving DecidableEq

/-- The texts of earlier builds, and how many of them the preprocessor made. -/
structure StyleCache where
  preprocessed : SortedMap FilePath CachedStyle := ∅
  css : SortedMap FilePath CachedStyle := ∅
  preprocessCount : Nat := 0
  deriving DecidableEq

namespace StyleCache

instance : EmptyCollection StyleCache := ⟨{}⟩

/-- The preprocessed text that a build may take, if it is a change build and nothing bypasses the
cache. -/
def reusablePreprocessed? (cache : StyleCache) (change : Option ChangeSet) (path : FilePath)
    (modulePath : Option FilePath) : Option CachedStyle := do
  let change ← change
  if change.hasPreprocessorChange || modulePath.any change.touchesModule then none
  else cache.preprocessed.get? path

/-- The text of a style sheet that a build may take, if it is a change build and no style sheet
changed. -/
def reusableCss? (cache : StyleCache) (change : Option ChangeSet) (path : FilePath) :
    Option CachedStyle := do
  let change ← change
  if change.hasCssChange then none else cache.css.get? path

def applyUpdate (cache : StyleCache) (update : CacheUpdate) : StyleCache :=
  match update.kind with
  | .preprocessed =>
    { cache with
      preprocessed := cache.preprocessed.insert update.path update.style
      preprocessCount := cache.preprocessCount + 1 }
  | .css => { cache with css := cache.css.insert update.path update.style }

def apply (cache : StyleCache) (updates : List CacheUpdate) : StyleCache :=
  updates.foldl applyUpdate cache

def size (cache : StyleCache) : Nat := cache.preprocessed.size + cache.css.size

def isEmpty (cache : StyleCache) : Bool := cache.size == 0

/-! ## What updates change -/

theorem apply_append (cache : StyleCache) (us vs : List CacheUpdate) :
    cache.apply (us ++ vs) = (cache.apply us).apply vs := List.foldl_append ..

theorem preprocessCount_apply (cache : StyleCache) (updates : List CacheUpdate) :
    (cache.apply updates).preprocessCount =
      cache.preprocessCount + updates.countP (·.kind == .preprocessed) := by
  induction updates generalizing cache with
  | nil => rfl
  | cons u us ih =>
    rw [apply, List.foldl_cons, ← apply, ih, List.countP_cons, applyUpdate]
    cases u.kind with
    | preprocessed => simp; omega
    | css => simp

theorem get?_css_applyUpdate (cache : StyleCache) (u : CacheUpdate) (p : FilePath) :
    (cache.applyUpdate u).css.get? p =
      if u.kind = .css ∧ compare p u.path = .eq then some u.style else cache.css.get? p := by
  rw [applyUpdate]
  cases u.kind <;> simp [SortedMap.get?_insert]

theorem get?_preprocessed_applyUpdate (cache : StyleCache) (u : CacheUpdate) (p : FilePath) :
    (cache.applyUpdate u).preprocessed.get? p =
      if u.kind = .preprocessed ∧ compare p u.path = .eq then some u.style
      else cache.preprocessed.get? p := by
  rw [applyUpdate]
  cases u.kind <;> simp [SortedMap.get?_insert]

end StyleCache

end ComponentBundle
