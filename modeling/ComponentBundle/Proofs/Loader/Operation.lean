import ComponentBundle.Loader.Basic
import ComponentBundle.Proofs.SortedMap

/-!
# What the operations of a loader change

Each operation of a loader touches few of its fields. The lemmas here say which, field by field,
so that nothing later opens an operation.

* `waitersOf_enqueue`, `waitersOf_registerBundle` : who waits after a load and a registration;
* `isLoaded_registerBundle` : a registration is the only way to become loaded;
* `loadBundle_eq` : a load whose resolution fails changes nothing; any other awaits the bundle.
-/

namespace ComponentBundle

namespace Loader

variable {σ κ : Type} [LoaderHost σ]

/-! ## Requests -/

@[simp] theorem request_loaded (l : Loader σ κ) (id : String) :
    (l.request id).loaded = l.loaded := by
  unfold request; dsimp only; split <;> rfl

@[simp] theorem request_waiters (l : Loader σ κ) (id : String) :
    (l.request id).waiters = l.waiters := by
  unfold request; dsimp only; split <;> rfl

@[simp] theorem completeRequest_loaded (l : Loader σ κ) (url : String) (o : RequestOutcome) :
    (l.completeRequest url o).loaded = l.loaded := by
  unfold completeRequest; split <;> rfl

@[simp] theorem completeRequest_waiters (l : Loader σ κ) (url : String) (o : RequestOutcome) :
    (l.completeRequest url o).waiters = l.waiters := by
  unfold completeRequest; split <;> rfl

/-! ## Loads -/

omit [LoaderHost σ] in
theorem waitersOf_enqueue (l : Loader σ κ) (id : String) (w : κ) (a : String) :
    (l.enqueue id w).waitersOf a = l.waitersOf a ++ (if a = id then [w] else []) := by
  show ((l.waiters.insert id (l.waitersOf id ++ [w])).get? a).getD [] = _
  rw [SortedMap.get?_insert_eq]
  by_cases h : a = id
  · simp [h]
  · simp [h, waitersOf]

/-- The bundle id that a load of a component in a mode asks for. -/
def resolve (l : Loader σ κ) (c : Component) (mode : Option String) : Except LoaderError String :=
  resolveBundleId (LoaderHost.hasNativeShadow l.host) c mode l.options.defaultMode

def resolveElement (l : Loader σ κ) (tag : String) (mode : Option String) :
    Except LoaderError String :=
  match l.registry.get? tag with
  | none => .error (.unknownComponent tag)
  | some c => l.resolve c mode

/-- What a load does once its bundle id is known. -/
def await (l : Loader σ κ) (id : String) (w : κ) : Loader σ κ × List κ :=
  if l.isLoaded id then (l, [w]) else ((l.enqueue id w).request id, [])

/-- What a load does with its resolution: it fails in the same way and leaves the loader as it was,
or awaits the bundle. -/
def awaitResolved (l : Loader σ κ) (resolved : Except LoaderError String) (w : κ) :
    Loader σ κ × Except LoaderError (List κ) :=
  match resolved with
  | .error e => (l, .error e)
  | .ok id => ((l.await id w).1, .ok (l.await id w).2)

theorem loadBundle_eq (l : Loader σ κ) (c : Component) (mode : Option String) (w : κ) :
    l.loadBundle c mode w = l.awaitResolved (l.resolve c mode) w := by
  unfold loadBundle resolve
  split
  · rename_i e h
    rw [h]; rfl
  · rename_i id h
    rw [h, awaitResolved, await]
    split <;> rfl

theorem loadElement_eq (l : Loader σ κ) (tag : String) (mode : Option String) (w : κ) :
    l.loadElement tag mode w = l.awaitResolved (l.resolveElement tag mode) w := by
  unfold loadElement resolveElement
  cases l.registry.get? tag with
  | none => rfl
  | some c => exact loadBundle_eq l c mode w

@[simp] theorem await_loaded (l : Loader σ κ) (id : String) (w : κ) :
    (l.await id w).1.loaded = l.loaded := by
  unfold await
  split
  · rfl
  · exact request_loaded _ id

theorem await_ready (l : Loader σ κ) (id : String) (w : κ) :
    (l.await id w).2 = if l.isLoaded id then [w] else [] := by
  unfold await
  split <;> rfl

theorem waitersOf_await (l : Loader σ κ) (id : String) (w : κ) (a : String) :
    (l.await id w).1.waitersOf a =
      l.waitersOf a ++ (if a = id ∧ l.isLoaded id = false then [w] else []) := by
  unfold await
  split
  · rename_i h
    simp [h]
  · rename_i h
    have hw : ((l.enqueue id w).request id).waitersOf a = (l.enqueue id w).waitersOf a := by
      rw [waitersOf, waitersOf, request_waiters]
    rw [hw, waitersOf_enqueue]
    simp [h]

/-! ## Registrations -/

@[simp] theorem installStyles_loaded (l : Loader σ κ) (r : BundleRegistration) :
    (l.installStyles r).loaded = l.loaded := by
  unfold installStyles; dsimp only; split <;> rfl

@[simp] theorem installStyles_waiters (l : Loader σ κ) (r : BundleRegistration) :
    (l.installStyles r).waiters = l.waiters := by
  unfold installStyles; dsimp only; split <;> rfl

theorem isLoaded_registerBundle (l : Loader σ κ) (r : BundleRegistration) (a : String) :
    (l.registerBundle r).1.isLoaded a = (decide (a = r.bundleId) || l.isLoaded a) := by
  show (((l.installStyles r).loaded.insert r.bundleId ()).get? a).isSome = _
  rw [SortedMap.get?_insert_eq, installStyles_loaded]
  by_cases h : a = r.bundleId
  · simp [h]
  · simp [h, isLoaded, SortedMap.contains]

theorem waitersOf_registerBundle (l : Loader σ κ) (r : BundleRegistration) (a : String) :
    (l.registerBundle r).1.waitersOf a = if a = r.bundleId then [] else l.waitersOf a := by
  show (((l.installStyles r).waiters.erase r.bundleId).get? a).getD [] = _
  rw [SortedMap.get?_erase_eq, installStyles_waiters]
  by_cases h : a = r.bundleId
  · simp [h]
  · simp [h, waitersOf]

theorem registerBundle_ready (l : Loader σ κ) (r : BundleRegistration) :
    (l.registerBundle r).2 = l.waitersOf r.bundleId := by
  show (l.installStyles r).waitersOf r.bundleId = _
  rw [waitersOf, waitersOf, installStyles_waiters]

end Loader

end ComponentBundle
