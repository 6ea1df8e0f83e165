import ComponentBundle.Proofs.Loader.Operation

/-!
# Runs of a loader

A run is a sequence of calls on one loader, reported call by call. The waiter that a load brings is
the number of its call, so no two loads bring the same one. Between calls the host may change on its
own, for instance whether it has native shadow trees.

* `CallReport.acceptedId?`, `registeredId?` : the bundle of a load that succeeded, of a
  registration;
* `accepted`, `hasRegistered`, `readied` : what the reports of a run say about loads,
  registrations, and those made ready;
* `mem_accepted` : a waiter is accepted for a bundle exactly when its call is;
* `reports_induction` : how a property of all runs is proved.
-/

namespace ComponentBundle

inductive LoaderCall (σ : Type) where
  | loadBundle (c : Component) (mode : Option String)
  | loadElement (tag : String) (mode : Option String)
  | completeRequest (url : String) (outcome : RequestOutcome)
  | registerBundle (r : BundleRegistration)
  /-- No call at all: the host is another one from now on. -/
  | hostChange (host : σ)

structure CallReport (σ : Type) where
  call : LoaderCall σ
  before : Loader σ Nat
  after : Loader σ Nat
  error? : Option LoaderError
  /-- The waiters made ready, in this order. -/
  ready : List Nat

namespace LoaderCall

variable {σ κ : Type} [LoaderHost σ]

/-- What a load resolves to; other calls resolve nothing. -/
def resolution? (call : LoaderCall σ) (l : Loader σ κ) : Option (Except LoaderError String) :=
  match call with
  | loadBundle c mode => some (l.resolve c mode)
  | loadElement tag mode => some (l.resolveElement tag mode)
  | _ => none

/-- The report of a load: the loader that it leaves, and its error or those that it makes ready. -/
def loadReport (call : LoaderCall σ) (l : Loader σ Nat)
    (result : Loader σ Nat × Except LoaderError (List Nat)) : CallReport σ :=
  match result.2 with
  | .ok ready => ⟨call, l, result.1, none, ready⟩
  | .error e => ⟨call, l, result.1, some e, []⟩

/-- Makes a call; `n` is the waiter if it is a load. -/
def report (call : LoaderCall σ) (l : Loader σ Nat) (n : Nat) : CallReport σ :=
  match call with
  | loadBundle c mode => call.loadReport l (l.loadBundle c mode n)
  | loadElement tag mode => call.loadReport l (l.loadElement tag mode n)
  | completeRequest url outcome => ⟨call, l, l.completeRequest url outcome, none, []⟩
  | registerBundle r => ⟨call, l, (l.registerBundle r).1, none, (l.registerBundle r).2⟩
  | hostChange host => ⟨call, l, { l with host }, none, []⟩

end LoaderCall

namespace CallReport

variable {σ : Type} [LoaderHost σ]

/-- The bundle that a load resolved to, if the call is a load that succeeded. -/
def acceptedId? (r : CallReport σ) : Option String :=
  match r.error?, r.call.resolution? r.before with
  | none, some (.ok id) => some id
  | _, _ => none

omit [LoaderHost σ] in
/-- The bundle that registered, if the call is a registration. -/
def registeredId? (r : CallReport σ) : Option String :=
  match r.call with
  | .registerBundle registration => some registration.bundleId
  | _ => none

end CallReport

namespace Loader

variable {σ κ : Type} [LoaderHost σ]

/-- A loader that has done nothing yet. -/
def new (host : σ) (registry : Registry) (options : LoaderOptions) : Loader σ κ :=
  { host, registry, options }

def current (l : Loader σ Nat) (reports : List (CallReport σ)) : Loader σ Nat :=
  (reports.getLast?.map (·.after)).getD l

def addReport (l : Loader σ Nat) (reports : List (CallReport σ)) (call : LoaderCall σ) :
    List (CallReport σ) :=
  reports ++ [call.report (l.current reports) reports.length]

def run (l : Loader σ Nat) (calls : List (LoaderCall σ)) : List (CallReport σ) :=
  calls.foldl l.addReport []

omit [LoaderHost σ] in
@[simp] theorem current_append (l : Loader σ Nat) (reports : List (CallReport σ))
    (r : CallReport σ) : l.current (reports ++ [r]) = r.after := by
  simp [current]

/-- A property of all runs holds at the start and is kept by every call. -/
theorem reports_induction {l : Loader σ Nat} {P : List (CallReport σ) → Prop} (nil : P [])
    (step : ∀ reports call, P reports → P (l.addReport reports call))
    (calls : List (LoaderCall σ)) :
    P (l.run calls) := by
  unfold run
  suffices h : ∀ reports, P reports → P (calls.foldl l.addReport reports) from h [] nil
  induction calls with
  | nil => exact fun reports h => h
  | cons call calls ih => exact fun reports h => ih _ (step reports call h)

end Loader

/-! ## Reading reports -/

section Reading

variable {σ : Type} [LoaderHost σ]

/-- The waiters of the loads accepted for a bundle, in the order of their calls. -/
def accepted (reports : List (CallReport σ)) (id : String) : List Nat :=
  (reports.zipIdx.filter fun p => p.1.acceptedId? = some id).map (·.2)

omit [LoaderHost σ] in
def hasRegistered (reports : List (CallReport σ)) (id : String) : Bool :=
  reports.any fun r => r.registeredId? = some id

omit [LoaderHost σ] in
/-- The waiters made ready, in the order in which they were. -/
def readied (reports : List (CallReport σ)) : List Nat := reports.flatMap (·.ready)

theorem accepted_append (reports : List (CallReport σ)) (r : CallReport σ) (id : String) :
    accepted (reports ++ [r]) id =
      accepted reports id ++ (if r.acceptedId? = some id then [reports.length] else []) := by
  unfold accepted
  rw [List.zipIdx_append, List.filter_append, List.map_append]
  by_cases h : r.acceptedId? = some id <;> simp [h]

theorem accepted_append_of_none (reports : List (CallReport σ)) {r : CallReport σ}
    (h : r.acceptedId? = none) (id : String) :
    accepted (reports ++ [r]) id = accepted reports id := by
  rw [accepted_append, h]
  simp

omit [LoaderHost σ] in
theorem hasRegistered_append (reports : List (CallReport σ)) (r : CallReport σ) (id : String) :
    hasRegistered (reports ++ [r]) id =
      (hasRegistered reports id || decide (r.registeredId? = some id)) := by
  simp [hasRegistered]

omit [LoaderHost σ] in
theorem readied_append (reports : List (CallReport σ)) (r : CallReport σ) :
    readied (reports ++ [r]) = readied reports ++ r.ready := by
  simp [readied]

theorem mem_accepted {reports : List (CallReport σ)} {id : String} {n : Nat} :
    n ∈ accepted reports id ↔ ∃ r, reports[n]? = some r ∧ r.acceptedId? = some id := by
  simp only [accepted, List.mem_map, List.mem_filter, decide_eq_true_eq, Prod.exists,
    List.mem_zipIdx_iff_getElem?]
  constructor
  · rintro ⟨r, m, ⟨hr, hid⟩, rfl⟩
    exact ⟨r, hr, hid⟩
  · rintro ⟨r, hr, hid⟩
    exact ⟨r, n, ⟨hr, hid⟩, rfl⟩

theorem lt_length_of_mem_accepted {reports : List (CallReport σ)} {id : String} {n : Nat}
    (h : n ∈ accepted reports id) : n < reports.length := by
  obtain ⟨r, hr, -⟩ := mem_accepted.1 h
  exact (List.getElem?_eq_some_iff.1 hr).1

theorem accepted_unique {reports : List (CallReport σ)} {a b : String} {n : Nat}
    (ha : n ∈ accepted reports a) (hb : n ∈ accepted reports b) : a = b := by
  obtain ⟨r, hr, hra⟩ := mem_accepted.1 ha
  obtain ⟨s, hs, hsb⟩ := mem_accepted.1 hb
  obtain rfl : r = s := by rw [hr] at hs; exact Option.some.inj hs
  exact Option.some.inj (hra.symm.trans hsb)

theorem accepted_pairwise (reports : List (CallReport σ)) (id : String) :
    (accepted reports id).Pairwise (· < ·) := by
  unfold accepted
  have hidx : reports.zipIdx.Pairwise (fun p q => p.2 < q.2) := by
    rw [← List.pairwise_map (R := (· < ·)), List.zipIdx_map_snd]
    exact List.pairwise_lt_range'
  exact List.pairwise_map.2 (hidx.filter _)

end Reading

end ComponentBundle
