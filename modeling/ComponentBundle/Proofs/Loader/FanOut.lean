import ComponentBundle.Proofs.Loader.Run

/-!
# Waiters are made ready once and in order

`waiters_ready_once_in_order`: in every run, the waiters of the loads that succeed for a bundle are
made ready exactly once, in the order of their loads, from the first registration of the bundle on.

The proof carries one invariant along the run (`Tracked`): what the loader holds as loaded and
waiting is what the reports say. A call can only change it in three ways, one for each kind of call:
a load puts its waiter behind the others or makes it ready at once, a registration empties a queue,
and everything else leaves loaded bundles and waiters alone (`tracked_addReport`).
-/

namespace ComponentBundle

variable {σ : Type} [LoaderHost σ]

/-! ## What a single call does -/

/-- The call of a report is a load that awaits a bundle, a registration, or a call that makes
nobody ready and leaves the loaded bundles and the waiters as they were. -/
inductive CallReport.Effect (r : CallReport σ) (n : Nat) : Prop where
  | load (id : String) (accepts : r.acceptedId? = some id) (loads : r.registeredId? = none)
      (error : r.error? = none) (after : r.after = (r.before.await id n).1)
      (ready : r.ready = (r.before.await id n).2)
  | registration (b : BundleRegistration) (accepts : r.acceptedId? = none)
      (registers : r.registeredId? = some b.bundleId) (error : r.error? = none)
      (after : r.after = (r.before.registerBundle b).1)
      (ready : r.ready = (r.before.registerBundle b).2)
  | quiet (accepts : r.acceptedId? = none) (registers : r.registeredId? = none)
      (loaded : r.after.loaded = r.before.loaded) (waiters : r.after.waiters = r.before.waiters)
      (failure : r.error?.isSome → r.after = r.before) (ready : r.ready = [])

theorem LoaderCall.effect_loadReport {call : LoaderCall σ} {l : Loader σ Nat} {n : Nat}
    {resolved : Except LoaderError String} (hres : call.resolution? l = some resolved)
    (hreg : ∀ b, call ≠ .registerBundle b) :
    (call.loadReport l (l.awaitResolved resolved n)).Effect n := by
  have hnone : ∀ report : CallReport σ, report.call = call → report.registeredId? = none := by
    intro report hcall
    unfold CallReport.registeredId?
    split
    · rename_i b hb
      exact absurd (hcall ▸ hb) (hreg b)
    · rfl
  cases resolved with
  | error e => exact .quiet rfl (hnone _ rfl) rfl rfl (fun _ => rfl) rfl
  | ok id =>
    refine .load id ?_ (hnone _ rfl) rfl rfl rfl
    simp [CallReport.acceptedId?, loadReport, Loader.awaitResolved, hres]

theorem LoaderCall.effect_report (call : LoaderCall σ) (l : Loader σ Nat) (n : Nat) :
    (call.report l n).Effect n := by
  cases call with
  | loadBundle c mode =>
    rw [report, Loader.loadBundle_eq]
    exact effect_loadReport rfl (by simp)
  | loadElement tag mode =>
    rw [report, Loader.loadElement_eq]
    exact effect_loadReport rfl (by simp)
  | completeRequest url outcome =>
    exact .quiet rfl rfl (Loader.completeRequest_loaded l url outcome)
      (Loader.completeRequest_waiters l url outcome) (by simp [report]) rfl
  | registerBundle b => exact .registration b rfl rfl rfl rfl rfl
  | hostChange host => exact .quiet rfl rfl rfl rfl (by simp [report]) rfl

@[simp] theorem LoaderCall.before_report (call : LoaderCall σ) (l : Loader σ Nat) (n : Nat) :
    (call.report l n).before = l := by
  cases call with
  | loadBundle c mode => simp only [report, loadReport]; split <;> rfl
  | loadElement tag mode => simp only [report, loadReport]; split <;> rfl
  | completeRequest url outcome => rfl
  | registerBundle b => rfl
  | hostChange host => rfl

/-! ## The invariant -/

/-- A loader holds what the reports of its run say. -/
structure Tracked (l : Loader σ Nat) (reports : List (CallReport σ)) : Prop where
  loaded : ∀ id, (l.current reports).isLoaded id = hasRegistered reports id
  waiting : ∀ id, (l.current reports).waitersOf id =
    if hasRegistered reports id then [] else accepted reports id
  readied_accepted : ∀ n ∈ readied reports, ∃ id, n ∈ accepted reports id
  /-- Those made ready for a bundle, in order. -/
  readied_filter : ∀ id, (readied reports).filter (· ∈ accepted reports id) =
    if hasRegistered reports id then accepted reports id else []

theorem Tracked.lt_length {l : Loader σ Nat} {reports : List (CallReport σ)}
    (h : Tracked l reports) {n : Nat} (hn : n ∈ readied reports) : n < reports.length := by
  obtain ⟨id, hid⟩ := h.readied_accepted n hn
  exact lt_length_of_mem_accepted hid

theorem Tracked.filter_readied_append {l : Loader σ Nat} {reports : List (CallReport σ)}
    (h : Tracked l reports) (r : CallReport σ) (id : String) :
    (readied reports).filter (· ∈ accepted (reports ++ [r]) id) =
      if hasRegistered reports id then accepted reports id else [] := by
  rw [← h.readied_filter id]
  refine List.filter_congr fun n hn => ?_
  have hlt := h.lt_length hn
  rw [accepted_append]
  split
  · simp [Nat.ne_of_lt hlt]
  · simp

theorem filter_accepted (reports : List (CallReport σ)) (a b : String) :
    (accepted reports a).filter (· ∈ accepted reports b) =
      if a = b then accepted reports a else [] := by
  split
  · rename_i h
    subst h
    simp
  · rename_i h
    refine List.filter_eq_nil_iff.2 fun n hn hb => h (accepted_unique hn (by simpa using hb))

theorem tracked_nil (host : σ) (registry : Registry) (options : LoaderOptions) :
    Tracked (Loader.new host registry options) [] where
  loaded _ := rfl
  waiting _ := rfl
  readied_accepted := by simp [readied]
  readied_filter _ := rfl

theorem length_notMem_accepted (reports : List (CallReport σ)) (id : String) :
    reports.length ∉ accepted reports id :=
  fun h => Nat.lt_irrefl _ (lt_length_of_mem_accepted h)

section Step

variable {l : Loader σ Nat} {reports : List (CallReport σ)} {r : CallReport σ}

theorem Tracked.load (h : Tracked l reports) (hbefore : r.before = l.current reports) {id : String}
    (haccepts : r.acceptedId? = some id) (hloads : r.registeredId? = none)
    (hafter : r.after = (r.before.await id reports.length).1)
    (hready : r.ready = (r.before.await id reports.length).2) : Tracked l (reports ++ [r]) := by
  have hlen := length_notMem_accepted reports
  rw [hbefore] at hafter hready
  rw [Loader.await_ready, h.loaded] at hready
  refine ⟨fun a => ?_, fun a => ?_, fun n hn => ?_, fun a => ?_⟩
  · rw [Loader.current_append, hafter, Loader.isLoaded, Loader.await_loaded, ← Loader.isLoaded,
      h.loaded, hasRegistered_append, hloads]
    simp
  · rw [Loader.current_append, hafter, Loader.waitersOf_await, h.waiting, h.loaded,
      hasRegistered_append, accepted_append, hloads, haccepts]
    by_cases ha : a = id
    · subst ha
      cases hasRegistered reports a <;> simp
    · have ha' : ¬ id = a := fun hc => ha hc.symm
      simp [ha, ha']
  · rw [readied_append, List.mem_append] at hn
    rcases hn with hn | hn
    · obtain ⟨a, ha⟩ := h.readied_accepted n hn
      exact ⟨a, by rw [accepted_append]; exact List.mem_append_left _ ha⟩
    · refine ⟨id, ?_⟩
      rw [accepted_append, if_pos haccepts]
      rw [hready] at hn
      split at hn
      · exact List.mem_append_right _ hn
      · simp at hn
  · rw [readied_append, List.filter_append, h.filter_readied_append, hasRegistered_append,
      hloads, accepted_append, hready, haccepts]
    by_cases ha : id = a
    · subst ha
      cases hasRegistered reports id <;> simp
    · cases hasRegistered reports id <;> simp [ha, hlen a]

theorem Tracked.registration (h : Tracked l reports) (hbefore : r.before = l.current reports)
    {b : BundleRegistration} (haccepts : r.acceptedId? = none)
    (hregisters : r.registeredId? = some b.bundleId)
    (hafter : r.after = (r.before.registerBundle b).1)
    (hready : r.ready = (r.before.registerBundle b).2) : Tracked l (reports ++ [r]) := by
  rw [hbefore] at hafter hready
  rw [Loader.registerBundle_ready, h.waiting] at hready
  have hsame := accepted_append_of_none reports haccepts
  refine ⟨fun a => ?_, fun a => ?_, fun n hn => ?_, fun a => ?_⟩
  · rw [Loader.current_append, hafter, Loader.isLoaded_registerBundle, h.loaded,
      hasRegistered_append, hregisters, Bool.or_comm]
    simp [eq_comm]
  · rw [Loader.current_append, hafter, Loader.waitersOf_registerBundle, h.waiting,
      hasRegistered_append, hsame, hregisters]
    by_cases ha : a = b.bundleId
    · simp [ha]
    · have ha' : ¬ b.bundleId = a := fun hc => ha hc.symm
      simp [ha, ha']
  · rw [readied_append, List.mem_append] at hn
    rcases hn with hn | hn
    · obtain ⟨a, ha⟩ := h.readied_accepted n hn
      exact ⟨a, by rw [hsame]; exact ha⟩
    · rw [hready] at hn
      split at hn
      · simp at hn
      · exact ⟨b.bundleId, by rw [hsame]; exact hn⟩
  · rw [readied_append, List.filter_append, h.filter_readied_append, hasRegistered_append,
      hregisters, hsame, hready]
    by_cases ha : b.bundleId = a
    · subst ha
      cases hasRegistered reports b.bundleId <;> simp
    · cases hasRegistered reports b.bundleId
      · simp only [Bool.false_eq_true, if_false, filter_accepted, ha, Option.some.injEq,
          decide_false, Bool.or_false, List.append_nil]
      · simp [ha]

theorem Tracked.quiet (h : Tracked l reports) (hbefore : r.before = l.current reports)
    (haccepts : r.acceptedId? = none) (hregisters : r.registeredId? = none)
    (hloaded : r.after.loaded = r.before.loaded) (hwaiters : r.after.waiters = r.before.waiters)
    (hready : r.ready = []) : Tracked l (reports ++ [r]) := by
  rw [hbefore] at hloaded hwaiters
  have hsame := accepted_append_of_none reports haccepts
  have hreg : ∀ a, hasRegistered (reports ++ [r]) a = hasRegistered reports a := by
    intro a
    rw [hasRegistered_append, hregisters]
    simp
  have hreadied : readied (reports ++ [r]) = readied reports := by
    rw [readied_append, hready, List.append_nil]
  refine ⟨fun a => ?_, fun a => ?_, fun n hn => ?_, fun a => ?_⟩
  · rw [Loader.current_append, hreg, ← h.loaded, Loader.isLoaded, hloaded, Loader.isLoaded]
  · rw [Loader.current_append, hreg, hsame, ← h.waiting, Loader.waitersOf, hwaiters,
      Loader.waitersOf]
  · rw [hreadied] at hn
    rw [funext hsame]
    exact h.readied_accepted n hn
  · rw [hreadied, hreg, hsame]
    exact h.readied_filter a

end Step

theorem tracked_addReport {l : Loader σ Nat} {reports : List (CallReport σ)}
    (h : Tracked l reports) (call : LoaderCall σ) : Tracked l (l.addReport reports call) := by
  have hbefore := call.before_report (l.current reports) reports.length
  cases call.effect_report (l.current reports) reports.length with
  | load id accepts loads error after ready => exact h.load hbefore accepts loads after ready
  | registration b accepts registers error after ready =>
    exact h.registration hbefore accepts registers after ready
  | quiet accepts registers loaded waiters failure ready =>
    exact h.quiet hbefore accepts registers loaded waiters ready

/-! ## Runs -/

/-- What a call does, by the reports of the calls before it. -/
structure CallInOrder (l : Loader σ Nat) (earlier : List (CallReport σ)) (r : CallReport σ) :
    Prop where
  start : r.before = l.current earlier
  /-- A load of a bundle that has registered is ready before it returns. -/
  load : ∀ id, r.acceptedId? = some id →
    r.ready = if hasRegistered earlier id then [earlier.length] else []
  /-- The first registration makes ready all that were accepted before, a later one nobody. -/
  registration : ∀ id, r.registeredId? = some id →
    r.ready = if hasRegistered earlier id then [] else accepted earlier id
  /-- A call that fails changes nothing, the host included. -/
  failure : r.error?.isSome → r.after = r.before ∧ r.ready = []
  completion : ∀ url outcome, r.call = .completeRequest url outcome →
    r.ready = [] ∧ ∀ id, r.after.isLoaded id = r.before.isLoaded id

theorem CallReport.acceptedId?_completeRequest {r : CallReport σ} {url : String}
    {o : RequestOutcome} (h : r.call = .completeRequest url o) : r.acceptedId? = none := by
  unfold acceptedId?
  rw [h]
  cases r.error? <;> rfl

omit [LoaderHost σ] in
theorem CallReport.registeredId?_completeRequest {r : CallReport σ} {url : String}
    {o : RequestOutcome} (h : r.call = .completeRequest url o) : r.registeredId? = none := by
  unfold registeredId?
  rw [h]

theorem Tracked.callInOrder {l : Loader σ Nat} {earlier : List (CallReport σ)}
    (h : Tracked l earlier) (call : LoaderCall σ) :
    CallInOrder l earlier (call.report (l.current earlier) earlier.length) := by
  have hbefore := call.before_report (l.current earlier) earlier.length
  have heffect := call.effect_report (l.current earlier) earlier.length
  revert hbefore heffect
  generalize call.report (l.current earlier) earlier.length = r
  intro hbefore heffect
  cases heffect with
  | load id accepts loads error after ready =>
    rw [hbefore, Loader.await_ready, h.loaded] at ready
    refine ⟨hbefore, fun a ha => ?_, fun a ha => ?_, fun hfail => ?_, fun url o hcall => ?_⟩
    · obtain rfl : id = a := by rw [accepts] at ha; exact Option.some.inj ha
      exact ready
    · simp [loads] at ha
    · simp [error] at hfail
    · simp [r.acceptedId?_completeRequest hcall] at accepts
  | registration b accepts registers error after ready =>
    rw [hbefore, Loader.registerBundle_ready, h.waiting] at ready
    refine ⟨hbefore, fun a ha => ?_, fun a ha => ?_, fun hfail => ?_, fun url o hcall => ?_⟩
    · simp [accepts] at ha
    · obtain rfl : b.bundleId = a := by rw [registers] at ha; exact Option.some.inj ha
      exact ready
    · simp [error] at hfail
    · simp [r.registeredId?_completeRequest hcall] at registers
  | quiet accepts registers loaded waiters failure ready =>
    refine ⟨hbefore, fun a ha => ?_, fun a ha => ?_, fun hfail => ?_, fun url o hcall => ?_⟩
    · simp [accepts] at ha
    · simp [registers] at ha
    · exact ⟨failure hfail, ready⟩
    · exact ⟨ready, fun a => by rw [Loader.isLoaded, loaded, Loader.isLoaded]⟩

theorem tracked_run (host : σ) (registry : Registry) (options : LoaderOptions)
    (calls : List (LoaderCall σ)) :
    Tracked (Loader.new host registry options) ((Loader.new host registry options).run calls) :=
  Loader.reports_induction (tracked_nil host registry options)
    (fun _ call h => tracked_addReport h call) calls

theorem callInOrder_run (host : σ) (registry : Registry) (options : LoaderOptions)
    (calls : List (LoaderCall σ)) {earlier later : List (CallReport σ)} {r : CallReport σ}
    (h : (Loader.new host registry options).run calls = earlier ++ r :: later) :
    CallInOrder (Loader.new host registry options) earlier r := by
  let l : Loader σ Nat := Loader.new host registry options
  -- that a call is in order needs the invariant of the reports before it, so both are carried
  let P : List (CallReport σ) → Prop := fun reports => Tracked l reports ∧
    ∀ earlier r later, reports = earlier ++ r :: later → CallInOrder l earlier r
  have hP : P (l.run calls) := by
    refine Loader.reports_induction ⟨tracked_nil host registry options, by simp⟩ ?_ calls
    rintro reports call ⟨htracked, hinorder⟩
    refine ⟨tracked_addReport htracked call, fun earlier r later heq => ?_⟩
    rcases List.eq_nil_or_concat later with rfl | ⟨later, last, rfl⟩
    · obtain ⟨rfl, hr⟩ := List.append_inj' heq rfl
      obtain rfl := List.singleton_inj.1 hr
      exact htracked.callInOrder call
    · rw [List.concat_eq_append, ← List.cons_append, ← List.append_assoc] at heq
      exact hinorder earlier r later (List.append_inj' heq rfl).1
  exact hP.2 earlier r later h

/-- The waiters of a run are made ready as its loads and registrations say. -/
structure ReadyOnceInOrder (l : Loader σ Nat) (reports : List (CallReport σ)) : Prop where
  /-- Waiters are numbered by their calls, so this is the order of the loads. -/
  order : ∀ id, (accepted reports id).Pairwise (· < ·)
  /-- All of a bundle that has registered, each once and in order. -/
  registered : ∀ id, hasRegistered reports id = true →
    (readied reports).filter (· ∈ accepted reports id) = accepted reports id
  /-- None of a bundle that has not, and all of them wait. -/
  unregistered : ∀ id, hasRegistered reports id = false →
    (∀ n ∈ accepted reports id, n ∉ readied reports) ∧
      (l.current reports).waitersOf id = accepted reports id
  failed : ∀ (n : Nat) (r : CallReport σ), reports[n]? = some r → r.error?.isSome →
    n ∉ readied reports
  loaded : ∀ id, (l.current reports).isLoaded id = hasRegistered reports id
  calls : ∀ earlier r later, reports = earlier ++ r :: later → CallInOrder l earlier r

/-- **Waiters are made ready exactly once and in the order of their loads**, from the first
registration of their bundle on, in every run of every loader. -/
theorem waiters_ready_once_in_order (host : σ) (registry : Registry) (options : LoaderOptions)
    (calls : List (LoaderCall σ)) :
    ReadyOnceInOrder (Loader.new host registry options)
      ((Loader.new host registry options).run calls) := by
  have h := tracked_run host registry options calls
  refine ⟨accepted_pairwise _, fun id hid => ?_, fun id hid => ⟨?_, ?_⟩, ?_, h.loaded,
    fun earlier r later => callInOrder_run host registry options calls⟩
  · rw [h.readied_filter, if_pos hid]
  · have hnone := h.readied_filter id
    rw [hid, if_neg Bool.false_ne_true, List.filter_eq_nil_iff] at hnone
    intro n hn hready
    exact hnone n hready (by simpa using hn)
  · rw [h.waiting, hid, if_neg Bool.false_ne_true]
  · intro n r hr herror hready
    obtain ⟨id, hid⟩ := h.readied_accepted n hready
    obtain ⟨s, hs, haccepts⟩ := mem_accepted.1 hid
    obtain rfl : r = s := Option.some.inj (hr.symm.trans hs)
    obtain ⟨e, he⟩ := Option.isSome_iff_exists.1 herror
    simp [CallReport.acceptedId?, he] at haccepts

/-- Two loads of one bundle and one of an unknown tag; the bundle registers and is loaded again. -/
example :
    readied ((Loader.new ({ nativeShadow := true } : DocumentLog)
      (.ofComponents [{ tag := "a", bundleIds := some (.single "x") }]) {}).run
        [.loadElement "a" none, .loadElement "b" none, .loadElement "a" none,
          .registerBundle ⟨"x", []⟩, .loadElement "a" none]) = [0, 2, 4] := by decide

end ComponentBundle
