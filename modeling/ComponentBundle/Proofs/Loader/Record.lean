import ComponentBundle.Proofs.Loader.FanOut

/-!
# What a loader asks of its host

`Recorded σ` is any host `σ` with a record of what it was asked. A loader cannot tell the two apart
(`Loader.forget_run`), so what holds of all loaders on recorded hosts is what all loaders ask of
their hosts.

* `injections`, `removals`, `timersStarted`, `cancellations`, `stylesAppended` : what a record says;
* `request_of_free`, `completeRequest_of_some`, `installStyles_events` : what the operations record;
* `LoaderCall.traffic_report` : a call opens a request, ends one, or leaves all of them alone;
* `Loader.forget_run` : without the record, a run is a run on the host itself.
-/

namespace ComponentBundle

/-! ## Recorded hosts -/

/-- A host with a record of what it was asked, the oldest first. -/
structure Recorded (σ : Type) where
  host : σ
  events : List HostEvent := []

namespace Recorded

variable {σ : Type} [LoaderHost σ]

instance : LoaderHost (Recorded σ) where
  hasNativeShadow h := LoaderHost.hasNativeShadow h.host
  injectScript h url :=
    let (script, host) := LoaderHost.injectScript h.host url
    (script, ⟨host, h.events ++ [.injectScript script url]⟩)
  removeScript h script :=
    ⟨LoaderHost.removeScript h.host script, h.events ++ [.removeScript script]⟩
  startTimer h url timeout :=
    let (timer, host) := LoaderHost.startTimer h.host url timeout
    (timer, ⟨host, h.events ++ [.startTimer timer url timeout]⟩)
  cancelTimer h timer := ⟨LoaderHost.cancelTimer h.host timer, h.events ++ [.cancelTimer timer]⟩
  appendStyle h style := ⟨LoaderHost.appendStyle h.host style, h.events ++ [.appendStyle style]⟩

end Recorded

/-! ## Reading a record -/

def injections (events : List HostEvent) : List (ScriptId × String) :=
  events.filterMap fun
    | .injectScript script url => some (script, url)
    | _ => none

def removals (events : List HostEvent) : List ScriptId :=
  events.filterMap fun
    | .removeScript script => some script
    | _ => none

def timersStarted (events : List HostEvent) : List (TimerId × String) :=
  events.filterMap fun
    | .startTimer timer url _ => some (timer, url)
    | _ => none

def cancellations (events : List HostEvent) : List TimerId :=
  events.filterMap fun
    | .cancelTimer timer => some timer
    | _ => none

def stylesAppended (events : List HostEvent) : List StyleElement :=
  events.filterMap fun
    | .appendStyle style => some style
    | _ => none

section Reading

variable (as bs : List HostEvent) (styles : List StyleElement)

@[simp] theorem injections_append : injections (as ++ bs) = injections as ++ injections bs :=
  List.filterMap_append

@[simp] theorem removals_append : removals (as ++ bs) = removals as ++ removals bs :=
  List.filterMap_append

@[simp] theorem timersStarted_append :
    timersStarted (as ++ bs) = timersStarted as ++ timersStarted bs := List.filterMap_append

@[simp] theorem cancellations_append :
    cancellations (as ++ bs) = cancellations as ++ cancellations bs := List.filterMap_append

@[simp] theorem injections_styles : injections (styles.map .appendStyle) = [] := by
  simp [injections]

@[simp] theorem removals_styles : removals (styles.map .appendStyle) = [] := by simp [removals]

@[simp] theorem timersStarted_styles : timersStarted (styles.map .appendStyle) = [] := by
  simp [timersStarted]

@[simp] theorem cancellations_styles : cancellations (styles.map .appendStyle) = [] := by
  simp [cancellations]

end Reading

/-! ## Operations -/

namespace Loader

variable {σ : Type} [LoaderHost σ]

/-- The style element that a registration adds to the document, if it adds one. -/
def newStyle? {κ : Type} (l : Loader σ κ) (r : BundleRegistration) : Option StyleElement :=
  let text := String.join (((groupByTag r.styles).filter l.isDocumentEntry).map (·.2))
  if text = "" ∨ l.appended.contains ("style-" ++ r.bundleId) then none
  else some ⟨"style-" ++ r.bundleId, text⟩

section Fields

variable {κ : Type} (l : Loader σ κ) (id : String) (url : String)

@[simp] theorem request_options : (l.request id).options = l.options := by
  unfold request; dsimp only; split <;> rfl

@[simp] theorem request_registry : (l.request id).registry = l.registry := by
  unfold request; dsimp only; split <;> rfl

@[simp] theorem completeRequest_options (o : RequestOutcome) :
    (l.completeRequest url o).options = l.options := by
  unfold completeRequest; split <;> rfl

@[simp] theorem completeRequest_registry (o : RequestOutcome) :
    (l.completeRequest url o).registry = l.registry := by
  unfold completeRequest; split <;> rfl

@[simp] theorem installStyles_options (r : BundleRegistration) :
    (l.installStyles r).options = l.options := by
  unfold installStyles; dsimp only; split <;> rfl

@[simp] theorem installStyles_registry (r : BundleRegistration) :
    (l.installStyles r).registry = l.registry := by
  unfold installStyles; dsimp only; split <;> rfl

@[simp] theorem installStyles_inFlight (r : BundleRegistration) :
    (l.installStyles r).inFlight = l.inFlight := by
  unfold installStyles; dsimp only; split <;> rfl

@[simp] theorem await_options (w : κ) : (l.await id w).1.options = l.options := by
  unfold await
  split
  · rfl
  · exact request_options _ id

@[simp] theorem await_registry (w : κ) : (l.await id w).1.registry = l.registry := by
  unfold await
  split
  · rfl
  · exact request_registry _ id

end Fields

section Requests

variable {κ : Type} {l : Loader (Recorded σ) κ} {id url : String}

theorem request_of_pending (h : l.isPending (l.bundleUrl id) = true) : l.request id = l := by
  unfold request
  rw [if_pos h]

theorem request_of_free (h : l.isPending (l.bundleUrl id) = false) :
    ∃ script timer,
      (l.request id).inFlight = l.inFlight.insert (l.bundleUrl id) ⟨script, timer⟩ ∧
      (l.request id).host.events = l.host.events ++
        [.injectScript script (l.bundleUrl id),
          .startTimer timer (l.bundleUrl id) l.options.requestTimeout] := by
  let injected := LoaderHost.injectScript l.host.host (l.bundleUrl id)
  let started := LoaderHost.startTimer injected.2 (l.bundleUrl id) l.options.requestTimeout
  refine ⟨injected.1, started.1, ?_, ?_⟩
  · unfold request
    rw [if_neg (by simp [h])]
    rfl
  · unfold request
    rw [if_neg (by simp [h])]
    show l.host.events ++ [_] ++ [_] = _
    rw [List.append_assoc]
    rfl

theorem completeRequest_of_none (h : l.inFlight.get? url = none) (o : RequestOutcome) :
    l.completeRequest url o = l := by
  unfold completeRequest
  rw [h]

theorem completeRequest_of_some {p : PendingRequest} (h : l.inFlight.get? url = some p)
    (o : RequestOutcome) :
    (l.completeRequest url o).inFlight = l.inFlight.erase url ∧
      (l.completeRequest url o).host.events = l.host.events ++
        ((if o = .timedOut then [] else [.cancelTimer p.timer]) ++ [.removeScript p.script]) := by
  unfold completeRequest
  rw [h]
  refine ⟨rfl, ?_⟩
  by_cases ho : o = .timedOut
  · simp only [ho, if_true]
    rfl
  · simp only [ho, if_false]
    show l.host.events ++ [_] ++ [_] = _
    rw [List.append_assoc]

theorem installStyles_events (l : Loader (Recorded σ) κ) (r : BundleRegistration) :
    (l.installStyles r).host.events =
      l.host.events ++ (l.newStyle? r).toList.map .appendStyle := by
  unfold installStyles newStyle?
  dsimp only
  split
  · simp
  · rfl

/-- A load whose bundle is neither there nor requested opens a request, and no other one touches the
host. -/
theorem await_cases (l : Loader (Recorded σ) κ) (id : String) (w : κ) :
    ((l.isLoaded id = true ∨ l.isPending (l.bundleUrl id) = true) ∧
      (l.await id w).1.inFlight = l.inFlight ∧ (l.await id w).1.host = l.host) ∨
    (l.isLoaded id = false ∧ l.isPending (l.bundleUrl id) = false ∧ ∃ script timer,
      (l.await id w).1.inFlight = l.inFlight.insert (l.bundleUrl id) ⟨script, timer⟩ ∧
      (l.await id w).1.host.events = l.host.events ++
        [.injectScript script (l.bundleUrl id),
          .startTimer timer (l.bundleUrl id) l.options.requestTimeout]) := by
  unfold await
  cases hloaded : l.isLoaded id with
  | true => exact .inl ⟨.inl rfl, rfl, rfl⟩
  | false =>
    rw [if_neg Bool.false_ne_true]
    cases hpending : l.isPending (l.bundleUrl id) with
    | true =>
      have hqueued : (l.enqueue id w).isPending ((l.enqueue id w).bundleUrl id) = true := hpending
      rw [request_of_pending hqueued]
      exact .inl ⟨.inr rfl, rfl, rfl⟩
    | false =>
      have hqueued : (l.enqueue id w).isPending ((l.enqueue id w).bundleUrl id) = false :=
        hpending
      exact .inr ⟨rfl, rfl, request_of_free hqueued⟩

theorem isPending_await (h : l.isLoaded id = false) (w : κ) :
    (l.await id w).1.isPending (l.bundleUrl id) = true := by
  rcases l.await_cases id w with ⟨hbusy, hinFlight, -⟩ | ⟨-, -, script, timer, hinFlight, -⟩
  · have hpending := hbusy.resolve_left (by simp [h])
    unfold isPending at hpending ⊢
    rw [hinFlight]
    exact hpending
  · unfold isPending SortedMap.contains
    rw [hinFlight]
    exact (congrArg Option.isSome (SortedMap.get?_insert_self _ _ _)).trans rfl

end Requests

end Loader

/-! ## Calls -/

section Calls

variable {σ : Type}

/-- What a call had the host do. -/
def CallReport.events (r : CallReport (Recorded σ)) : List HostEvent :=
  r.after.host.events.drop r.before.host.events.length

/-- Whether a call ended a request for a URL. -/
def CallReport.Completes (r : CallReport (Recorded σ)) (url : String) : Prop :=
  ∃ outcome, r.call = .completeRequest url outcome ∧ r.before.isPending url = true

/-- The timer that ran out when a call ended its request. -/
def CallReport.expired? (r : CallReport (Recorded σ)) : Option TimerId :=
  match r.call with
  | .completeRequest url .timedOut => (r.before.inFlight.get? url).map (·.timer)
  | _ => none

/-- No change of the host touches its record. -/
def KeepsRecord (reports : List (CallReport (Recorded σ))) : Prop :=
  ∀ r ∈ reports, ∀ host : Recorded σ, r.call = .hostChange host → host.events = r.before.host.events

theorem CallReport.events_of_append {r : CallReport (Recorded σ)} {new : List HostEvent}
    (h : r.after.host.events = r.before.host.events ++ new) : r.events = new := by
  unfold events
  rw [h, List.drop_left]

variable [LoaderHost σ]

/-- A call opens a request, ends one, or leaves the requests as they are. -/
inductive CallReport.Traffic (r : CallReport (Recorded σ)) : Prop where
  | opens (id : String) (script : ScriptId) (timer : TimerId) (timeout : Duration)
      (accepts : r.acceptedId? = some id) (missing : r.before.isLoaded id = false)
      (free : r.before.isPending (r.before.bundleUrl id) = false)
      (expired : r.expired? = none)
      (inFlight : r.after.inFlight =
        r.before.inFlight.insert (r.before.bundleUrl id) ⟨script, timer⟩)
      (events : r.after.host.events = r.before.host.events ++
        [.injectScript script (r.before.bundleUrl id),
          .startTimer timer (r.before.bundleUrl id) timeout])
  | ends (url : String) (outcome : RequestOutcome) (p : PendingRequest)
      (call : r.call = .completeRequest url outcome)
      (found : r.before.inFlight.get? url = some p)
      (inFlight : r.after.inFlight = r.before.inFlight.erase url)
      (events : r.after.host.events = r.before.host.events ++
        ((if outcome = .timedOut then [] else [.cancelTimer p.timer]) ++
          [.removeScript p.script]))
  | keeps (styles : List StyleElement)
      (appended : ∀ e ∈ styles, ∃ b, r.call = .registerBundle b ∧ r.before.newStyle? b = some e)
      (expired : r.expired? = none)
      (inFlight : r.after.inFlight = r.before.inFlight)
      (events : r.after.host.events = r.before.host.events ++ styles.map .appendStyle)

theorem LoaderCall.traffic_loadReport {call : LoaderCall (Recorded σ)}
    {l : Loader (Recorded σ) Nat} {n : Nat} {resolved : Except LoaderError String}
    (hres : call.resolution? l = some resolved)
    (hcall : ∀ url o, call ≠ .completeRequest url o) :
    (call.loadReport l (l.awaitResolved resolved n)).Traffic := by
  have hexpired : ∀ r : CallReport (Recorded σ), r.call = call → r.expired? = none := by
    intro r hr
    unfold CallReport.expired?
    split
    · rename_i url hc
      exact absurd (hr ▸ hc) (hcall url .timedOut)
    · rfl
  cases resolved with
  | error e =>
    exact .keeps [] (by simp) (hexpired _ rfl) rfl (by simp [loadReport, Loader.awaitResolved])
  | ok id =>
    rcases l.await_cases id n with
      ⟨-, hinFlight, hhost⟩ | ⟨hloaded, hpending, script, timer, hinFlight, hevents⟩
    · refine .keeps [] (by simp) (hexpired _ rfl) hinFlight ?_
      show (l.await id n).1.host.events = l.host.events ++ _
      rw [hhost, List.map_nil, List.append_nil]
    · refine .opens id script timer l.options.requestTimeout ?_ hloaded hpending (hexpired _ rfl)
        hinFlight hevents
      simp [CallReport.acceptedId?, loadReport, Loader.awaitResolved, hres]

theorem LoaderCall.traffic_report (call : LoaderCall (Recorded σ)) (l : Loader (Recorded σ) Nat)
    (n : Nat) (hkept : ∀ host, call = .hostChange host → host.events = l.host.events) :
    (call.report l n).Traffic := by
  cases call with
  | loadBundle c mode =>
    rw [report, Loader.loadBundle_eq]
    exact traffic_loadReport rfl (by simp)
  | loadElement tag mode =>
    rw [report, Loader.loadElement_eq]
    exact traffic_loadReport rfl (by simp)
  | completeRequest url outcome =>
    cases hfound : l.inFlight.get? url with
    | none =>
      refine .keeps [] (by simp) ?_ ?_ ?_
      · cases outcome <;> simp [CallReport.expired?, report, hfound]
      · show (l.completeRequest url outcome).inFlight = _
        rw [Loader.completeRequest_of_none hfound]
        rfl
      · show (l.completeRequest url outcome).host.events = _
        rw [Loader.completeRequest_of_none hfound]
        simp [report]
    | some p =>
      obtain ⟨hinFlight, hevents⟩ := Loader.completeRequest_of_some hfound outcome
      exact .ends url outcome p rfl hfound hinFlight hevents
  | registerBundle b =>
    refine .keeps (l.newStyle? b).toList ?_ rfl ?_ ?_
    · exact fun e he => ⟨b, rfl, Option.mem_toList.1 he⟩
    · exact Loader.installStyles_inFlight l b
    · exact Loader.installStyles_events l b
  | hostChange host =>
    refine .keeps [] (by simp) rfl rfl ?_
    show host.events = l.host.events ++ _
    rw [hkept host rfl]
    simp

omit [LoaderHost σ] in
@[simp] theorem LoaderCall.call_loadReport (call : LoaderCall σ) (l : Loader σ Nat)
    (result : Loader σ Nat × Except LoaderError (List Nat)) :
    (call.loadReport l result).call = call := by
  unfold loadReport
  split <;> rfl

@[simp] theorem LoaderCall.call_report (call : LoaderCall σ) (l : Loader σ Nat)
    (n : Nat) : (call.report l n).call = call := by
  cases call with
  | loadBundle c mode => exact call_loadReport _ _ _
  | loadElement tag mode => exact call_loadReport _ _ _
  | completeRequest url outcome => rfl
  | registerBundle b => rfl
  | hostChange host => rfl

theorem Loader.calls_run (l : Loader σ Nat) (calls : List (LoaderCall σ)) :
    (l.run calls).map (·.call) = calls := by
  unfold run
  suffices h : ∀ reports : List (CallReport σ),
      (calls.foldl l.addReport reports).map (·.call) = reports.map (·.call) ++ calls by
    simpa using h []
  induction calls with
  | nil => simp
  | cons call calls ih =>
    intro reports
    rw [List.foldl_cons, ih, addReport, List.map_append]
    simp

theorem LoaderCall.after_report {P : Loader σ Nat → Prop} (call : LoaderCall σ) (l : Loader σ Nat)
    (n : Nat) (same : P l) (await : ∀ id, P (l.await id n).1)
    (complete : ∀ url outcome, P (l.completeRequest url outcome))
    (register : ∀ b, call = .registerBundle b → P (l.registerBundle b).1)
    (change : ∀ host, P { l with host }) : P (call.report l n).after := by
  have hload : ∀ resolved : Except LoaderError String,
      P (call.loadReport l (l.awaitResolved resolved n)).after := by
    intro resolved
    cases resolved with
    | error e => exact same
    | ok id => exact await id
  cases call with
  | loadBundle c mode =>
    rw [report, Loader.loadBundle_eq]
    exact hload _
  | loadElement tag mode =>
    rw [report, Loader.loadElement_eq]
    exact hload _
  | completeRequest url outcome => exact complete url outcome
  | registerBundle b => exact register b rfl
  | hostChange host => exact change host

theorem LoaderCall.after_fixed (call : LoaderCall σ) (l : Loader σ Nat) (n : Nat) :
    (call.report l n).after.options = l.options ∧
      (call.report l n).after.registry = l.registry := by
  refine call.after_report (P := fun m => m.options = l.options ∧ m.registry = l.registry) l n
    ⟨rfl, rfl⟩ (fun id => ?_) (fun url outcome => ?_) (fun b _ => ?_) fun host => ⟨rfl, rfl⟩
  · exact ⟨Loader.await_options l id n, Loader.await_registry l id n⟩
  · exact ⟨Loader.completeRequest_options l url outcome,
      Loader.completeRequest_registry l url outcome⟩
  · exact ⟨Loader.installStyles_options l b, Loader.installStyles_registry l b⟩

theorem KeepsRecord.traffic {l : Loader (Recorded σ) Nat} {reports : List (CallReport (Recorded σ))}
    {call : LoaderCall (Recorded σ)} (h : KeepsRecord (l.addReport reports call)) :
    (call.report (l.current reports) reports.length).Traffic := by
  refine call.traffic_report _ _ fun host hcall => ?_
  have hkept := h _ (List.mem_append_right _ (List.mem_singleton_self _)) host
  rw [call.before_report, call.call_report] at hkept
  exact hkept hcall

theorem keepsRecord_run {l : Loader (Recorded σ) Nat} {calls : List (LoaderCall (Recorded σ))}
    (h : ∀ host, .hostChange host ∉ calls) : KeepsRecord (l.run calls) := by
  intro r hr host hcall
  have hmem : r.call ∈ (l.run calls).map (·.call) := List.mem_map_of_mem hr
  rw [Loader.calls_run, hcall] at hmem
  exact absurd hmem (h host)

end Calls

/-! ## Forgetting the record -/

section Forget

variable {σ κ : Type}

def Loader.forget (l : Loader (Recorded σ) κ) : Loader σ κ :=
  ⟨l.host.host, l.registry, l.options, l.loaded, l.waiters, l.inFlight, l.templates, l.appended⟩

def LoaderCall.forget : LoaderCall (Recorded σ) → LoaderCall σ
  | loadBundle c mode => .loadBundle c mode
  | loadElement tag mode => .loadElement tag mode
  | completeRequest url outcome => .completeRequest url outcome
  | registerBundle r => .registerBundle r
  | hostChange host => .hostChange host.host

def CallReport.forget (r : CallReport (Recorded σ)) : CallReport σ :=
  ⟨r.call.forget, r.before.forget, r.after.forget, r.error?, r.ready⟩

variable [LoaderHost σ]

theorem Loader.forget_request (l : Loader (Recorded σ) κ) (id : String) :
    (l.request id).forget = l.forget.request id := by
  unfold request
  dsimp only
  show (if l.isPending (l.bundleUrl id) then l else _).forget =
    if l.isPending (l.bundleUrl id) then l.forget else _
  split <;> rfl

theorem Loader.forget_completeRequest (l : Loader (Recorded σ) κ) (url : String)
    (o : RequestOutcome) : (l.completeRequest url o).forget = l.forget.completeRequest url o := by
  unfold completeRequest
  have hsame : l.forget.inFlight = l.inFlight := rfl
  rw [hsame]
  cases l.inFlight.get? url with
  | none => rfl
  | some p => cases o <;> rfl

theorem Loader.forget_registerBundle (l : Loader (Recorded σ) κ) (r : BundleRegistration) :
    ((l.registerBundle r).1.forget, (l.registerBundle r).2) = l.forget.registerBundle r := by
  have hinstall : (l.installStyles r).forget = l.forget.installStyles r := by
    have hdocument : l.forget.isDocumentEntry = l.isDocumentEntry := rfl
    have happended : l.forget.appended = l.appended := rfl
    unfold installStyles
    dsimp only
    rw [hdocument, happended]
    split <;> rfl
  unfold registerBundle
  rw [← hinstall]
  rfl

theorem Loader.forget_await (l : Loader (Recorded σ) κ) (id : String) (w : κ) :
    ((l.await id w).1.forget, (l.await id w).2) = l.forget.await id w := by
  unfold await
  show (_, _) = if l.isLoaded id then _ else _
  split
  · rfl
  · rw [forget_request]
    rfl

theorem LoaderCall.forget_report (call : LoaderCall (Recorded σ)) (l : Loader (Recorded σ) Nat)
    (n : Nat) : (call.report l n).forget = call.forget.report l.forget n := by
  have hload : ∀ resolved : Except LoaderError String,
      (call.loadReport l (l.awaitResolved resolved n)).forget =
        call.forget.loadReport l.forget (l.forget.awaitResolved resolved n) := by
    intro resolved
    cases resolved with
    | error e => rfl
    | ok id =>
      simp only [Loader.awaitResolved, ← Loader.forget_await]
      rfl
  cases call with
  | loadBundle c mode =>
    rw [forget, report, report, Loader.loadBundle_eq, Loader.loadBundle_eq]
    exact hload _
  | loadElement tag mode =>
    rw [forget, report, report, Loader.loadElement_eq, Loader.loadElement_eq]
    exact hload _
  | completeRequest url outcome =>
    simp only [forget, report, CallReport.forget, Loader.forget_completeRequest]
  | registerBundle b =>
    simp only [forget, report, CallReport.forget, ← Loader.forget_registerBundle]
  | hostChange host => rfl

/-- A record changes nothing: without it, a run is a run on the host itself. -/
theorem Loader.forget_run (l : Loader (Recorded σ) Nat) (calls : List (LoaderCall (Recorded σ))) :
    (l.run calls).map CallReport.forget = l.forget.run (calls.map LoaderCall.forget) := by
  have hcurrent : ∀ reports : List (CallReport (Recorded σ)),
      (l.current reports).forget = l.forget.current (reports.map CallReport.forget) := by
    intro reports
    unfold current
    rw [List.getLast?_map]
    cases reports.getLast? <;> rfl
  have hadd : ∀ (reports : List (CallReport (Recorded σ))) (call : LoaderCall (Recorded σ)),
      (l.addReport reports call).map CallReport.forget =
        l.forget.addReport (reports.map CallReport.forget) call.forget := by
    intro reports call
    rw [addReport, addReport, List.map_append, ← hcurrent, List.length_map]
    exact congrArg (_ ++ [·]) (call.forget_report _ _)
  unfold run
  suffices h : ∀ reports : List (CallReport (Recorded σ)),
      (calls.foldl l.addReport reports).map CallReport.forget =
        (calls.map LoaderCall.forget).foldl l.forget.addReport
          (reports.map CallReport.forget) from h []
  induction calls with
  | nil => exact fun reports => rfl
  | cons call calls ih =>
    intro reports
    rw [List.foldl_cons, ih, hadd]
    rfl

end Forget

end ComponentBundle
