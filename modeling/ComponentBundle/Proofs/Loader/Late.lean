import ComponentBundle.Proofs.Loader.Coalescing
import Mathlib.Data.List.Infix

/-!
# Late reports

A page tells a loader when a script that it injected has run or failed and when a timer that it
started runs out, and names the URL of the request. When the request is over and its URL is
requested anew, a report of the old script is taken for one of the new request.

* `timer_in_time` : a timer runs out only while its own request is under way;
* `allAccountedFor` : the request of a script that never reported is under way or ran out of time,
  unless a late report ends a request;
* `late_reports_ignored_iff` : when all late reports are ignored.
-/

namespace ComponentBundle

/-! ## Pages -/

/-- What happens to a loader in a page: somebody calls it, a script that it injected reports, or a
timer that it started runs out. -/
inductive PageEvent (σ : Type) where
  | call (call : LoaderCall σ)
  | report (script : ScriptId) (url : String) (loaded : Bool)
  | timeOut (timer : TimerId) (url : String)

/-- The call that the page makes then. It names the URL, not the script or the timer. -/
def PageEvent.toCall {σ : Type} : PageEvent σ → LoaderCall σ
  | call c => c
  | report _ url loaded => .completeRequest url (if loaded then .loaded else .errored)
  | timeOut _ url => .completeRequest url .timedOut

section Pages

variable {σ : Type} [LoaderHost σ]

def pageRun (l : Loader σ Nat) (events : List (PageEvent σ)) : List (CallReport σ) :=
  l.run (events.map PageEvent.toCall)

def loaderAfter (l : Loader σ Nat) (events : List (PageEvent σ)) : Loader σ Nat :=
  l.current (pageRun l events)

variable {l : Loader σ Nat} {events : List (PageEvent σ)} {e : PageEvent σ}

/-- The report of the call that an event makes. -/
def reportAfter (l : Loader σ Nat) (events : List (PageEvent σ)) (e : PageEvent σ) : CallReport σ :=
  e.toCall.report (loaderAfter l events) (pageRun l events).length

theorem pageRun_append :
    pageRun l (events ++ [e]) = pageRun l events ++ [reportAfter l events e] := by
  unfold pageRun Loader.run
  rw [List.map_append, List.foldl_append]
  rfl

theorem loaderAfter_append : loaderAfter l (events ++ [e]) = (reportAfter l events e).after := by
  rw [loaderAfter, pageRun_append, Loader.current_append]

theorem before_reportAfter : (reportAfter l events e).before = loaderAfter l events :=
  LoaderCall.before_report ..

theorem call_reportAfter : (reportAfter l events e).call = e.toCall := LoaderCall.call_report ..

theorem loaderAfter_of_completes {url : String} {outcome : RequestOutcome}
    (h : e.toCall = .completeRequest url outcome) :
    loaderAfter l (events ++ [e]) = (loaderAfter l events).completeRequest url outcome := by
  rw [loaderAfter_append, reportAfter, h]
  rfl

/-- Whether a call ended the request of a script because its time ran out. -/
def RanOut (reports : List (CallReport σ)) (script : ScriptId) (url : String) : Prop :=
  ∃ r ∈ reports, r.call = .completeRequest url .timedOut ∧ r.before.scriptOf? url = some script

theorem ranOut_append {script : ScriptId} {url : String} :
    RanOut (pageRun l (events ++ [e])) script url ↔ RanOut (pageRun l events) script url ∨
      e.toCall = .completeRequest url .timedOut ∧
        (loaderAfter l events).scriptOf? url = some script := by
  simp only [RanOut, pageRun_append, List.mem_append, List.mem_singleton, or_and_right, exists_or,
    exists_eq_left, call_reportAfter, before_reportAfter]

end Pages

/-! ## What a page does -/

section Statements

variable {σ : Type} [LoaderHost σ]

/-- Whether an event can follow others. Requests are ended by reports alone: a script reports once
at most after it was injected, even if it was removed since, and a timer runs out once at most
after it was started, unless it was cancelled. -/
def PageEvent.Follows (l : Loader (Recorded σ) Nat) (earlier : List (PageEvent (Recorded σ))) :
    PageEvent (Recorded σ) → Prop
  | call c => ∀ url outcome, c ≠ .completeRequest url outcome
  | report script url _ => (script, url) ∈ injections (loaderAfter l earlier).host.events ∧
      ∀ u b, .report script u b ∉ earlier
  | timeOut timer url => (timer, url) ∈ timersStarted (loaderAfter l earlier).host.events ∧
      timer ∉ cancellations (loaderAfter l earlier).host.events ∧ ∀ u, .timeOut timer u ∉ earlier

/-- Whether every event can follow the ones before it. -/
def Possible (l : Loader (Recorded σ) Nat) (events : List (PageEvent (Recorded σ))) : Prop :=
  ∀ earlier e, earlier ++ [e] <+: events → e.Follows l earlier

/-- Whether the event is a report on a request that is not, or no longer, under way. -/
def PageEvent.IsLate (l : Loader (Recorded σ) Nat) : PageEvent (Recorded σ) → Prop
  | call _ => False
  | report script url _ => l.scriptOf? url ≠ some script
  | timeOut timer url => l.timerOf? url ≠ some timer

/-- Whether every late report leaves the loader as it was. -/
def LateReportsIgnored (l : Loader (Recorded σ) Nat) (events : List (PageEvent (Recorded σ))) :
    Prop :=
  ∀ earlier e, earlier ++ [e] <+: events → e.IsLate (loaderAfter l earlier) →
    loaderAfter l (earlier ++ [e]) = loaderAfter l earlier

/-- Whether no script whose time ran out reports while its URL is requested anew. -/
def Undisturbed (l : Loader (Recorded σ) Nat) (events : List (PageEvent (Recorded σ))) : Prop :=
  ∀ earlier script url b, earlier ++ [.report script url b] <+: events →
    RanOut (pageRun l earlier) script url → (loaderAfter l earlier).isPending url = false

section Parts

variable {l : Loader (Recorded σ) Nat} {events earlier : List (PageEvent (Recorded σ))}
  {e : PageEvent (Recorded σ)}

theorem Possible.of_prefix (h : Possible l events) (hpart : earlier <+: events) :
    Possible l earlier :=
  fun _ _ hevent => h _ _ (hevent.trans hpart)

theorem Undisturbed.of_prefix (h : Undisturbed l events) (hpart : earlier <+: events) :
    Undisturbed l earlier :=
  fun _ _ _ _ hevent => h _ _ _ _ (hevent.trans hpart)

theorem possible_append_iff :
    Possible l (events ++ [e]) ↔ Possible l events ∧ e.Follows l events := by
  constructor
  · exact fun h => ⟨h.of_prefix (List.prefix_append _ _), h events e (List.prefix_refl _)⟩
  · rintro ⟨h, he⟩ earlier e' hpart
    rcases List.prefix_concat_iff.1 hpart with heq | hpart
    · obtain ⟨rfl, hlast⟩ := List.append_inj' heq rfl
      obtain rfl := List.singleton_inj.1 hlast
      exact he
    · exact h earlier e' hpart

end Parts

/-- What holds of scripts and timers after the events of a page. -/
structure InOrder (l : Loader (Recorded σ) Nat) (events : List (PageEvent (Recorded σ))) :
    Prop where
  scripts : Books (injections (hostLog l (pageRun l events)))
    (removals (hostLog l (pageRun l events))) (l.current (pageRun l events)).scriptOf?
  timers : Books (timersStarted (hostLog l (pageRun l events)))
    (timersEnded l (pageRun l events)) (l.current (pageRun l events)).timerOf?
  /-- A timer ends a request only by running out. -/
  expired : ∀ r ∈ pageRun l events, ∀ timer, r.expired? = some timer →
    ∃ url, .timeOut timer url ∈ events
  /-- A script whose time ran out is removed. -/
  removed : ∀ script url, RanOut (pageRun l events) script url →
    script ∈ removals (hostLog l (pageRun l events))

end Statements

/-! ## One event -/

theorem Loader.isPending_of_scriptOf? {σ κ : Type} {l : Loader σ κ} {url : String}
    {script : ScriptId} (h : l.scriptOf? url = some script) : l.isPending url = true := by
  obtain ⟨p, hfound, -⟩ := Option.map_eq_some_iff.1 h
  rw [isPending, SortedMap.contains, hfound]
  rfl

theorem Loader.completeRequest_eq_self_iff {σ κ : Type} [LoaderHost σ] {l : Loader (Recorded σ) κ}
    {url : String} {outcome : RequestOutcome} :
    l.completeRequest url outcome = l ↔ l.isPending url = false := by
  unfold isPending SortedMap.contains
  cases hfound : l.inFlight.get? url with
  | none => exact iff_of_true (completeRequest_of_none hfound outcome) rfl
  | some p =>
    refine iff_of_false (fun hsame => ?_) (by simp)
    have hgone := (completeRequest_of_some hfound outcome).1
    rw [hsame] at hgone
    rw [hgone, SortedMap.get?_erase_eq, if_pos rfl] at hfound
    cases hfound

section Step

variable {σ : Type} [LoaderHost σ] {l : Loader (Recorded σ) Nat}
  {events : List (PageEvent (Recorded σ))} {e : PageEvent (Recorded σ)}

theorem traffic_reportAfter (hids : FreshIds l (pageRun l (events ++ [e]))) :
    (reportAfter l events e).Traffic := by
  have hkept := hids.kept
  rw [pageRun_append] at hkept
  exact KeepsRecord.traffic hkept

theorem FreshIds.of_prefix {earlier : List (PageEvent (Recorded σ))}
    (h : FreshIds l (pageRun l events)) (hpart : earlier <+: events) :
    FreshIds l (pageRun l earlier) := by
  obtain ⟨later, rfl⟩ := hpart
  induction later using List.reverseRecOn with
  | nil => rwa [List.append_nil] at h
  | append_singleton later e ih =>
    rw [← List.append_assoc] at h
    have ht := traffic_reportAfter h
    rw [pageRun_append] at h
    exact ih (h.of_append ht before_reportAfter)

/-- A timer runs out only while its own request is under way. -/
theorem timer_in_time (h : InOrder l events) {timer : TimerId} {url : String}
    (hfollows : (PageEvent.timeOut timer url).Follows l events) :
    (loaderAfter l events).timerOf? url = some timer := by
  obtain ⟨hstarted, hcancelled, hfired⟩ := hfollows
  refine (h.timers.open_iff timer url).1 ⟨hstarted, fun hended => ?_⟩
  rcases List.mem_append.1 hended with hmem | hmem
  · exact hcancelled hmem
  · obtain ⟨r, hr, hexpired⟩ := List.mem_filterMap.1 hmem
    obtain ⟨u, hu⟩ := h.expired r hr timer hexpired
    exact hfired u hu

theorem timeOut_of_expired (h : InOrder l events) (hfollows : e.Follows l events)
    {timer : TimerId} (hexpired : (reportAfter l events e).expired? = some timer) :
    ∃ url, e = .timeOut timer url := by
  cases e with
  | call c =>
    unfold CallReport.expired? at hexpired
    rw [call_reportAfter] at hexpired
    split at hexpired
    · rename_i url hcall
      exact absurd hcall (hfollows url .timedOut)
    · cases hexpired
  | report script url loaded =>
    cases loaded <;> cases hexpired
  | timeOut timer' url =>
    have htimer : (reportAfter l events (.timeOut timer' url)).expired? = some timer' :=
      timer_in_time h hfollows
    rw [htimer] at hexpired
    exact ⟨url, by rw [Option.some.inj hexpired]⟩

theorem InOrder.append (h : InOrder l events) (hids : FreshIds l (pageRun l (events ++ [e])))
    (hfollows : e.Follows l events) : InOrder l (events ++ [e]) := by
  have ht := traffic_reportAfter hids
  have hrun : pageRun l (events ++ [e]) = pageRun l events ++ [reportAfter l events e] :=
    pageRun_append
  have hids' := hids
  rw [hrun] at hids'
  refine ⟨?_, ?_, fun r hr timer hexpired => ?_, fun script url hout => ?_⟩
  · rw [hrun]
    exact ht.books_scripts before_reportAfter hids' h.scripts
  · rw [hrun]
    exact ht.books_timers before_reportAfter hids' h.timers
  · rw [hrun] at hr
    rcases List.mem_append.1 hr with hr | hr
    · obtain ⟨url, hmem⟩ := h.expired r hr timer hexpired
      exact ⟨url, List.mem_append_left _ hmem⟩
    · rw [List.mem_singleton.1 hr] at hexpired
      obtain ⟨url, rfl⟩ := timeOut_of_expired h hfollows hexpired
      exact ⟨url, List.mem_append_right _ (List.mem_singleton_self _)⟩
  · show script ∈ removals (loaderAfter l (events ++ [e])).host.events
    rcases ranOut_append.1 hout with hout | ⟨hcall, hscript⟩
    · obtain ⟨new, hnew⟩ := ht.log_append
      rw [before_reportAfter] at hnew
      rw [loaderAfter_append, hnew, removals_append]
      exact List.mem_append_left _ (h.removed script url hout)
    · obtain ⟨p, hfound, rfl⟩ := Option.map_eq_some_iff.1 hscript
      obtain ⟨-, hevents⟩ := Loader.completeRequest_of_some hfound .timedOut
      rw [loaderAfter_of_completes hcall, hevents, removals_append]
      exact List.mem_append_right _ (List.mem_singleton_self p.script)

end Step

/-! ## Runs -/

section Runs

variable {σ : Type} [LoaderHost σ] {host : σ} {registry : Registry} {options : LoaderOptions}
  {events : List (PageEvent (Recorded σ))}

theorem inOrder (hpossible : Possible (Loader.new ⟨host, []⟩ registry options) events)
    (hids : FreshIds (Loader.new ⟨host, []⟩ registry options)
      (pageRun (Loader.new ⟨host, []⟩ registry options) events)) :
    InOrder (Loader.new ⟨host, []⟩ registry options) events := by
  induction events using List.reverseRecOn with
  | nil =>
    have hstart := coalesced_nil host registry options
    exact ⟨hstart.scripts, hstart.timers, by simp [pageRun, Loader.run],
      by simp [RanOut, pageRun, Loader.run]⟩
  | append_singleton events e ih =>
    obtain ⟨hpossible, hfollows⟩ := possible_append_iff.1 hpossible
    exact (ih hpossible (hids.of_prefix (List.prefix_append _ _))).append hids hfollows

/-- Whether the request of a script is under way, or the script reported, or its time ran out. -/
def AccountedFor (l : Loader (Recorded σ) Nat) (events : List (PageEvent (Recorded σ)))
    (script : ScriptId) (url : String) : Prop :=
  (loaderAfter l events).scriptOf? url = some script ∨ (∃ b, .report script url b ∈ events) ∨
    RanOut (pageRun l events) script url

def AllAccountedFor (l : Loader (Recorded σ) Nat) (events : List (PageEvent (Recorded σ))) :
    Prop :=
  ∀ script url, (script, url) ∈ injections (loaderAfter l events).host.events →
    AccountedFor l events script url

variable {l : Loader (Recorded σ) Nat} {e : PageEvent (Recorded σ)} {script : ScriptId}
  {url : String}

/-- A request under way is ended by its own script or its own timer: the time of any other script
that reports ran out, and such reports end no requests. -/
theorem accountedFor_of_ends (hscripts : AllAccountedFor l events)
    (hundisturbed : Undisturbed l (events ++ [e])) (hfollows : e.Follows l events)
    (hflying : (loaderAfter l events).scriptOf? url = some script) {outcome : RequestOutcome}
    (hcall : e.toCall = .completeRequest url outcome) :
    AccountedFor l (events ++ [e]) script url := by
  have hlast : ∀ e' : PageEvent (Recorded σ), e' ∈ events ++ [e'] := fun e' =>
    List.mem_append_right _ (List.mem_singleton_self e')
  cases e with
  | call c => exact absurd hcall (hfollows url outcome)
  | timeOut timer url' =>
    obtain ⟨rfl, rfl⟩ := LoaderCall.completeRequest.inj hcall
    exact .inr (.inr (ranOut_append.2 (.inr ⟨rfl, hflying⟩)))
  | report script' url' b =>
    obtain ⟨rfl, -⟩ := LoaderCall.completeRequest.inj hcall
    by_cases hown : script' = script
    · subst hown
      exact .inr (.inl ⟨b, hlast _⟩)
    · exfalso
      obtain ⟨hinjected, hfirst⟩ := hfollows
      rcases hscripts script' url' hinjected with hflying' | ⟨b', hreported⟩ | hout
      · exact hown (Option.some.inj (hflying'.symm.trans hflying))
      · exact hfirst url' b' hreported
      · have hfree := hundisturbed events script' url' b (List.prefix_refl _) hout
        rw [Loader.isPending_of_scriptOf? hflying] at hfree
        cases hfree

theorem AccountedFor.append (h : AccountedFor l events script url)
    (hflying : (loaderAfter l events).scriptOf? url = some script →
      AccountedFor l (events ++ [e]) script url) :
    AccountedFor l (events ++ [e]) script url := by
  rcases h with hflying' | ⟨b, hreported⟩ | hout
  · exact hflying hflying'
  · exact .inr (.inl ⟨b, List.mem_append_left _ hreported⟩)
  · exact .inr (.inr (ranOut_append.2 (.inl hout)))

theorem AllAccountedFor.append (hscripts : AllAccountedFor l events)
    (hundisturbed : Undisturbed l (events ++ [e])) (hfollows : e.Follows l events)
    (ht : (reportAfter l events e).Traffic) : AllAccountedFor l (events ++ [e]) := by
  intro script url hinjected
  rw [loaderAfter_append] at hinjected
  cases ht with
  | opens id script' timer timeout accepts missing free expired inFlight hlog =>
    rw [before_reportAfter] at free inFlight hlog
    have hscript : ∀ u, (loaderAfter l (events ++ [e])).scriptOf? u =
        if u = (loaderAfter l events).bundleUrl id then some script'
        else (loaderAfter l events).scriptOf? u := by
      intro u
      rw [loaderAfter_append, Loader.scriptOf?, inFlight, SortedMap.get?_insert_eq]
      split <;> rfl
    rw [hlog, injections_append] at hinjected
    rcases List.mem_append.1 hinjected with hinjected | hnew
    · refine (hscripts script url hinjected).append fun hflying => .inl ?_
      rw [hscript, if_neg ?_]
      · exact hflying
      · rintro rfl
        rw [Loader.isPending_of_scriptOf? hflying] at free
        cases free
    · obtain ⟨rfl, rfl⟩ := Prod.mk.inj (List.mem_singleton.1 hnew)
      exact .inl (by rw [hscript, if_pos rfl])
  | ends url' outcome p call found inFlight hlog =>
    rw [before_reportAfter] at inFlight hlog
    have hquiet : injections ((if outcome = .timedOut then [] else [.cancelTimer p.timer]) ++
        [.removeScript p.script]) = [] := by
      by_cases ho : outcome = .timedOut <;> simp [ho, injections]
    rw [hlog, injections_append, hquiet, List.append_nil] at hinjected
    refine (hscripts script url hinjected).append fun hflying => ?_
    by_cases hurl : url = url'
    · subst hurl
      exact accountedFor_of_ends hscripts hundisturbed hfollows hflying
        (call_reportAfter.symm.trans call)
    · left
      rw [loaderAfter_append, Loader.scriptOf?, inFlight, SortedMap.get?_erase_eq, if_neg hurl]
      exact hflying
  | keeps styles appended expired inFlight hlog =>
    rw [before_reportAfter] at inFlight hlog
    rw [hlog, injections_append, injections_styles, List.append_nil] at hinjected
    refine (hscripts script url hinjected).append fun hflying => .inl ?_
    rw [loaderAfter_append, Loader.scriptOf?, inFlight]
    exact hflying

/-- Every script is accounted for, unless a late report ends a request. -/
theorem allAccountedFor (hlog : l.host.events = []) (hpossible : Possible l events)
    (hids : FreshIds l (pageRun l events)) (hundisturbed : Undisturbed l events) :
    AllAccountedFor l events := by
  induction events using List.reverseRecOn with
  | nil =>
    have hnone : injections (loaderAfter l []).host.events = [] := congrArg injections hlog
    simp [AllAccountedFor, hnone]
  | append_singleton events e ih =>
    obtain ⟨hbefore, hfollows⟩ := possible_append_iff.1 hpossible
    have hscripts := ih hbefore (hids.of_prefix (List.prefix_append _ _))
      (hundisturbed.of_prefix (List.prefix_append _ _))
    exact hscripts.append hundisturbed hfollows (traffic_reportAfter hids)

/-- **Late reports are ignored** exactly if no script whose time ran out reports while its URL is
requested anew. Timers are never late. -/
theorem late_reports_ignored_iff (host : σ) (registry : Registry) (options : LoaderOptions)
    (events : List (PageEvent (Recorded σ)))
    (hpossible : Possible (Loader.new ⟨host, []⟩ registry options) events)
    (hids : FreshIds (Loader.new ⟨host, []⟩ registry options)
      (pageRun (Loader.new ⟨host, []⟩ registry options) events)) :
    let l : Loader (Recorded σ) Nat := Loader.new ⟨host, []⟩ registry options
    (∀ earlier timer url, earlier ++ [.timeOut timer url] <+: events →
      ¬ (PageEvent.timeOut timer url).IsLate (loaderAfter l earlier)) ∧
    (LateReportsIgnored l events ↔ Undisturbed l events) := by
  intro l
  have hpart : ∀ {earlier e}, earlier ++ [e] <+: events → earlier <+: events := fun h =>
    (List.prefix_append _ _).trans h
  have horder : ∀ {earlier e}, earlier ++ [e] <+: events → InOrder l earlier := fun h =>
    inOrder (hpossible.of_prefix (hpart h)) (hids.of_prefix (hpart h))
  have htimers : ∀ earlier timer url, earlier ++ [.timeOut timer url] <+: events →
      ¬ (PageEvent.timeOut timer url).IsLate (loaderAfter l earlier) :=
    fun earlier timer url h hlate => hlate (timer_in_time (horder h) (hpossible _ _ h))
  refine ⟨htimers, fun hignored earlier script url b h hout => ?_,
    fun hundisturbed earlier e h hlate => ?_⟩
  · -- the script is removed, so its report is late, and a request under way would be ended by it
    have hlate : (loaderAfter l earlier).scriptOf? url ≠ some script := fun hflying =>
      (((horder h).scripts.open_iff script url).2 hflying).2 ((horder h).removed script url hout)
    have hsame := hignored earlier _ h hlate
    rw [loaderAfter_of_completes rfl] at hsame
    exact Loader.completeRequest_eq_self_iff.1 hsame
  · cases e with
    | call c => exact hlate.elim
    | timeOut timer url => exact absurd hlate (htimers earlier timer url h)
    | report script url b =>
      obtain ⟨hinjected, hfirst⟩ := hpossible _ _ h
      rcases allAccountedFor rfl (hpossible.of_prefix (hpart h)) (hids.of_prefix (hpart h))
        (hundisturbed.of_prefix (hpart h)) script url hinjected with
        hflying | ⟨b', hreported⟩ | hout
      · exact absurd hflying hlate
      · exact absurd hreported (hfirst url b')
      · rw [loaderAfter_of_completes rfl]
        exact Loader.completeRequest_eq_self_iff.2 (hundisturbed earlier script url b h hout)

end Runs

/-! ## A script that reports after its time -/

/-- The time of a file runs out, and it is requested anew. -/
def requestedAnew : List (PageEvent (Recorded DocumentLog)) :=
  [] ++ [.call (.loadElement "a" none)] ++ [.timeOut ⟨2⟩ "x.js"] ++ [.call (.loadElement "a" none)]

/-- The script of the first request reports. -/
def slowFile : List (PageEvent (Recorded DocumentLog)) :=
  requestedAnew ++ [.report ⟨1⟩ "x.js" true]

/-- The first script ends the second request: its timer is cancelled and its script removed. -/
theorem late_script_ends_newer_request :
    Possible (loaderOfOne {}) slowFile ∧
      FreshIds (loaderOfOne {}) (pageRun (loaderOfOne {}) slowFile) ∧
      ¬ LateReportsIgnored (loaderOfOne {}) slowFile ∧
      (loaderAfter (loaderOfOne {}) slowFile).host.events =
        (loaderAfter (loaderOfOne {}) requestedAnew).host.events ++
          [.cancelTimer ⟨4⟩, .removeScript ⟨3⟩] := by
  have hids : FreshIds (loaderOfOne {}) (pageRun (loaderOfOne {}) slowFile) :=
    ⟨by decide, by decide,
      keepsRecord_run (by simp [slowFile, requestedAnew, PageEvent.toCall])⟩
  have hpossible : Possible (loaderOfOne {}) slowFile := by
    unfold slowFile requestedAnew
    simp only [possible_append_iff]
    refine ⟨⟨⟨⟨by simp [Possible], ?_⟩, ?_⟩, ?_⟩, ?_⟩
    · simp [PageEvent.Follows]
    · exact ⟨by decide, by decide, by simp⟩
    · simp [PageEvent.Follows]
    · exact ⟨by decide, by simp⟩
  refine ⟨hpossible, hids, fun hignored => ?_, by decide⟩
  have hundisturbed := (late_reports_ignored_iff _ _ _ slowFile hpossible hids).2.1 hignored
  have hout : RanOut (pageRun (loaderOfOne {}) requestedAnew) ⟨1⟩ "x.js" :=
    ranOut_append.2 (.inl (ranOut_append.2 (.inr ⟨rfl, by decide⟩)))
  have hfree := hundisturbed requestedAnew ⟨1⟩ "x.js" true (List.prefix_refl _) hout
  have hpending : (loaderAfter (loaderOfOne {}) requestedAnew).isPending "x.js" = true := by decide
  exact absurd (hpending.symm.trans hfree) (by decide)

end ComponentBundle
