import ComponentBundle.Proofs.Loader.Record
import Mathlib.Data.List.Nodup

/-!
# Requests leak nothing

`requests_leak_nothing`: in every run of a loader on a host that gives out fresh ids, scripts and
timers are given back exactly when the request that took them ends, no URL is requested twice at a
time, and whoever waits does so for a request that is under way or has ended since.

Scripts and timers are kept by the same rules, so `Books` states them once: what is given out under
a key and not yet taken back is what is held under this key. A call opens a request, ends one or
keeps them all (`CallReport.Traffic`), and the books follow it (`Books.give`, `Books.take`).
-/

namespace ComponentBundle

/-! ## Books -/

/-- What is given out, each under a key, and what of it is taken back; the rest is held. -/
structure Books {α : Type} (given : List (α × String)) (taken : List α)
    (held : String → Option α) : Prop where
  taken_given : ∀ a ∈ taken, ∃ key, (a, key) ∈ given
  taken_once : taken.Nodup
  open_iff : ∀ a key, (a, key) ∈ given ∧ a ∉ taken ↔ held key = some a

section Books

variable {α : Type} {given : List (α × String)} {taken taken' : List α}
  {held held' : String → Option α} {a : α} {key : String}

theorem Books.give (h : Books given taken held) (hfree : held key = none)
    (hfresh : ((given ++ [(a, key)]).map (·.1)).Nodup)
    (hheld : ∀ k, held' k = if k = key then some a else held k) :
    Books (given ++ [(a, key)]) taken held' := by
  have hnew : ∀ k, (a, k) ∉ given := by
    intro k hk
    rw [List.map_append, List.nodup_append] at hfresh
    exact hfresh.2.2 a (List.mem_map_of_mem hk) a (by simp) rfl
  have hopen : a ∉ taken := by
    intro ha
    obtain ⟨k, hk⟩ := h.taken_given a ha
    exact hnew k hk
  refine ⟨fun b hb => ?_, h.taken_once, fun b k => ?_⟩
  · obtain ⟨k, hk⟩ := h.taken_given b hb
    exact ⟨k, List.mem_append_left _ hk⟩
  · rw [hheld]
    by_cases hk : k = key
    · subst hk
      rw [if_pos rfl]
      constructor
      · rintro ⟨hb, hb'⟩
        rcases List.mem_append.1 hb with hb | hb
        · have hsome := (h.open_iff b k).1 ⟨hb, hb'⟩
          simp [hfree] at hsome
        · rw [(Prod.mk.inj (List.mem_singleton.1 hb)).1]
      · intro hb
        obtain rfl := Option.some.inj hb
        exact ⟨by simp, hopen⟩
    · rw [if_neg hk, ← h.open_iff]
      simp [hk]

theorem Books.take (h : Books given taken held) (hheld : held key = some a)
    (hids : (given.map (·.1)).Nodup) (htaken : taken'.Perm (a :: taken))
    (hheld' : ∀ k, held' k = if k = key then none else held k) : Books given taken' held' := by
  obtain ⟨hgiven, hopen⟩ := (h.open_iff a key).2 hheld
  refine ⟨fun b hb => ?_, ?_, fun b k => ?_⟩
  · rcases List.mem_cons.1 (htaken.mem_iff.1 hb) with rfl | hb
    · exact ⟨key, hgiven⟩
    · exact h.taken_given b hb
  · exact htaken.nodup_iff.2 (List.nodup_cons.2 ⟨hopen, h.taken_once⟩)
  · rw [htaken.mem_iff, List.mem_cons, not_or, hheld']
    by_cases hk : k = key
    · subst hk
      rw [if_pos rfl]
      refine iff_of_false ?_ (by simp)
      rintro ⟨hb, hne, hb'⟩
      have hsome := (h.open_iff b k).1 ⟨hb, hb'⟩
      exact hne (Option.some.inj (hsome.symm.trans hheld))
    · rw [if_neg hk, ← h.open_iff]
      -- the one taken back was given out under one key only, and that is the other one
      have hne : (b, k) ∈ given → b ≠ a := by
        rintro hb rfl
        exact hk (Prod.mk.inj (List.inj_on_of_nodup_map hids hb hgiven rfl)).2
      constructor
      · rintro ⟨hb, -, hb'⟩
        exact ⟨hb, hb'⟩
      · rintro ⟨hb, hb'⟩
        exact ⟨hb, hne hb, hb'⟩

theorem Books.open_unique (h : Books given taken held) {b : α} (ha : (a, key) ∈ given)
    (ha' : a ∉ taken) (hb : (b, key) ∈ given) (hb' : b ∉ taken) : a = b :=
  Option.some.inj (((h.open_iff a key).1 ⟨ha, ha'⟩).symm.trans ((h.open_iff b key).1 ⟨hb, hb'⟩))

end Books

/-! ## Statements -/

section Statements

variable {σ : Type}

def Loader.scriptOf? {κ : Type} (l : Loader σ κ) (url : String) : Option ScriptId :=
  (l.inFlight.get? url).map (·.script)

def Loader.timerOf? {κ : Type} (l : Loader σ κ) (url : String) : Option TimerId :=
  (l.inFlight.get? url).map (·.timer)

/-- What the host was asked so far. -/
def hostLog (l : Loader (Recorded σ) Nat) (reports : List (CallReport (Recorded σ))) :
    List HostEvent :=
  (l.current reports).host.events

/-- The timers that were cancelled, and those that ran out and ended their request. -/
def timersEnded (l : Loader (Recorded σ) Nat) (reports : List (CallReport (Recorded σ))) :
    List TimerId :=
  cancellations (hostLog l reports) ++ reports.filterMap (·.expired?)

/-- The host gives out an id once, and no change of the host touches the record. -/
structure FreshIds (l : Loader (Recorded σ) Nat) (reports : List (CallReport (Recorded σ))) :
    Prop where
  scripts : ((injections (hostLog l reports)).map (·.1)).Nodup
  timers : ((timersStarted (hostLog l reports)).map (·.1)).Nodup
  kept : KeepsRecord reports

/-- The `n`-th call injects a script for a URL. -/
def InjectsAt (reports : List (CallReport (Recorded σ))) (n : Nat) (url : String) : Prop :=
  ∃ r script, reports[n]? = some r ∧ (script, url) ∈ injections r.events

/-- The `n`-th call ends a request for a URL. -/
def CompletesAt (reports : List (CallReport (Recorded σ))) (n : Nat) (url : String) : Prop :=
  ∃ r, reports[n]? = some r ∧ r.Completes url

/-- A URL is requested now, or a call after the `n`-th ended a request for it. -/
def FlownSince (l : Loader (Recorded σ) Nat) (reports : List (CallReport (Recorded σ)))
    (url : String) (n : Nat) : Prop :=
  (l.current reports).isPending url = true ∨ ∃ m, n < m ∧ CompletesAt reports m url

/-- Why a call injects a script: it is a load of a bundle that is not there, somebody waits for it,
and its file is not requested yet. -/
structure CallReport.Injects (r : CallReport (Recorded σ)) (url id : String) : Prop where
  url_eq : url = r.before.bundleUrl id
  missing : r.before.isLoaded id = false ∧ r.after.isLoaded id = false
  awaited : r.after.waitersOf id ≠ []
  free : r.before.isPending url = false
  single : (injections r.events).length = 1

/-- What the reports of a run and the record of its host say about requests. -/
structure Coalesced (l : Loader (Recorded σ) Nat) (reports : List (CallReport (Recorded σ))) :
    Prop where
  scripts : Books (injections (hostLog l reports)) (removals (hostLog l reports))
    (l.current reports).scriptOf?
  timers : Books (timersStarted (hostLog l reports)) (timersEnded l reports)
    (l.current reports).timerOf?
  /-- No URL has two scripts in the document. -/
  single : ∀ url a b, (a, url) ∈ injections (hostLog l reports) →
    (b, url) ∈ injections (hostLog l reports) → a ∉ removals (hostLog l reports) →
    b ∉ removals (hostLog l reports) → a = b
  injects : ∀ r ∈ reports, ∀ script url, (script, url) ∈ injections r.events →
    ∃ id, r.Injects url id
  /-- A script that was injected is in flight until a call ends its request. -/
  flown : ∀ n url, InjectsAt reports n url → FlownSince l reports url n
  /-- Between two injections for a URL a call ends a request for it. -/
  separated : ∀ i j url, i < j → InjectsAt reports i url → InjectsAt reports j url →
    ∃ k, i < k ∧ k < j ∧ CompletesAt reports k url
  /-- Waiters are numbered by their calls, and the last one of a queue came last. -/
  awaited : ∀ id, ∀ n ∈ (l.current reports).waitersOf id, (l.current reports).isLoaded id = false ∧
    FlownSince l reports ((l.current reports).bundleUrl id) n

end Statements

/-! ## Books of a call -/

section Moves

variable {σ α : Type} {r : CallReport (Recorded σ)}

/-- How a call moves one kind of ids, by what was given out and taken back before and after it. -/
inductive CallReport.Moves (r : CallReport (Recorded σ)) (pick : PendingRequest → α)
    (given given' : List (α × String)) (taken taken' : List α) : Prop where
  | opens (url : String) (p : PendingRequest) (free : r.before.isPending url = false)
      (inFlight : r.after.inFlight = r.before.inFlight.insert url p)
      (given_eq : given' = given ++ [(pick p, url)]) (taken_eq : taken' = taken)
  | ends (url : String) (p : PendingRequest) (found : r.before.inFlight.get? url = some p)
      (inFlight : r.after.inFlight = r.before.inFlight.erase url)
      (given_eq : given' = given) (taken_perm : taken'.Perm (pick p :: taken))
  | keeps (inFlight : r.after.inFlight = r.before.inFlight)
      (given_eq : given' = given) (taken_eq : taken' = taken)

theorem CallReport.Moves.books {pick : PendingRequest → α} {given given' : List (α × String)}
    {taken taken' : List α} (hm : r.Moves pick given given' taken taken')
    (h : Books given taken fun url => (r.before.inFlight.get? url).map pick)
    (hids : (given'.map (·.1)).Nodup) :
    Books given' taken' fun url => (r.after.inFlight.get? url).map pick := by
  cases hm with
  | opens url p free inFlight given_eq taken_eq =>
    subst given_eq taken_eq
    have hnone : r.before.inFlight.get? url = none := by
      simpa [Loader.isPending, SortedMap.contains] using free
    refine h.give ?_ hids fun k => ?_
    · rw [hnone]
      rfl
    · rw [inFlight, SortedMap.get?_insert_eq]
      split <;> rfl
  | ends url p found inFlight given_eq taken_perm =>
    subst given_eq
    have hheld : (r.before.inFlight.get? url).map pick = some (pick p) := by rw [found]; rfl
    refine h.take hheld hids taken_perm fun k => ?_
    rw [inFlight, SortedMap.get?_erase_eq]
    split <;> rfl
  | keeps inFlight given_eq taken_eq =>
    subst given_eq taken_eq
    rw [inFlight]
    exact h

theorem CallReport.expired?_of_call {url : String} {outcome : RequestOutcome} {p : PendingRequest}
    (hcall : r.call = .completeRequest url outcome) (hfound : r.before.inFlight.get? url = some p) :
    r.expired? = if outcome = .timedOut then some p.timer else none := by
  unfold expired?
  rw [hcall]
  cases outcome with
  | loaded => rfl
  | errored => rfl
  | timedOut =>
    dsimp only
    rw [hfound]
    rfl

variable [LoaderHost σ]

theorem CallReport.Traffic.moves_scripts (h : r.Traffic) :
    r.Moves (·.script) (injections r.before.host.events) (injections r.after.host.events)
      (removals r.before.host.events) (removals r.after.host.events) := by
  cases h with
  | opens id script timer timeout accepts missing free expired inFlight events =>
    rw [events, injections_append, removals_append]
    exact .opens _ ⟨script, timer⟩ free inFlight rfl (List.append_nil _)
  | ends url outcome p call found inFlight events =>
    rw [events, injections_append, removals_append]
    refine .ends url p found inFlight ?_ ?_
    · by_cases ho : outcome = .timedOut <;> simp [ho, injections]
    · have hremoved : removals ((if outcome = .timedOut then [] else [.cancelTimer p.timer]) ++
          [.removeScript p.script]) = [p.script] := by
        by_cases ho : outcome = .timedOut <;> simp [ho, removals]
      rw [hremoved]
      exact List.perm_append_singleton _ _
  | keeps styles appended expired inFlight events =>
    rw [events]
    exact .keeps inFlight (by simp) (by simp)

theorem CallReport.Traffic.moves_timers (h : r.Traffic) (ended : List TimerId) :
    r.Moves (·.timer) (timersStarted r.before.host.events) (timersStarted r.after.host.events)
      (cancellations r.before.host.events ++ ended)
      (cancellations r.after.host.events ++ (ended ++ r.expired?.toList)) := by
  cases h with
  | opens id script timer timeout accepts missing free expired inFlight events =>
    rw [events, timersStarted_append, cancellations_append, expired]
    refine .opens _ ⟨script, timer⟩ free inFlight rfl ?_
    simp [cancellations]
  | ends url outcome p call found inFlight events =>
    rw [events, timersStarted_append, cancellations_append,
      CallReport.expired?_of_call call found]
    refine .ends url p found inFlight ?_ ?_
    · by_cases ho : outcome = .timedOut <;> simp [ho, timersStarted]
    · by_cases ho : outcome = .timedOut
      · have hnone : cancellations [.removeScript p.script] = [] := rfl
        rw [if_pos ho, if_pos ho, List.nil_append, hnone, List.append_nil, ← List.append_assoc]
        exact List.perm_append_singleton _ _
      · have hcancelled :
            cancellations ([.cancelTimer p.timer] ++ [.removeScript p.script]) = [p.timer] := rfl
        rw [if_neg ho, if_neg ho, hcancelled, Option.toList_none, List.append_nil,
          List.append_assoc]
        exact List.perm_middle
  | keeps styles appended expired inFlight events =>
    rw [events, expired]
    exact .keeps inFlight (by simp) (by simp)

end Moves

/-! ## One call -/

section Step

variable {σ : Type} {l : Loader (Recorded σ) Nat} {reports : List (CallReport (Recorded σ))}
  {r : CallReport (Recorded σ)}

theorem hostLog_append : hostLog l (reports ++ [r]) = r.after.host.events := by
  rw [hostLog, Loader.current_append]

theorem timersEnded_append : timersEnded l (reports ++ [r]) =
    cancellations r.after.host.events ++
      (reports.filterMap (·.expired?) ++ r.expired?.toList) := by
  rw [timersEnded, hostLog_append, List.filterMap_append]
  cases h : r.expired? <;> simp [h]

variable [LoaderHost σ]

theorem CallReport.Traffic.log_append (h : r.Traffic) :
    ∃ new, r.after.host.events = r.before.host.events ++ new := by
  cases h with
  | opens id script timer timeout accepts missing free expired inFlight events => exact ⟨_, events⟩
  | ends url outcome p call found inFlight events => exact ⟨_, events⟩
  | keeps styles appended expired inFlight events => exact ⟨_, events⟩

theorem CallReport.Traffic.books_scripts (h : r.Traffic) (hbefore : r.before = l.current reports)
    (hids : FreshIds l (reports ++ [r]))
    (hold : Books (injections (hostLog l reports)) (removals (hostLog l reports))
      (l.current reports).scriptOf?) :
    Books (injections (hostLog l (reports ++ [r]))) (removals (hostLog l (reports ++ [r])))
      (l.current (reports ++ [r])).scriptOf? := by
  rw [hostLog, ← hbefore] at hold
  rw [hostLog_append, Loader.current_append]
  exact h.moves_scripts.books hold (hostLog_append (l := l) ▸ hids.scripts)

theorem CallReport.Traffic.books_timers (h : r.Traffic) (hbefore : r.before = l.current reports)
    (hids : FreshIds l (reports ++ [r]))
    (hold : Books (timersStarted (hostLog l reports)) (timersEnded l reports)
      (l.current reports).timerOf?) :
    Books (timersStarted (hostLog l (reports ++ [r]))) (timersEnded l (reports ++ [r]))
      (l.current (reports ++ [r])).timerOf? := by
  rw [timersEnded, hostLog, ← hbefore] at hold
  rw [timersEnded_append, hostLog_append, Loader.current_append]
  exact (h.moves_timers _).books hold (hostLog_append (l := l) ▸ hids.timers)

theorem CallReport.Traffic.pending_or_completes (h : r.Traffic) {url : String}
    (hpending : r.before.isPending url = true) :
    r.after.isPending url = true ∨ r.Completes url := by
  unfold Loader.isPending SortedMap.contains at hpending ⊢
  cases h with
  | opens id script timer timeout accepts missing free expired inFlight events =>
    left
    rw [inFlight, SortedMap.get?_insert_eq]
    split
    · rfl
    · exact hpending
  | ends url' outcome p call found inFlight events =>
    by_cases hurl : url = url'
    · subst hurl
      exact .inr ⟨outcome, call, hpending⟩
    · left
      rw [inFlight, SortedMap.get?_erase_eq, if_neg hurl]
      exact hpending
  | keeps styles appended expired inFlight events => exact .inl (inFlight ▸ hpending)

omit [LoaderHost σ] in
theorem CompletesAt.append {n : Nat} {url : String} (h : CompletesAt reports n url) :
    CompletesAt (reports ++ [r]) n url := by
  obtain ⟨s, hs, hcompletes⟩ := h
  have hlt : n < reports.length := (List.getElem?_eq_some_iff.1 hs).1
  exact ⟨s, by rw [List.getElem?_append_left hlt]; exact hs, hcompletes⟩

omit [LoaderHost σ] in
theorem injectsAt_append {n : Nat} {url : String} : InjectsAt (reports ++ [r]) n url ↔
    InjectsAt reports n url ∨
      n = reports.length ∧ ∃ script, (script, url) ∈ injections r.events := by
  unfold InjectsAt
  rcases Nat.lt_trichotomy n reports.length with hn | rfl | hn
  · have hne : n ≠ reports.length := Nat.ne_of_lt hn
    simp [List.getElem?_append_left hn, hne]
  · simp
  · have hne : n ≠ reports.length := Nat.ne_of_gt hn
    have hnone : (reports ++ [r])[n]? = none := List.getElem?_eq_none (by simp; omega)
    simp [hnone, hne, List.getElem?_eq_none (Nat.le_of_lt hn)]

omit [LoaderHost σ] in
theorem InjectsAt.lt_length {n : Nat} {url : String} (h : InjectsAt reports n url) :
    n < reports.length := by
  obtain ⟨s, script, hs, -⟩ := h
  exact (List.getElem?_eq_some_iff.1 hs).1

omit [LoaderHost σ] in
theorem CompletesAt.lt_length {n : Nat} {url : String} (h : CompletesAt reports n url) :
    n < reports.length := by
  obtain ⟨s, hs, -⟩ := h
  exact (List.getElem?_eq_some_iff.1 hs).1

theorem FlownSince.append {url : String} {n : Nat} (h : FlownSince l reports url n)
    (ht : r.Traffic) (hbefore : r.before = l.current reports) (hn : n < reports.length) :
    FlownSince l (reports ++ [r]) url n := by
  rcases h with hpending | ⟨m, hm, hcompletes⟩
  · rw [← hbefore] at hpending
    rcases ht.pending_or_completes hpending with hafter | hcompletes
    · exact .inl (by rw [Loader.current_append]; exact hafter)
    · exact .inr ⟨reports.length, hn, r, by simp, hcompletes⟩
  · exact .inr ⟨m, hm, hcompletes.append⟩

theorem CallReport.Effect.waits {n : Nat} (h : r.Effect n) {id : String} {m : Nat}
    (hm : m ∈ r.after.waitersOf id) :
    m ∈ r.before.waitersOf id ∨ m = n ∧ r.after.isPending (r.before.bundleUrl id) = true := by
  cases h with
  | load id' accepts loads error after ready =>
    rw [after, Loader.waitersOf_await, List.mem_append] at hm
    rcases hm with hm | hm
    · exact .inl hm
    · split at hm
      · rename_i hid
        obtain ⟨rfl, hmissing⟩ := hid
        refine .inr ⟨List.mem_singleton.1 hm, ?_⟩
        rw [after]
        exact Loader.isPending_await hmissing n
      · simp at hm
  | registration b accepts registers error after ready =>
    rw [after, Loader.waitersOf_registerBundle] at hm
    split at hm
    · simp at hm
    · exact .inl hm
  | quiet accepts registers loaded waiters failure ready =>
    rw [Loader.waitersOf, waiters] at hm
    exact .inl hm

theorem CallReport.Effect.awaits {n : Nat} (h : r.Effect n) {id : String}
    (haccepts : r.acceptedId? = some id) (hmissing : r.before.isLoaded id = false) :
    r.after.isLoaded id = false ∧ r.after.waitersOf id ≠ [] := by
  cases h with
  | load id' accepts loads error after ready =>
    obtain rfl : id' = id := Option.some.inj (accepts.symm.trans haccepts)
    rw [after, Loader.waitersOf_await, Loader.isLoaded, Loader.await_loaded, ← Loader.isLoaded]
    simp [hmissing]
  | registration b accepts registers error after ready => simp [accepts] at haccepts
  | quiet accepts registers loaded waiters failure ready => simp [accepts] at haccepts

theorem CallReport.Traffic.injects (h : r.Traffic) {n : Nat} (heffect : r.Effect n)
    {script : ScriptId} {url : String} (hinjects : (script, url) ∈ injections r.events) :
    (∃ id, r.Injects url id) ∧ r.after.isPending url = true := by
  cases h with
  | opens id script' timer timeout accepts missing free expired inFlight events =>
    rw [CallReport.events_of_append events] at hinjects
    have hpair : (script, url) = (script', r.before.bundleUrl id) := by
      simpa [injections] using hinjects
    obtain ⟨rfl, rfl⟩ := Prod.mk.inj hpair
    obtain ⟨hloaded, hwaiters⟩ := heffect.awaits accepts missing
    refine ⟨⟨id, rfl, ⟨missing, hloaded⟩, hwaiters, free, ?_⟩, ?_⟩
    · rw [CallReport.events_of_append events]
      rfl
    · unfold Loader.isPending SortedMap.contains
      rw [inFlight]
      exact congrArg Option.isSome (SortedMap.get?_insert_self _ _ _)
  | ends url' outcome p call found inFlight events =>
    rw [CallReport.events_of_append events] at hinjects
    by_cases ho : outcome = .timedOut <;> simp [ho, injections] at hinjects
  | keeps styles appended expired inFlight events =>
    rw [CallReport.events_of_append events] at hinjects
    simp at hinjects

theorem FreshIds.of_append (h : FreshIds l (reports ++ [r])) (ht : r.Traffic)
    (hbefore : r.before = l.current reports) : FreshIds l reports := by
  obtain ⟨new, hnew⟩ := ht.log_append
  rw [hbefore] at hnew
  have hlog : hostLog l (reports ++ [r]) = hostLog l reports ++ new := by
    rw [hostLog_append, hnew, hostLog]
  obtain ⟨hscripts, htimers, hkept⟩ := h
  rw [hlog, injections_append, List.map_append] at hscripts
  rw [hlog, timersStarted_append, List.map_append] at htimers
  exact ⟨hscripts.of_append_left, htimers.of_append_left,
    fun s hs => hkept s (List.mem_append_left _ hs)⟩

theorem Tracked.missing (h : Tracked l reports) {id : String} {n : Nat}
    (hn : n ∈ (l.current reports).waitersOf id) :
    (l.current reports).isLoaded id = false ∧ n < reports.length := by
  rw [h.waiting] at hn
  rw [h.loaded]
  cases hreg : hasRegistered reports id with
  | true => simp [hreg] at hn
  | false =>
    rw [hreg, if_neg Bool.false_ne_true] at hn
    exact ⟨rfl, lt_length_of_mem_accepted hn⟩

theorem Coalesced.separated_append (h : Coalesced l reports) (ht : r.Traffic)
    (heffect : r.Effect reports.length) (hbefore : r.before = l.current reports) {i j : Nat}
    {url : String} (hij : i < j) (hi : InjectsAt (reports ++ [r]) i url)
    (hj : InjectsAt (reports ++ [r]) j url) :
    ∃ k, i < k ∧ k < j ∧ CompletesAt (reports ++ [r]) k url := by
  rcases injectsAt_append.1 hj with hj | ⟨rfl, script, hj⟩
  · have hi : InjectsAt reports i url := (injectsAt_append.1 hi).resolve_right fun hc =>
      Nat.lt_asymm hij (hc.1 ▸ hj.lt_length)
    obtain ⟨k, hik, hkj, hk⟩ := h.separated i j url hij hi hj
    exact ⟨k, hik, hkj, hk.append⟩
  · have hi : InjectsAt reports i url :=
      (injectsAt_append.1 hi).resolve_right fun hc => Nat.ne_of_lt hij hc.1
    obtain ⟨⟨id, hinjects⟩, -⟩ := ht.injects heffect hj
    have hfree := hinjects.free
    rw [hbefore] at hfree
    rcases h.flown i url hi with hpending | ⟨k, hik, hk⟩
    · simp [hfree] at hpending
    · exact ⟨k, hik, hk.lt_length, hk.append⟩

theorem Coalesced.append (h : Coalesced l reports) (ht : r.Traffic)
    (heffect : r.Effect reports.length) (hbefore : r.before = l.current reports)
    (hids : FreshIds l (reports ++ [r])) (htracked : Tracked l reports)
    (htracked' : Tracked l (reports ++ [r])) (hurl : r.after.options = r.before.options) :
    Coalesced l (reports ++ [r]) := by
  have hscripts := ht.books_scripts hbefore hids h.scripts
  have htimers := ht.books_timers hbefore hids h.timers
  refine ⟨hscripts, htimers, fun url a b ha hb ha' hb' => hscripts.open_unique ha ha' hb hb',
    fun s hs script url hinjects => ?_, fun n url hinjects => ?_,
    fun i j url => h.separated_append ht heffect hbefore, fun id n hn => ?_⟩
  · rcases List.mem_append.1 hs with hs | hs
    · exact h.injects s hs script url hinjects
    · obtain rfl := List.mem_singleton.1 hs
      exact (ht.injects heffect hinjects).1
  · rcases injectsAt_append.1 hinjects with hinjects | ⟨rfl, script, hinjects⟩
    · exact (h.flown n url hinjects).append ht hbefore hinjects.lt_length
    · left
      rw [Loader.current_append]
      exact (ht.injects heffect hinjects).2
  · refine ⟨(htracked'.missing hn).1, ?_⟩
    rw [Loader.current_append] at hn ⊢
    have hbundle : r.after.bundleUrl id = r.before.bundleUrl id := by
      rw [Loader.bundleUrl, hurl, ← Loader.bundleUrl]
    rw [hbundle]
    rcases heffect.waits hn with hn | ⟨rfl, hpending⟩
    · rw [hbefore] at hn ⊢
      exact (h.awaited id n hn).2.append ht hbefore (htracked.missing hn).2
    · left
      rw [Loader.current_append]
      exact hpending

end Step

/-! ## Runs -/

section Runs

variable {σ : Type} [LoaderHost σ]

omit [LoaderHost σ] in
theorem coalesced_nil (host : σ) (registry : Registry) (options : LoaderOptions) :
    Coalesced (Loader.new ⟨host, []⟩ registry options) [] where
  scripts := ⟨by simp [hostLog, Loader.current, Loader.new, removals], List.nodup_nil, by
    simp [hostLog, Loader.current, Loader.new, injections, Loader.scriptOf?]⟩
  timers := ⟨by simp [hostLog, timersEnded, Loader.current, Loader.new, cancellations],
    List.nodup_nil, by simp [hostLog, Loader.current, Loader.new, timersStarted, Loader.timerOf?]⟩
  single := by simp [hostLog, Loader.current, Loader.new, injections]
  injects := by simp
  flown := by simp [InjectsAt]
  separated := by simp [InjectsAt]
  awaited := by simp [Loader.current, Loader.new, Loader.waitersOf]

/-- **Requests leak nothing.** After every run on a host that gives out fresh ids, the scripts and
timers not yet given back are those of the requests under way, one for each URL at most; scripts
went out for bundles that somebody waited for, never two for a URL without an end between them; and
those who wait have a request under way or one that ended after they came. -/
theorem requests_leak_nothing (host : σ) (registry : Registry) (options : LoaderOptions)
    (calls : List (LoaderCall (Recorded σ)))
    (hids : FreshIds (Loader.new ⟨host, []⟩ registry options)
      ((Loader.new ⟨host, []⟩ registry options).run calls)) :
    Coalesced (Loader.new ⟨host, []⟩ registry options)
      ((Loader.new ⟨host, []⟩ registry options).run calls) := by
  let l : Loader (Recorded σ) Nat := Loader.new ⟨host, []⟩ registry options
  -- ids are fresh in a part of the run because they are in the whole, so they stay a premise
  let P : List (CallReport (Recorded σ)) → Prop := fun reports =>
    Tracked l reports ∧ (FreshIds l reports → Coalesced l reports)
  have hP : P (l.run calls) := by
    refine Loader.reports_induction ⟨tracked_nil _ registry options,
      fun _ => coalesced_nil host registry options⟩ ?_ calls
    rintro reports call ⟨htracked, hcoalesced⟩
    have htracked' := tracked_addReport htracked call
    refine ⟨htracked', fun hfresh => ?_⟩
    have hbefore := call.before_report (l.current reports) reports.length
    have ht := hfresh.kept.traffic
    have hfixed := (call.after_fixed (l.current reports) reports.length).1
    exact (hcoalesced (hfresh.of_append ht hbefore)).append ht
      (call.effect_report _ _) hbefore hfresh htracked htracked' (by rw [hbefore]; exact hfixed)
  exact hP.2 hids

end Runs

/-- A loader that knows one tag. -/
def loaderOfOne (options : LoaderOptions) : Loader (Recorded DocumentLog) Nat :=
  .new ⟨{ nativeShadow := true }, []⟩
    (.ofComponents [{ tag := "a", bundleIds := some (.single "x") }]) options

/-- A request that runs out of time, and a second one that two loads share. -/
def impatientLoads : List (LoaderCall (Recorded DocumentLog)) :=
  [.loadElement "a" none, .completeRequest "x.js" .timedOut, .loadElement "a" none,
    .loadElement "a" none, .completeRequest "x.js" .loaded, .registerBundle ⟨"x", []⟩]

theorem impatient_loads_leak_nothing :
    FreshIds (loaderOfOne {}) ((loaderOfOne {}).run impatientLoads) ∧
      Coalesced (loaderOfOne {}) ((loaderOfOne {}).run impatientLoads) := by
  have hids : FreshIds (loaderOfOne {}) ((loaderOfOne {}).run impatientLoads) :=
    ⟨by decide, by decide, keepsRecord_run (by simp [impatientLoads])⟩
  exact ⟨hids, requests_leak_nothing _ _ _ _ hids⟩

end ComponentBundle
