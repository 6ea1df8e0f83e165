import ComponentBundle.Proofs.Loader.Coalescing
import ComponentBundle.Proofs.Loader.Install

/-!
# The styles of a page

On a page with constant shadow support, the registrations of a run alone decide which templates and
which style elements there are. Two rules keep what came first: the first registration with an
entry for a tag makes the template of the tag, and the first one of a bundle with a text for the
document adds the style element of the bundle.

* `Page.template?`, `Page.newElement?` : the templates and elements that registrations lead to;
* `Matches.register` : a registration leads to them, step by step;
* `styles_follow_registrations` : so does every run, and entries of unregistered tags change
  nothing.
-/

namespace ComponentBundle

/-! ## Pages -/

/-- What decides how a style is installed: the registered components, and whether the host has
native shadow trees. -/
structure Page where
  registry : Registry
  nativeShadow : Bool

/-- Whether a registration has an entry for a tag. -/
def BundleRegistration.mentions (b : BundleRegistration) (tag : String) : Bool :=
  b.styles.any (·.1 = tag)

namespace Page

/-- Whether a tag is registered and its component is drawn in a native shadow tree. -/
def isShadow (page : Page) (tag : String) : Bool :=
  (page.registry.get? tag).any (usesShadowDom page.nativeShadow)

/-- Whether a tag is registered and its component is drawn in the document. -/
def isDocument (page : Page) (tag : String) : Bool :=
  (page.registry.get? tag).any (!usesShadowDom page.nativeShadow ·)

/-- The template of a tag after some registrations: all entries for the tag in the first one that
has any. -/
def template? (page : Page) (registrations : List BundleRegistration) (tag : String) :
    Option String :=
  if page.isShadow tag then
    (registrations.find? (·.mentions tag)).map fun b => joinedText b.styles tag
  else none

/-- What a registration has for the document: the entries of each tag, the tags as they first
appear. -/
def documentText (page : Page) (b : BundleRegistration) : String :=
  String.join (((firstTags b.styles).filter page.isDocument).map (joinedText b.styles))

/-- The style element that a registration adds after earlier ones: none without a text for the
document, and none if an earlier registration of the bundle had one. -/
def newElement? (page : Page) (earlier : List BundleRegistration) (b : BundleRegistration) :
    Option StyleElement :=
  if page.documentText b = "" ∨
      ∃ e ∈ earlier, e.bundleId = b.bundleId ∧ page.documentText e ≠ "" then none
  else some ⟨"style-" ++ b.bundleId, page.documentText b⟩

/-- A registration without its entries of unregistered tags. -/
def strip (page : Page) (b : BundleRegistration) : BundleRegistration :=
  { b with styles := b.styles.filter fun e => (page.registry.get? e.1).isSome }

end Page

theorem BundleRegistration.mentions_iff {b : BundleRegistration} {tag : String} :
    b.mentions tag = true ↔ tag ∈ firstTags b.styles := by
  rw [mem_firstTags, mentions, List.any_eq_true, List.mem_map]
  exact exists_congr fun e => and_congr_right fun _ => decide_eq_true_iff

/-! ## One registration -/

section Registering

variable {σ κ : Type} [LoaderHost σ] {page : Page} {l : Loader σ κ}
  {registrations : List BundleRegistration}

/-- A loader of a page has installed what the registrations lead to. -/
structure Page.Matches (page : Page) (l : Loader σ κ) (registrations : List BundleRegistration) :
    Prop where
  registry : l.registry = page.registry
  templates : ∀ tag, l.template? tag = page.template? registrations tag
  appended : ∀ id, l.appended.contains ("style-" ++ id) = true ↔
    ∃ b ∈ registrations, b.bundleId = id ∧ page.documentText b ≠ ""

theorem Page.Matches.isShadowEntry (h : page.Matches l registrations)
    (hnative : LoaderHost.hasNativeShadow l.host = page.nativeShadow) (e : String × String) :
    l.isShadowEntry e = page.isShadow e.1 := by
  unfold Loader.isShadowEntry Page.isShadow
  rw [h.registry, hnative]

theorem Page.Matches.isDocumentEntry (h : page.Matches l registrations)
    (hnative : LoaderHost.hasNativeShadow l.host = page.nativeShadow) (e : String × String) :
    l.isDocumentEntry e = page.isDocument e.1 := by
  unfold Loader.isDocumentEntry Page.isDocument
  rw [h.registry, hnative]

theorem Page.Matches.documentText (h : page.Matches l registrations)
    (hnative : LoaderHost.hasNativeShadow l.host = page.nativeShadow) (b : BundleRegistration) :
    String.join ((l.documentParts b).map (·.2)) = page.documentText b := by
  have hentry : l.isDocumentEntry ∘ (fun t => (t, joinedText b.styles t)) = page.isDocument :=
    funext fun t => h.isDocumentEntry hnative _
  unfold Loader.documentParts Page.documentText
  rw [groupByTag_eq, List.filter_map, hentry, List.map_map]
  rfl

theorem Page.Matches.newStyle? (h : page.Matches l registrations)
    (hnative : LoaderHost.hasNativeShadow l.host = page.nativeShadow) (b : BundleRegistration) :
    l.newStyle? b = page.newElement? registrations b := by
  have htext := h.documentText hnative b
  unfold Loader.documentParts at htext
  unfold Loader.newStyle? Page.newElement?
  dsimp only
  rw [htext]
  exact if_congr (or_congr Iff.rfl (h.appended b.bundleId)) rfl rfl

theorem Page.template?_nil (page : Page) (tag : String) : page.template? [] tag = none := by
  unfold template?
  split <;> rfl

theorem Page.template?_append (page : Page) (registrations : List BundleRegistration)
    (b : BundleRegistration) (tag : String) :
    page.template? (registrations ++ [b]) tag =
      (page.template? registrations tag).or
        (if tag ∈ firstTags b.styles ∧ page.isShadow tag = true then
          some (joinedText b.styles tag) else none) := by
  unfold Page.template?
  cases page.isShadow tag with
  | false => simp
  | true =>
    rw [if_pos rfl, if_pos rfl, List.find?_append, Option.map_or, List.find?_singleton]
    congr 1
    by_cases hmentions : b.mentions tag = true
    · simp [hmentions, BundleRegistration.mentions_iff.1 hmentions]
    · simp [hmentions, mt BundleRegistration.mentions_iff.2 hmentions]

theorem Page.Matches.appended_installStyles (h : page.Matches l registrations)
    (hnative : LoaderHost.hasNativeShadow l.host = page.nativeShadow) (b : BundleRegistration)
    (id : String) :
    (l.installStyles b).appended.contains ("style-" ++ id) = true ↔
      l.appended.contains ("style-" ++ id) = true ∨
        (b.bundleId = id ∧ page.documentText b ≠ "") := by
  have htext := h.documentText hnative b
  unfold Loader.documentParts at htext
  unfold Loader.installStyles
  dsimp only
  rw [htext]
  split
  · -- nothing is added: there is no text, or the element of the bundle is there
    rename_i hnone
    constructor
    · exact .inl
    · rintro (hold | ⟨rfl, hne⟩)
      · exact hold
      · exact hnone.resolve_left hne
  · rename_i hadds
    show ((l.appended.insert ("style-" ++ b.bundleId) ()).get? ("style-" ++ id)).isSome = true ↔ _
    rw [SortedMap.get?_insert_eq]
    by_cases hid : id = b.bundleId
    · subst hid
      simp [mt Or.inl hadds]
    · have hne : "style-" ++ id ≠ "style-" ++ b.bundleId := fun heq =>
        hid ((String.append_right_inj _).1 heq)
      simp [hne, Ne.symm hid, SortedMap.contains]

/-- A registration leads to what is due after the earlier ones and itself. -/
theorem Page.Matches.register (h : page.Matches l registrations)
    (hnative : LoaderHost.hasNativeShadow l.host = page.nativeShadow) (b : BundleRegistration) :
    page.Matches (l.registerBundle b).1 (registrations ++ [b]) where
  registry := (Loader.installStyles_registry l b).trans h.registry
  templates tag := by
    rw [Loader.template?_registerBundle, Loader.template?_installStyles, h.templates,
      h.isShadowEntry hnative, Page.template?_append]
  appended id := by
    refine (h.appended_installStyles hnative b id).trans ?_
    rw [h.appended]
    simp [or_and_right, exists_or]

end Registering

/-! ## Unregistered tags -/

section Stripping

theorem firstTags_filter (entries : List (String × String)) (p : String → Bool) :
    firstTags (entries.filter (p ·.1)) = (firstTags entries).filter p := by
  induction entries using List.reverseRecOn with
  | nil => rfl
  | append_singleton entries e ih =>
    rw [List.filter_append, firstTags_append]
    cases hp : p e.1 with
    | false =>
      have hdropped : [e].filter (p ·.1) = [] := by simp [hp]
      rw [hdropped, List.append_nil, ih]
      split
      · rfl
      · simp [List.filter_append, hp]
    | true =>
      have hkept : [e].filter (p ·.1) = [e] := by simp [hp]
      rw [hkept, firstTags_append, ih]
      by_cases hmem : e.1 ∈ firstTags entries
      · simp [hmem, hp]
      · simp [hmem, hp, List.filter_append]

theorem joinedText_filter (entries : List (String × String)) {p : String → Bool} {tag : String}
    (h : p tag = true) : joinedText (entries.filter (p ·.1)) tag = joinedText entries tag := by
  have hsame : (entries.filter (p ·.1)).filter (·.1 = tag) = entries.filter (·.1 = tag) := by
    rw [List.filter_filter]
    refine List.filter_congr fun e _ => ?_
    by_cases he : e.1 = tag
    · simp [he, h]
    · simp [he]
  unfold joinedText
  rw [hsame]

variable {σ κ : Type} [LoaderHost σ] {page : Page} {l : Loader σ κ}

theorem filter_groups_strip {q : String × String → Bool}
    (hq : ∀ e, q e = true → (page.registry.get? e.1).isSome = true) (b : BundleRegistration) :
    (Loader.groupByTag (page.strip b).styles).filter q =
      (Loader.groupByTag b.styles).filter q := by
  have htags : firstTags (page.strip b).styles =
      (firstTags b.styles).filter fun t => (page.registry.get? t).isSome :=
    firstTags_filter b.styles fun t => (page.registry.get? t).isSome
  rw [groupByTag_eq, groupByTag_eq, htags]
  induction firstTags b.styles with
  | nil => rfl
  | cons t tags ih =>
    cases ht : (page.registry.get? t).isSome with
    | true =>
      have hjoined : joinedText (page.strip b).styles t = joinedText b.styles t :=
        joinedText_filter b.styles (p := fun t => (page.registry.get? t).isSome) ht
      simp only [List.filter_cons, ht, if_true, List.map_cons, hjoined, ih]
    | false =>
      have hout : q (t, joinedText b.styles t) = false := by
        cases hqt : q (t, joinedText b.styles t) with
        | false => rfl
        | true => exact absurd (hq _ hqt) (by simp [ht])
      simp only [List.filter_cons, ht, hout, Bool.false_eq_true, if_false, List.map_cons, ih]

theorem registerBundle_strip (hregistry : l.registry = page.registry) (b : BundleRegistration) :
    l.registerBundle (page.strip b) = l.registerBundle b := by
  have hshadow : (Loader.groupByTag (page.strip b).styles).filter l.isShadowEntry =
      (Loader.groupByTag b.styles).filter l.isShadowEntry :=
    filter_groups_strip (fun e he => by rw [← hregistry]; exact Option.isSome_of_any he) b
  have hdocument : (Loader.groupByTag (page.strip b).styles).filter l.isDocumentEntry =
      (Loader.groupByTag b.styles).filter l.isDocumentEntry :=
    filter_groups_strip (fun e he => by rw [← hregistry]; exact Option.isSome_of_any he) b
  have hid : (page.strip b).bundleId = b.bundleId := rfl
  have hinstall : l.installStyles (page.strip b) = l.installStyles b := by
    unfold Loader.installStyles
    dsimp only
    rw [hshadow, hdocument, hid]
  unfold Loader.registerBundle
  rw [hinstall, hid]

end Stripping

/-! ## Calls -/

section Calls

variable {σ : Type}

def CallReport.registration? (r : CallReport σ) : Option BundleRegistration :=
  match r.call with
  | .registerBundle b => some b
  | _ => none

/-- The registrations of a run, in order. -/
def registrationsOf (reports : List (CallReport σ)) : List BundleRegistration :=
  reports.filterMap (·.registration?)

def LoaderCall.strip (page : Page) (call : LoaderCall σ) : LoaderCall σ :=
  match call with
  | registerBundle b => .registerBundle (page.strip b)
  | _ => call

def CallReport.strip (page : Page) (r : CallReport σ) : CallReport σ :=
  { r with call := r.call.strip page }

theorem registrationsOf_append (reports : List (CallReport σ)) (r : CallReport σ) :
    registrationsOf (reports ++ [r]) = registrationsOf reports ++ r.registration?.toList := by
  unfold registrationsOf
  rw [List.filterMap_append]
  cases h : r.registration? <;> simp [h]

variable [LoaderHost σ] {page : Page}

theorem LoaderCall.report_strip (call : LoaderCall σ) {l : Loader σ Nat}
    (hregistry : l.registry = page.registry) (n : Nat) :
    (call.strip page).report l n = (call.report l n).strip page := by
  cases call with
  | registerBundle b =>
    unfold strip CallReport.strip report
    dsimp only
    rw [registerBundle_strip hregistry]
    rfl
  | loadBundle c mode =>
    unfold strip CallReport.strip report loadReport
    dsimp only
    split <;> rfl
  | loadElement tag mode =>
    unfold strip CallReport.strip report loadReport
    dsimp only
    split <;> rfl
  | completeRequest url outcome => rfl
  | hostChange host => rfl

theorem LoaderCall.matches_report (call : LoaderCall σ) {l : Loader σ Nat} (n : Nat)
    (hnative : LoaderHost.hasNativeShadow l.host = page.nativeShadow)
    {registrations : List BundleRegistration} (h : page.Matches l registrations) :
    page.Matches (call.report l n).after
      (registrations ++ (call.report l n).registration?.toList) := by
  have hcall := call.call_report l n
  by_cases hregister : ∃ b, call = .registerBundle b
  · obtain ⟨b, rfl⟩ := hregister
    exact h.register hnative b
  · have hnone : (call.report l n).registration? = none := by
      unfold CallReport.registration?
      rw [hcall]
      cases call with
      | registerBundle b => exact absurd ⟨b, rfl⟩ hregister
      | _ => rfl
    rw [hnone, Option.toList_none, List.append_nil]
    obtain ⟨htemplates, happended⟩ :=
      call.after_report (P := fun m => m.templates = l.templates ∧ m.appended = l.appended) l n
        ⟨rfl, rfl⟩ (fun id => ⟨Loader.await_templates l id n, Loader.await_appended l id n⟩)
        (fun url o => ⟨Loader.completeRequest_templates l url o,
          Loader.completeRequest_appended l url o⟩)
        (fun b hb => absurd ⟨b, hb⟩ hregister) fun _ => ⟨rfl, rfl⟩
    refine ⟨(call.after_fixed l n).2.trans h.registry, fun tag => ?_, fun id => ?_⟩
    · rw [Loader.template?, htemplates]
      exact h.templates tag
    · rw [happended]
      exact h.appended id

theorem CallReport.Traffic.stylesAppended_eq {r : CallReport (Recorded σ)} (h : r.Traffic)
    (hafter : ∀ b, r.call = .registerBundle b → r.after = (r.before.registerBundle b).1) :
    stylesAppended r.events = (r.registration?.bind r.before.newStyle?).toList := by
  by_cases hregister : ∃ b, r.call = .registerBundle b
  · obtain ⟨b, hb⟩ := hregister
    have hevents : r.after.host.events =
        r.before.host.events ++ (r.before.newStyle? b).toList.map .appendStyle := by
      rw [hafter b hb, Loader.host_registerBundle, Loader.installStyles_events]
    have hregistration : r.registration? = some b := by
      unfold CallReport.registration?
      rw [hb]
    rw [CallReport.events_of_append hevents, hregistration]
    cases hnew : r.before.newStyle? b <;> simp [stylesAppended, hnew]
  · have hnone : r.registration? = none := by
      unfold CallReport.registration?
      split
      · rename_i b hb
        exact absurd ⟨b, hb⟩ hregister
      · rfl
    rw [hnone, Option.bind_none, Option.toList_none, List.eq_nil_iff_forall_not_mem]
    intro e he
    obtain ⟨b, hb, -⟩ := h.newStyle he
    exact hregister ⟨b, hb⟩

end Calls

/-! ## Runs -/

section Runs

variable {σ : Type}

/-- The styles of a run are those that its registrations lead to. -/
structure StylesFollow [LoaderHost σ] (page : Page) (l : Loader (Recorded σ) Nat)
    (reports : List (CallReport (Recorded σ))) : Prop where
  /-- After the first `n` calls. -/
  templates : ∀ n tag, (l.current (reports.take n)).template? tag =
    page.template? (registrationsOf (reports.take n)) tag
  elements : ∀ (n : Nat) (r : CallReport (Recorded σ)), reports[n]? = some r →
    stylesAppended r.events =
      (r.registration?.bind (page.newElement? (registrationsOf (reports.take n)))).toList
  /-- No style element is added twice. -/
  once : ((stylesAppended (hostLog l reports)).map (·.id)).Nodup

variable [LoaderHost σ] {page : Page} {l : Loader (Recorded σ) Nat}
  {reports : List (CallReport (Recorded σ))}

/-- The loader of a run is as its registrations say, and every element that was added comes from
one of them. -/
structure Page.Traces (page : Page) (l : Loader (Recorded σ) Nat)
    (reports : List (CallReport (Recorded σ))) : Prop where
  matched : page.Matches (l.current reports) (registrationsOf reports)
  known : ∀ e ∈ stylesAppended (hostLog l reports),
    ∃ b ∈ registrationsOf reports, e.id = "style-" ++ b.bundleId ∧ page.documentText b ≠ ""
  follows : StylesFollow page l reports

theorem Page.newElement?_eq_some {earlier : List BundleRegistration} {b : BundleRegistration}
    {e : StyleElement} (h : page.newElement? earlier b = some e) :
    e.id = "style-" ++ b.bundleId ∧ page.documentText b ≠ "" ∧
      ∀ d ∈ earlier, page.documentText d ≠ "" → e.id ≠ "style-" ++ d.bundleId := by
  unfold newElement? at h
  split at h
  · cases h
  · rename_i hdue
    obtain rfl := Option.some.inj h
    refine ⟨rfl, fun hnone => hdue (.inl hnone),
      fun d hd htext hid => hdue (.inr ⟨d, hd, ?_, htext⟩)⟩
    exact ((String.append_right_inj _).1 hid).symm

/-- What a call adds to a run: its registration, and the element that is due for it. -/
structure Page.Adds (page : Page) (l : Loader (Recorded σ) Nat)
    (reports : List (CallReport (Recorded σ))) (r : CallReport (Recorded σ)) : Prop where
  matched : page.Matches r.after (registrationsOf reports ++ r.registration?.toList)
  elements : stylesAppended r.events =
    (r.registration?.bind (page.newElement? (registrationsOf reports))).toList
  log : stylesAppended (hostLog l (reports ++ [r])) =
    stylesAppended (hostLog l reports) ++ stylesAppended r.events

theorem Page.Traces.adds (h : page.Traces l reports) {call : LoaderCall (Recorded σ)}
    (hkept : KeepsRecord (l.addReport reports call))
    (hnative : LoaderHost.hasNativeShadow (l.current reports).host = page.nativeShadow) :
    page.Adds l reports (call.report (l.current reports) reports.length) := by
  have htraffic := hkept.traffic
  have hmatched := call.matches_report reports.length hnative h.matched
  have hbefore := call.before_report (l.current reports) reports.length
  have hafter : ∀ b, (call.report (l.current reports) reports.length).call = .registerBundle b →
      (call.report (l.current reports) reports.length).after =
        ((call.report (l.current reports) reports.length).before.registerBundle b).1 := by
    intro b hb
    rw [call.call_report] at hb
    subst hb
    rfl
  have helements := htraffic.stylesAppended_eq hafter
  generalize call.report (l.current reports) reports.length = r at *
  refine ⟨hmatched, ?_, ?_⟩
  · rw [helements, hbefore]
    exact congrArg (fun f => (r.registration?.bind f).toList)
      (funext fun b => h.matched.newStyle? hnative b)
  · obtain ⟨new, hnew⟩ := htraffic.log_append
    rw [CallReport.events_of_append hnew, hostLog_append, hnew, hbefore]
    exact List.filterMap_append

section Adds

variable {r : CallReport (Recorded σ)}

omit [LoaderHost σ] in
theorem Page.Adds.due (h : page.Adds l reports r) {e : StyleElement}
    (he : e ∈ stylesAppended r.events) : ∃ b, r.registration? = some b ∧
      page.newElement? (registrationsOf reports) b = some e := by
  rw [h.elements, Option.mem_toList] at he
  exact Option.bind_eq_some_iff.1 he

theorem Page.Traces.known_append (h : page.Traces l reports) (hadds : page.Adds l reports r)
    {e : StyleElement} (he : e ∈ stylesAppended (hostLog l (reports ++ [r]))) :
    ∃ b ∈ registrationsOf (reports ++ [r]),
      e.id = "style-" ++ b.bundleId ∧ page.documentText b ≠ "" := by
  rw [registrationsOf_append]
  rw [hadds.log, List.mem_append] at he
  rcases he with he | he
  · obtain ⟨b, hb, hid⟩ := h.known e he
    exact ⟨b, List.mem_append_left _ hb, hid⟩
  · obtain ⟨b, hb, hdue⟩ := hadds.due he
    obtain ⟨hid, htext, -⟩ := Page.newElement?_eq_some hdue
    exact ⟨b, List.mem_append_right _ (by simp [hb]), hid, htext⟩

theorem StylesFollow.templates_append (h : StylesFollow page l reports)
    (hadds : page.Adds l reports r) (n : Nat) (tag : String) :
    (l.current ((reports ++ [r]).take n)).template? tag =
      page.template? (registrationsOf ((reports ++ [r]).take n)) tag := by
  rcases Nat.lt_or_ge reports.length n with hn | hn
  · have hlength : (reports ++ [r]).length ≤ n := by
      rw [List.length_append, List.length_singleton]
      exact hn
    rw [List.take_of_length_le hlength, Loader.current_append, registrationsOf_append]
    exact hadds.matched.templates tag
  · rw [List.take_append_of_le_length hn]
    exact h.templates n tag

theorem StylesFollow.elements_append (h : StylesFollow page l reports)
    (hadds : page.Adds l reports r) {n : Nat} {s : CallReport (Recorded σ)}
    (hs : (reports ++ [r])[n]? = some s) : stylesAppended s.events =
      (s.registration?.bind
        (page.newElement? (registrationsOf ((reports ++ [r]).take n)))).toList := by
  rcases Nat.lt_or_ge n reports.length with hn | hn
  · rw [List.getElem?_append_left hn] at hs
    rw [List.take_append_of_le_length (Nat.le_of_lt hn)]
    exact h.elements n s hs
  · rw [List.getElem?_append_right hn, List.getElem?_singleton] at hs
    split at hs
    · rename_i hzero
      obtain rfl := Option.some.inj hs
      have hlength : n = reports.length := by omega
      rw [hlength, List.take_left]
      exact hadds.elements
    · cases hs

theorem Page.Traces.once_append (h : page.Traces l reports) (hadds : page.Adds l reports r) :
    ((stylesAppended (hostLog l (reports ++ [r]))).map (·.id)).Nodup := by
  rw [hadds.log, List.map_append, List.nodup_append]
  refine ⟨h.follows.once, ?_, fun id hold id' hid' heq => ?_⟩
  · rw [hadds.elements]
    cases r.registration?.bind (page.newElement? (registrationsOf reports)) <;> simp
  -- what is due was not added for an earlier registration
  · subst heq
    obtain ⟨e, he, heid⟩ := List.mem_map.1 hold
    obtain ⟨d, hd, hdid, hdtext⟩ := h.known e he
    obtain ⟨e', he', rfl⟩ := List.mem_map.1 hid'
    obtain ⟨b, -, hdue⟩ := hadds.due he'
    exact (Page.newElement?_eq_some hdue).2.2 d hd hdtext (heid.symm.trans hdid)

end Adds

theorem Page.Traces.append (h : page.Traces l reports) {call : LoaderCall (Recorded σ)}
    (hkept : KeepsRecord (l.addReport reports call))
    (hnative : LoaderHost.hasNativeShadow (l.current reports).host = page.nativeShadow) :
    page.Traces l (l.addReport reports call) := by
  have hadds := h.adds hkept hnative
  unfold Loader.addReport
  refine ⟨?_, fun e he => h.known_append hadds he,
    fun n tag => h.follows.templates_append hadds n tag,
    fun n s hs => h.follows.elements_append hadds hs, h.once_append hadds⟩
  rw [Loader.current_append, registrationsOf_append]
  exact hadds.matched

omit [LoaderHost σ] in
theorem Loader.current_strip (l : Loader σ Nat) (reports : List (CallReport σ)) :
    l.current (reports.map (·.strip page)) = l.current reports := by
  unfold current
  rw [List.getLast?_map]
  cases reports.getLast? <;> rfl

theorem Loader.run_strip {l : Loader σ Nat} (hregistry : l.registry = page.registry)
    (calls : List (LoaderCall σ)) :
    l.run (calls.map (·.strip page)) = (l.run calls).map (·.strip page) := by
  unfold run
  suffices h : ∀ reports : List (CallReport σ), (l.current reports).registry = page.registry →
      (calls.map (·.strip page)).foldl l.addReport (reports.map (·.strip page)) =
        (calls.foldl l.addReport reports).map (·.strip page) from h [] hregistry
  induction calls with
  | nil => exact fun reports _ => rfl
  | cons call calls ih =>
    intro reports hcurrent
    have hadd : l.addReport (reports.map (·.strip page)) (call.strip page) =
        (l.addReport reports call).map (·.strip page) := by
      rw [addReport, addReport, List.map_append, current_strip, List.length_map,
        call.report_strip hcurrent]
      rfl
    rw [List.map_cons, List.foldl_cons, List.foldl_cons, hadd]
    refine ih _ ?_
    rw [addReport, current_append]
    exact (call.after_fixed _ _).2.trans hcurrent

/-- **Styles follow registrations.** In every run of a loader over any registry, on a host whose
shadow support stays as it is: a registered tag that is drawn in a native shadow tree has no
template until the first registration with an entry for it, and all entries of that registration
from then on; any other tag has none. The host gets a style element for a bundle once at most, from
the first registration of the bundle with a text for the document, which are the entries of the
registered tags drawn in the document. Without the entries of unregistered tags the run is the
same. -/
theorem styles_follow_registrations (host : σ) (registry : Registry) (options : LoaderOptions)
    (calls : List (LoaderCall (Recorded σ))) {nativeShadow : Bool}
    (hnative : ∀ r ∈ (Loader.new ⟨host, []⟩ registry options).run calls,
      LoaderHost.hasNativeShadow r.before.host = nativeShadow)
    (hkept : KeepsRecord ((Loader.new ⟨host, []⟩ registry options).run calls)) :
    StylesFollow ⟨registry, nativeShadow⟩ (Loader.new ⟨host, []⟩ registry options)
        ((Loader.new ⟨host, []⟩ registry options).run calls) ∧
      (Loader.new ⟨host, []⟩ registry options).run
          (calls.map (·.strip ⟨registry, nativeShadow⟩)) =
        ((Loader.new ⟨host, []⟩ registry options).run calls).map
          (·.strip ⟨registry, nativeShadow⟩) := by
  let l : Loader (Recorded σ) Nat := Loader.new ⟨host, []⟩ registry options
  let page : Page := ⟨registry, nativeShadow⟩
  let P : List (CallReport (Recorded σ)) → Prop := fun reports =>
    KeepsRecord reports → (∀ r ∈ reports, LoaderHost.hasNativeShadow r.before.host = nativeShadow) →
      page.Traces l reports
  have hnil : P [] := by
    refine fun _ _ => ⟨⟨rfl, fun tag => ?_, fun id => ?_⟩, fun e he => ?_, fun n tag => ?_,
      fun n r hr => ?_, ?_⟩
    · exact (page.template?_nil tag).symm
    · simp [l, registrationsOf, Loader.current, Loader.new, SortedMap.contains]
    · cases he
    · rw [List.take_nil]
      exact (page.template?_nil tag).symm
    · cases hr
    · exact List.nodup_nil
  have hstep : ∀ reports call, P reports → P (l.addReport reports call) := by
    intro reports call ih hkept hnative
    have hlast := hnative _ (List.mem_append_right _ (List.mem_singleton_self _))
    rw [call.before_report] at hlast
    exact (ih (fun r hr => hkept r (List.mem_append_left _ hr))
      fun r hr => hnative r (List.mem_append_left _ hr)).append hkept hlast
  exact ⟨(Loader.reports_induction hnil hstep calls hkept hnative).follows,
    Loader.run_strip rfl calls⟩

end Runs

/-! ## A run -/

/-- A tag with a shadow tree, and one that is styled in the document. -/
def twoTags : Registry :=
  .ofComponents [{ tag := "x-a", encapsulation := .shadowDom }, { tag := "x-b" }]

/-- Two bundles that share tags, registered twice each, with an unregistered tag and a load between
them. -/
def sharedTags : List (LoaderCall (Recorded DocumentLog)) :=
  [.registerBundle ⟨"m", [("x-b", "")]⟩, .loadElement "x-a" none,
    .registerBundle ⟨"m", [("x-b", "p"), ("x-a", "h1"), ("x-c", "i"), ("x-b", "q"), ("x-a", "h2")]⟩,
    .registerBundle ⟨"m", [("x-a", "h3"), ("x-b", "r")]⟩, .registerBundle ⟨"n", [("x-b", "s")]⟩]

theorem shared_tags_follow :
    let l : Loader (Recorded DocumentLog) Nat := .new ⟨{ nativeShadow := true }, []⟩ twoTags {}
    (∀ r ∈ l.run sharedTags, LoaderHost.hasNativeShadow r.before.host = true) ∧
      KeepsRecord (l.run sharedTags) ∧ StylesFollow ⟨twoTags, true⟩ l (l.run sharedTags) ∧
      (l.current (l.run sharedTags)).template? "x-a" = some "h1h2" ∧
      stylesAppended (hostLog l (l.run sharedTags)) = [⟨"style-m", "pq"⟩, ⟨"style-n", "s"⟩] := by
  intro l
  have hnative : ∀ r ∈ l.run sharedTags, LoaderHost.hasNativeShadow r.before.host = true := by
    decide +kernel
  have hkept : KeepsRecord (l.run sharedTags) := keepsRecord_run (by simp [sharedTags])
  have hfollow := (styles_follow_registrations _ _ _ sharedTags hnative hkept).1
  refine ⟨hnative, hkept, hfollow, ?_, by decide +kernel⟩
  -- the registrations decide the template, so it is read off them
  exact (hfollow.templates 5 "x-a").trans (by decide +kernel)

end ComponentBundle
