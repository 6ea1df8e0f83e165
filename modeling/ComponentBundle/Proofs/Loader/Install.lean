import ComponentBundle.Proofs.Bundle.Payload
import ComponentBundle.Proofs.Loader.Record
import Mathlib.Data.List.Induction

/-!
# What registrations install

A registration groups its entries by tag and installs every group once: in the template of its tag,
where none is there, or as a part of the style element of the bundle.

* `groupByTag_eq` : the groups are the joined texts of the tags, in the order of first appearance;
* `AllStyles` : all style texts that a run installed are of a kind;
* `allStyles_run` : they are if the groups of all registrations are.
-/

namespace ComponentBundle

/-! ## Grouping -/

/-- The tags of entries, in the order in which they first appear. -/
def firstTags (entries : List (String × String)) : List String :=
  entries.foldl (fun tags e => if e.1 ∈ tags then tags else tags ++ [e.1]) []

theorem firstTags_append (entries : List (String × String)) (e : String × String) :
    firstTags (entries ++ [e]) =
      if e.1 ∈ firstTags entries then firstTags entries else firstTags entries ++ [e.1] := by
  unfold firstTags
  rw [List.foldl_append]
  rfl

theorem nodup_firstTags (entries : List (String × String)) : (firstTags entries).Nodup := by
  induction entries using List.reverseRecOn with
  | nil => exact List.nodup_nil
  | append_singleton entries e ih =>
    rw [firstTags_append]
    split
    · exact ih
    · rename_i hnew
      exact List.nodup_append.2 ⟨ih, by simp, fun t ht t' ht' heq =>
        hnew (List.mem_singleton.1 ht' ▸ heq ▸ ht)⟩

theorem mem_firstTags {entries : List (String × String)} {tag : String} :
    tag ∈ firstTags entries ↔ tag ∈ entries.map (·.1) := by
  induction entries using List.reverseRecOn with
  | nil => simp [firstTags]
  | append_singleton entries e ih =>
    rw [firstTags_append, List.map_append, List.mem_append, ← ih]
    split
    · rename_i hold
      constructor
      · exact .inl
      · rintro (h | h)
        · exact h
        · rw [List.mem_singleton.1 h]
          exact hold
    · simp

theorem mem_firstTags_iff {entries : List (String × String)} (h : ∀ e ∈ entries, e.2 ≠ "")
    {tag : String} : tag ∈ firstTags entries ↔ joinedText entries tag ≠ "" := by
  rw [mem_firstTags]
  refine ⟨fun hmem => ?_, fun hne => by_contra fun hnew => hne (joinedText_of_notMem hnew)⟩
  obtain ⟨e, he, rfl⟩ := List.mem_map.1 hmem
  obtain ⟨es, ds, rfl⟩ := List.append_of_mem he
  rw [joinedText_append, joinedText_cons, if_pos rfl]
  simp [h e he]

theorem addEntry_map (f : String → String) {tags : List String} (hnodup : tags.Nodup)
    (tag text : String) :
    Loader.addEntry (tags.map fun t => (t, f t)) tag text =
      if tag ∈ tags then tags.map fun t => (t, f t ++ if tag = t then text else "")
      else tags.map (fun t => (t, f t)) ++ [(tag, text)] := by
  induction tags with
  | nil => rfl
  | cons t tags ih =>
    obtain ⟨hnew, hnodup⟩ := List.nodup_cons.1 hnodup
    rw [List.map_cons, Loader.addEntry, ih hnodup]
    by_cases ht : t = tag
    · subst ht
      have hothers : ∀ u ∈ tags, (u, f u) = (u, f u ++ if t = u then text else "") := by
        intro u hu
        have hne : t ≠ u := fun h => hnew (h ▸ hu)
        simp [hne]
      simp [List.map_congr_left hothers]
    · have ht' : tag ≠ t := Ne.symm ht
      by_cases hmem : tag ∈ tags <;> simp [ht, ht', hmem]

/-- Grouping joins the texts of each tag, and the tags stand as they first appear. -/
theorem groupByTag_eq (entries : List (String × String)) :
    Loader.groupByTag entries = (firstTags entries).map fun t => (t, joinedText entries t) := by
  induction entries using List.reverseRecOn with
  | nil => rfl
  | append_singleton entries e ih =>
    have hstep : Loader.groupByTag (entries ++ [e]) =
        Loader.addEntry (Loader.groupByTag entries) e.1 e.2 := by
      unfold Loader.groupByTag
      rw [List.foldl_append]
      rfl
    rw [hstep, ih, addEntry_map _ (nodup_firstTags entries), firstTags_append]
    have hjoined : ∀ t, joinedText (entries ++ [e]) t =
        joinedText entries t ++ (if e.1 = t then e.2 else "") := by
      intro t
      rw [joinedText_append, joinedText_cons]
      exact congrArg (joinedText entries t ++ ·) String.append_empty
    by_cases hold : e.1 ∈ firstTags entries
    · rw [if_pos hold, if_pos hold]
      exact List.map_congr_left fun t _ => by rw [hjoined]
    · rw [if_neg hold, if_neg hold, List.map_append]
      have hnone : joinedText entries e.1 = "" :=
        joinedText_of_notMem fun h => hold (mem_firstTags.2 h)
      congr 1
      · refine List.map_congr_left fun t ht => ?_
        have hne : e.1 ≠ t := fun h => hold (h ▸ ht)
        rw [hjoined, if_neg hne, String.append_empty]
      · simp [hjoined, hnone]

example : Loader.groupByTag [("x-a", "h1"), ("x-b", "p"), ("x-a", "h2")] =
    [("x-a", "h1h2"), ("x-b", "p")] := by decide

namespace Loader

variable {σ κ : Type} [LoaderHost σ]

/-- The groups of a registration that make up its style element. -/
def documentParts (l : Loader σ κ) (r : BundleRegistration) : List (String × String) :=
  (groupByTag r.styles).filter l.isDocumentEntry

section Templates

variable (l : Loader σ κ) (id : String) (url : String)

@[simp] theorem request_templates : (l.request id).templates = l.templates := by
  unfold request; dsimp only; split <;> rfl

@[simp] theorem completeRequest_templates (o : RequestOutcome) :
    (l.completeRequest url o).templates = l.templates := by
  unfold completeRequest; split <;> rfl

@[simp] theorem await_templates (w : κ) : (l.await id w).1.templates = l.templates := by
  unfold await
  split
  · rfl
  · exact request_templates _ id

@[simp] theorem request_appended : (l.request id).appended = l.appended := by
  unfold request; dsimp only; split <;> rfl

@[simp] theorem completeRequest_appended (o : RequestOutcome) :
    (l.completeRequest url o).appended = l.appended := by
  unfold completeRequest; split <;> rfl

@[simp] theorem await_appended (w : κ) : (l.await id w).1.appended = l.appended := by
  unfold await
  split
  · rfl
  · exact request_appended _ id

theorem template?_registerBundle (r : BundleRegistration) (tag : String) :
    (l.registerBundle r).1.template? tag = (l.installStyles r).template? tag := by
  unfold registerBundle template?
  rfl

theorem host_registerBundle (r : BundleRegistration) :
    (l.registerBundle r).1.host = (l.installStyles r).host := by
  unfold registerBundle
  rfl

theorem template?_installStyles (r : BundleRegistration) (tag : String) :
    (l.installStyles r).template? tag =
      (l.template? tag).or
        (if tag ∈ firstTags r.styles ∧ l.isShadowEntry (tag, joinedText r.styles tag) = true then
          some (joinedText r.styles tag) else none) := by
  have htemplates : (l.installStyles r).templates = ((groupByTag r.styles).filter
      l.isShadowEntry).foldl (fun m e => m.insertIfNew e.1 e.2) l.templates := by
    unfold installStyles; dsimp only; split <;> rfl
  unfold template?
  rw [htemplates, SortedMap.get?_foldl_insertIfNew, groupByTag_eq]
  congr 1
  split
  · rename_i h
    have hgroup : (tag, joinedText r.styles tag) ∈ ((firstTags r.styles).map fun t =>
        (t, joinedText r.styles t)).filter l.isShadowEntry :=
      List.mem_filter.2 ⟨List.mem_map.2 ⟨tag, h.1, rfl⟩, h.2⟩
    obtain ⟨e, he⟩ := Option.isSome_iff_exists.1
      (List.find?_isSome (p := fun e => decide (e.1 = tag)).2 ⟨_, hgroup, by simp⟩)
    have hkey : e.1 = tag := by simpa using List.find?_some he
    obtain ⟨t, -, rfl⟩ := List.mem_map.1 (List.mem_filter.1 (List.mem_of_find?_eq_some he)).1
    rw [he, ← hkey]
    rfl
  · rename_i h
    rw [List.find?_eq_none.2, Option.map_none]
    intro e he hkey
    obtain ⟨hmem, hshadow⟩ := List.mem_filter.1 he
    obtain ⟨t, ht, rfl⟩ := List.mem_map.1 hmem
    obtain rfl : t = tag := of_decide_eq_true hkey
    exact h ⟨ht, hshadow⟩

end Templates

theorem newStyle?_eq_some {l : Loader σ κ} {r : BundleRegistration} {e : StyleElement}
    (h : l.newStyle? r = some e) :
    e = ⟨"style-" ++ r.bundleId, String.join ((l.documentParts r).map (·.2))⟩ := by
  unfold newStyle? at h
  dsimp only at h
  split at h
  · cases h
  · exact (Option.some.inj h).symm

end Loader

/-! ## Calls -/

section Calls

variable {σ : Type} [LoaderHost σ]

theorem LoaderCall.templates_report (call : LoaderCall σ) (l : Loader σ Nat) (n : Nat)
    (h : ∀ b, call ≠ .registerBundle b) : (call.report l n).after.templates = l.templates :=
  call.after_report (P := fun m => m.templates = l.templates) l n rfl
    (fun id => Loader.await_templates l id n) (Loader.completeRequest_templates l)
    (fun b hb => absurd hb (h b)) fun _ => rfl

theorem CallReport.Traffic.newStyle {r : CallReport (Recorded σ)} (h : r.Traffic)
    {e : StyleElement} (he : e ∈ stylesAppended r.events) :
    ∃ b, r.call = .registerBundle b ∧ r.before.newStyle? b = some e := by
  cases h with
  | opens id script timer timeout accepts missing free expired inFlight events =>
    rw [CallReport.events_of_append events] at he
    simp [stylesAppended] at he
  | ends url outcome p call found inFlight events =>
    rw [CallReport.events_of_append events] at he
    by_cases ho : outcome = .timedOut <;> simp [ho, stylesAppended] at he
  | keeps styles appended expired inFlight events =>
    rw [CallReport.events_of_append events] at he
    refine appended e ?_
    simpa [stylesAppended] using he

end Calls

/-! ## Runs -/

section Runs

variable {σ : Type} [LoaderHost σ]

/-- All style texts that a run installed for a tag are as they should be: the templates, and the
parts that the style elements are joined from. -/
structure AllStyles (good : String → String → Prop) (l : Loader (Recorded σ) Nat)
    (reports : List (CallReport (Recorded σ))) : Prop where
  templates : ∀ tag text, (l.current reports).template? tag = some text → good tag text
  elements : ∀ r ∈ reports, ∀ e ∈ stylesAppended r.events, ∃ b, r.call = .registerBundle b ∧
    e = ⟨"style-" ++ b.bundleId, String.join ((r.before.documentParts b).map (·.2))⟩ ∧
    ∀ p ∈ r.before.documentParts b, good p.1 p.2

/-- The groups of a registration that are not left out are all as they should be. -/
def GoodGroups (good : String → String → Prop) (r : CallReport (Recorded σ)) : Prop :=
  ∀ b, r.call = .registerBundle b → ∀ e ∈ Loader.groupByTag b.styles,
    (r.before.registry.get? e.1).isSome → good e.1 e.2

variable {l : Loader (Recorded σ) Nat} {reports : List (CallReport (Recorded σ))}
  {r : CallReport (Recorded σ)} {good : String → String → Prop}

theorem AllStyles.append (h : AllStyles good l reports) {call : LoaderCall (Recorded σ)}
    (hkept : KeepsRecord (l.addReport reports call))
    (hgood : GoodGroups good (call.report (l.current reports) reports.length)) :
    AllStyles good l (l.addReport reports call) := by
  have hbefore := call.before_report (l.current reports) reports.length
  have hcall := call.call_report (l.current reports) reports.length
  have hregistered : ∀ b, call = .registerBundle b → ∀ e ∈ Loader.groupByTag b.styles,
      ((l.current reports).registry.get? e.1).isSome → good e.1 e.2 := by
    intro b hb e he hsome
    exact hgood b (hcall.trans hb) e he (by rw [hbefore]; exact hsome)
  refine ⟨fun tag text htemplate => ?_, fun s hs e he => ?_⟩
  · rw [Loader.addReport, Loader.current_append] at htemplate
    by_cases hb : ∃ b, call = .registerBundle b
    · obtain ⟨b, rfl⟩ := hb
      have hinstalled : ((l.current reports).installStyles b).template? tag = some text := htemplate
      rw [Loader.template?_installStyles, Option.or_eq_some_iff] at hinstalled
      rcases hinstalled with hold | ⟨-, hnew⟩
      · exact h.templates tag text hold
      · split at hnew
        · rename_i hshadow
          obtain rfl := Option.some.inj hnew
          have hgroup : (tag, joinedText b.styles tag) ∈ Loader.groupByTag b.styles := by
            rw [groupByTag_eq]
            exact List.mem_map.2 ⟨tag, hshadow.1, rfl⟩
          exact hregistered b rfl _ hgroup (Option.isSome_of_any hshadow.2)
        · cases hnew
    · rw [Loader.template?, call.templates_report _ _ fun b h => hb ⟨b, h⟩] at htemplate
      exact h.templates tag text htemplate
  · rcases List.mem_append.1 hs with hs | hs
    · exact h.elements s hs e he
    · obtain rfl := List.mem_singleton.1 hs
      obtain ⟨b, hb, hnew⟩ := hkept.traffic.newStyle he
      refine ⟨b, hb, Loader.newStyle?_eq_some hnew, fun p hp => ?_⟩
      rw [hbefore] at hp
      obtain ⟨hgroup, hdocument⟩ := List.mem_filter.1 hp
      exact hregistered b (hcall.symm.trans hb) p hgroup (Option.isSome_of_any hdocument)

end Runs

end ComponentBundle
