import ComponentBundle.Bundle.Artifact
import ComponentBundle.Loader.Basic
import ComponentBundle.Proofs.Json.ReadBack
import ComponentBundle.Proofs.Json.RoundTrip
import ComponentBundle.Proofs.Text.Replace

/-!
# The statement of a bundle file

A file hands its styles over in a call with two JSON arguments, the id and the entries. The id is
put in for a placeholder after the statement is written, so it must be a text that JSON writes as it
is, and the placeholder must occur nowhere else.

* `fill_statementText` : the placeholder is replaced in the first argument only;
* `readStatement?_statementText` : reading a statement gives the id and the entries;
* `fill_variantContent` : the filled statement stands behind the filled banner of the file;
* `payload_round_trips` : its two arguments are the JSON texts of the id and of the styles.
-/

namespace ComponentBundle
open Text Json

/-! ## Texts without the placeholder -/

def LacksPlaceholder (s : List Char) : Prop := Lacks idPlaceholder.toList s

theorem lacksPlaceholder_nil : LacksPlaceholder [] := by
  unfold LacksPlaceholder Lacks
  rw [List.infix_nil]
  decide

/-- Whether JSON writes a text as it is. -/
def StandsInJson (s : String) : Prop := s.toList.flatMap escapeChar = s.toList

instance (s : String) : Decidable (StandsInJson s) := inferInstanceAs (Decidable (_ = _))

theorem escapeChar_placeholder (c : Char) :
    escapeChar c = [c] ∨
      ∃ s, escapeChar c = '\\' :: s ∧ ∀ d ∈ '\\' :: s, d ∉ idPlaceholder.toList := by
  rcases escapeChar_cases c with ⟨h, -⟩ | ⟨e, he, h, -⟩ | ⟨h, hlow⟩
  · exact .inl h
  · have hall : (escapeLetters.all fun e => ['\\', e].all (· ∉ idPlaceholder.toList)) = true := by
      decide
    have hnone := List.all_eq_true.1 (List.all_eq_true.1 hall e he)
    exact .inr ⟨_, h, fun d hd => of_decide_eq_true (hnone d hd)⟩
  · have hall : ∀ n : Fin 0x20, ['\\', 'u', '0', '0', hexDigit (n / 16), hexDigit (n % 16)].all
        (· ∉ idPlaceholder.toList) = true := by decide
    have hnone := List.all_eq_true.1 (hall ⟨c.toNat, hlow⟩)
    exact .inr ⟨_, h, fun d hd => of_decide_eq_true (hnone d hd)⟩

theorem prefix_of_escaped {word s : List Char} (hword : ∀ c ∈ word, c ∈ idPlaceholder.toList)
    (h : word <+: s.flatMap escapeChar) : word <+: s := by
  induction word generalizing s with
  | nil => exact List.nil_prefix
  | cons d word ih =>
    cases s with
    | nil => simp at h
    | cons c s =>
      rw [List.flatMap_cons] at h
      rcases escapeChar_placeholder c with hc | ⟨t, hc, hnone⟩
      · rw [hc, List.singleton_append, List.cons_prefix_cons] at h
        rw [List.cons_prefix_cons]
        exact ⟨h.1, ih (fun x hx => hword x (List.mem_cons_of_mem _ hx)) h.2⟩
      · rw [hc, List.cons_append, List.cons_prefix_cons] at h
        exact absurd (h.1 ▸ hword d List.mem_cons_self) (hnone _ List.mem_cons_self)

theorem lacks_escaped {s : List Char} (h : LacksPlaceholder s) :
    LacksPlaceholder (s.flatMap escapeChar) := by
  induction s with
  | nil => exact h
  | cons c s ih =>
    have hs := ih fun hs => h (List.infix_cons hs)
    rw [List.flatMap_cons]
    -- an escape keeps the placeholder from reaching across it
    rcases escapeChar_placeholder c with hc | ⟨t, hc, hnone⟩
    · rw [hc, List.singleton_append]
      intro hinfix
      rcases List.infix_cons_iff.1 hinfix with hprefix | hinfix
      · have hprefix' : idPlaceholder.toList <+: (c :: s).flatMap escapeChar := by
          rwa [List.flatMap_cons, hc, List.singleton_append]
        exact h (prefix_of_escaped (fun _ hx => hx) hprefix').isInfix
      · exact hs hinfix
    · rw [hc]
      exact hs.append_left hnone

/-! ## Written values -/

theorem lacks_writeText {text : String} (h : LacksPlaceholder text.toList) :
    LacksPlaceholder (writeText text) := by
  have hquote : '"' ∉ idPlaceholder.toList := by decide
  refine (lacks_append_cons (a := []) hquote).2 ⟨lacksPlaceholder_nil, ?_⟩
  exact (lacks_append_cons hquote).2 ⟨lacks_escaped h, lacksPlaceholder_nil⟩

theorem lacks_writeItems {items : List Json} (h : ∀ j ∈ items, LacksPlaceholder (writeValue j)) :
    LacksPlaceholder (writeItems items) := by
  induction items with
  | nil => exact lacksPlaceholder_nil
  | cons item items ih =>
    cases items with
    | nil => exact h item List.mem_cons_self
    | cons next more =>
      refine (lacks_append_cons (by decide)).2 ⟨h item List.mem_cons_self, ?_⟩
      exact ih fun j hj => h j (List.mem_cons_of_mem _ hj)

theorem lacks_arr {items : List Json} (h : ∀ j ∈ items, LacksPlaceholder (writeValue j)) :
    LacksPlaceholder (writeValue (.arr items)) := by
  refine (lacks_append_cons (a := []) (by decide)).2 ⟨lacksPlaceholder_nil, ?_⟩
  exact (lacks_append_cons (by decide)).2 ⟨lacks_writeItems h, lacksPlaceholder_nil⟩

/-- Whether the placeholder occurs in no tag and no text of entries. -/
def EntriesLackPlaceholder (entries : List (String × String)) : Prop :=
  ∀ e ∈ entries, LacksPlaceholder e.1.toList ∧ LacksPlaceholder e.2.toList

theorem lacks_entries {entries : List (String × String)} (h : EntriesLackPlaceholder entries) :
    LacksPlaceholder (writeValue (encode entries)) := by
  refine lacks_arr fun j hj => ?_
  obtain ⟨e, he, rfl⟩ := List.mem_map.1 hj
  refine lacks_arr fun k hk => ?_
  rcases List.mem_cons.1 hk with rfl | hk
  · exact lacks_writeText (h e he).1
  · rw [List.mem_singleton.1 hk]
    exact lacks_writeText (h e he).2

/-! ## Reading a statement -/

/-- What follows a word that a text starts with. -/
def expect? (word s : List Char) : Option (List Char) :=
  if word.isPrefixOf s then some (s.drop word.length) else none

theorem expect?_append (word rest : List Char) : expect? word (word ++ rest) = some rest := by
  rw [expect?, if_pos (List.isPrefixOf_iff_prefix.2 (List.prefix_append word rest)),
    List.drop_left]

/-- The JSON value that a text starts with, and what follows it. -/
def readPrefix? (s : List Char) : Option (Json × List Char) := readValue (2 * s.length + 2) s

theorem Json.ReadsBack.readPrefix? {j : Json} (h : j.ReadsBack) (rest : List Char) :
    ComponentBundle.readPrefix? (writeValue j ++ rest) = some (j, rest) := by
  refine h.reads _ ?_ rest
  rw [List.length_append]
  omega

/-- What a statement starts with. -/
def statementHead (appName : String) : List Char := appName.toList ++ ".loadStyles(".toList

/-- The registration that a statement at the start of a text hands over, and what follows it. -/
def readStatement? (appName : String) (s : List Char) :
    Option (BundleRegistration × List Char) := do
  let s ← expect? (statementHead appName) s
  let (id, s) ← readPrefix? s
  let s ← expect? [','] s
  let (styles, s) ← readPrefix? s
  let s ← expect? [')', ';'] s
  let r ← decode (.obj [("bundleId", id), ("styles", styles)])
  return (r, s)

/-- The text of a statement with an id. -/
def statementText (appName id : String) (entries : List (String × String)) : List Char :=
  statementHead appName ++
    (writeText id ++ ([','] ++ (writeValue (encode entries) ++ [')', ';'])))

/-- A statement is read back, whatever follows it. -/
theorem readStatement?_statementText (appName id : String) (entries : List (String × String))
    (rest : List Char) :
    readStatement? appName (statementText appName id entries ++ rest) =
      some (⟨id, entries⟩, rest) := by
  unfold statementText readStatement?
  simp only [List.append_assoc, Option.bind_eq_bind]
  rw [expect?_append, Option.bind_some]
  show (readPrefix? (writeValue (.str id) ++ _)).bind _ = _
  rw [(readsBack_str id).readPrefix?, Option.bind_some]
  dsimp only
  rw [expect?_append, Option.bind_some, (readsBack_pairs entries).readPrefix?, Option.bind_some]
  dsimp only
  rw [expect?_append, Option.bind_some]
  show (decode (encode (⟨id, entries⟩ : BundleRegistration))).bind _ = _
  rw [LawfulJsonCodec.decode_encode]
  rfl

/-! ## Filling a statement -/

theorem toList_loadStylesStatement (appName : String) (styles : List ModeStyles)
    (wantsScoped : Bool) :
    (loadStylesStatement appName styles wantsScoped).toList =
      if payloadEntries wantsScoped styles = [] then []
      else statementText appName idPlaceholder (payloadEntries wantsScoped styles) := by
  unfold loadStylesStatement
  cases payloadEntries wantsScoped styles with
  | nil => rfl
  | cons e entries =>
    rw [if_neg (List.cons_ne_nil _ _)]
    have hid : writeText idPlaceholder = (encode idPlaceholder).write.toList := by
      rw [Json.write, String.toList_ofList]
      rfl
    simp [statementText, statementHead, hid, Json.write]

theorem writeText_of_standsInJson {id : String} (hid : StandsInJson id) :
    writeText id = '"' :: id.toList ++ ['"'] := by
  unfold StandsInJson at hid
  rw [writeText, hid]

/-- Filling a statement puts the id in for the first argument and changes nothing else. -/
theorem fill_statementText {appName id : String} {entries : List (String × String)}
    (hname : LacksPlaceholder appName.toList) (hentries : EntriesLackPlaceholder entries)
    (hid : StandsInJson id) :
    replaceChars idPlaceholder.toList id.toList (statementText appName idPlaceholder entries) =
      statementText appName id entries := by
  have hquote : '"' ∉ idPlaceholder.toList := by decide
  have hhead : LacksPlaceholder (statementHead appName) := by
    have hdot : statementHead appName = appName.toList ++ '.' :: "loadStyles(".toList := rfl
    rw [hdot]
    exact (lacks_append_cons (by decide)).2 ⟨hname, by unfold Lacks; decide +kernel⟩
  have hlast : LacksPlaceholder [';'] := by unfold LacksPlaceholder Lacks; decide +kernel
  have hgap : ∀ c ∈ ['"', ','], c ∉ idPlaceholder.toList := by
    have hcomma : ',' ∉ idPlaceholder.toList := by decide
    simp [hquote, hcomma]
  have htail : LacksPlaceholder
      ((['"', ','] ++ writeValue (encode entries)) ++ ')' :: [';']) :=
    (lacks_append_cons (by decide)).2 ⟨(lacks_entries hentries).append_left hgap, hlast⟩
  have hword : writeText idPlaceholder = '"' :: (idPlaceholder.toList ++ ['"']) := by
    decide +kernel
  rw [statementText, statementText, hword, writeText_of_standsInJson hid]
  simp only [List.cons_append, List.append_assoc, List.nil_append] at htail ⊢
  rw [replaceChars_append_cons hquote, replaceChars_of_lacks hhead,
    replaceChars_word_append (by decide), replaceChars_of_lacks htail]

/-! ## Files -/

/-- What stands behind the statement of a file. -/
def behindStatement (moduleText : String) : List Char :=
  if moduleText = "" then [] else '\n' :: moduleText.toList

section Files

variable {config : Config} {moduleText : String} {v : Variant} {wantsScoped : Bool}

theorem loadStylesStatement_eq_empty_iff {appName : String} {styles : List ModeStyles} :
    loadStylesStatement appName styles wantsScoped = "" ↔
      payloadEntries wantsScoped styles = [] := by
  rw [← String.toList_inj, toList_loadStylesStatement]
  split
  · rename_i h
    simp [h]
  · rename_i h
    simp [h, statementText, statementHead]

theorem toList_variantContent (hne : payloadEntries wantsScoped v.styles ≠ []) :
    (variantContent config moduleText v wantsScoped).toList =
      (preambleText config).toList ++
        (statementText config.appName idPlaceholder (payloadEntries wantsScoped v.styles) ++
          behindStatement moduleText) := by
  have hstatement := toList_loadStylesStatement config.appName v.styles wantsScoped
  rw [if_neg hne] at hstatement
  have hsome : loadStylesStatement config.appName v.styles wantsScoped ≠ "" :=
    mt loadStylesStatement_eq_empty_iff.1 hne
  unfold variantContent assembleContent behindStatement
  rw [String.toList_append, ← hstatement]
  by_cases hmodule : moduleText = ""
  · simp [hsome, hmodule]
  · simp [hsome, hmodule]

theorem preambleText_cases (config : Config) :
    (preambleText config).toList = [] ∨ ∃ s, (preambleText config).toList = s ++ ['\n'] := by
  unfold preambleText
  split
  · split
    · exact .inl rfl
    · rename_i text _ _
      exact .inr ⟨("/*! " ++ trim text ++ " */").toList, by simp⟩
  · exact .inl rfl

/-- The filled statement stands behind the filled banner of the file. -/
theorem fill_variantContent {id : String} (hname : LacksPlaceholder config.appName.toList)
    (hentries : EntriesLackPlaceholder (payloadEntries wantsScoped v.styles))
    (hid : StandsInJson id) (hne : payloadEntries wantsScoped v.styles ≠ []) :
    ∃ rest, (fillBundleId (variantContent config moduleText v wantsScoped) id).toList =
      (fillBundleId (preambleText config) id).toList ++
        (statementText config.appName id (payloadEntries wantsScoped v.styles) ++ rest) := by
  have hline : '\n' ∉ idPlaceholder.toList := by decide
  have hfill : ∀ text : String, (fillBundleId text id).toList =
      replaceChars idPlaceholder.toList id.toList text.toList := fun text => String.toList_ofList
  obtain ⟨rest, hrest⟩ : ∃ rest, replaceChars idPlaceholder.toList id.toList
      (statementText config.appName idPlaceholder (payloadEntries wantsScoped v.styles) ++
        behindStatement moduleText) =
      statementText config.appName id (payloadEntries wantsScoped v.styles) ++ rest := by
    unfold behindStatement
    split
    · exact ⟨[], by rw [List.append_nil, List.append_nil, fill_statementText hname hentries hid]⟩
    · exact ⟨_, by rw [replaceChars_append_cons hline, fill_statementText hname hentries hid]⟩
  refine ⟨rest, ?_⟩
  rw [hfill, hfill, toList_variantContent hne]
  rcases preambleText_cases config with hbanner | ⟨s, hbanner⟩
  · rw [hbanner, List.nil_append, hrest, replaceChars, List.nil_append]
  · rw [hbanner, List.append_assoc, List.singleton_append, replaceChars_append_cons hline, hrest,
      replaceChars_append_cons hline, replaceChars, List.append_assoc, List.singleton_append]

end Files

/-! ## Round trip -/

theorem standsInJson_of_unescaped {id : String} (h : ∀ c ∈ id.toList, escapeChar c = [c]) :
    StandsInJson id := by
  unfold StandsInJson
  rw [List.flatMap_congr h, List.flatMap_singleton']

theorem write_registration (r : BundleRegistration) :
    (encode r).write = "\x7b\"bundleId\":" ++ (encode r.bundleId).write ++ ",\"styles\":" ++
      (encode r.styles).write ++ "\x7d" := by
  refine String.toList_injective ?_
  have hobj : encode r = .obj [("bundleId", encode r.bundleId), ("styles", encode r.styles)] := rfl
  have hid : writeText "bundleId" = "\"bundleId\"".toList := by decide +kernel
  have hstyles : writeText "styles" = "\"styles\"".toList := by decide +kernel
  rw [hobj]
  simp [Json.write, writeValue, writeMembers, hid, hstyles]

theorem readsBack_registration (r : BundleRegistration) : (encode r).ReadsBack := by
  refine readsBack_obj fun m hm => ?_
  rcases List.mem_cons.1 hm with rfl | hm
  · exact readsBack_str r.bundleId
  · rw [List.mem_singleton.1 hm]
    exact readsBack_pairs r.styles

theorem mem_payloadEntries {styles : List ModeStyles} {wantsScoped : Bool}
    {e : String × String} :
    e ∈ payloadEntries wantsScoped styles ↔
      ∃ s ∈ styles, (s.tag, s.payloadText wantsScoped) = e ∧ e.2 ≠ "" := by
  unfold payloadEntries
  rw [List.mem_filter, List.mem_map, decide_eq_true_eq]
  constructor
  · rintro ⟨⟨s, hs, he⟩, hne⟩
    exact ⟨s, hs, he, hne⟩
  · rintro ⟨s, hs, he, hne⟩
    exact ⟨⟨s, hs, he⟩, hne⟩

/-- **The payload survives its statement.** If some style has a text to hand over, the statement
with the id put in is a call with two arguments, which are the JSON texts of the id and of the tags
and texts that are not empty, in order; together they are the JSON text of a registration. If no
style has a text, there is no statement. -/
theorem payload_round_trips {appName id : String} {styles : List ModeStyles} {wantsScoped : Bool}
    (hname : LacksPlaceholder appName.toList)
    (hstyles : ∀ s ∈ styles, LacksPlaceholder s.tag.toList ∧
      LacksPlaceholder (s.payloadText wantsScoped).toList)
    (hid : ∀ c ∈ id.toList, escapeChar c = [c]) :
    let filled := fillBundleId (loadStylesStatement appName styles wantsScoped) id
    let selected := (styles.map fun s => (s.tag, s.payloadText wantsScoped)).filter (·.2 ≠ "")
    ((∃ s ∈ styles, s.payloadText wantsScoped ≠ "") →
      ∃ first second : String,
        filled = appName ++ ".loadStyles(" ++ first ++ "," ++ second ++ ");" ∧
          Json.read? first = some (.str id) ∧
          Json.read? second = some (.arr (selected.map fun e => .arr [.str e.1, .str e.2])) ∧
          (Json.read? ("\x7b\"bundleId\":" ++ first ++ ",\"styles\":" ++ second ++ "\x7d")).bind
            decode = some (⟨id, selected⟩ : BundleRegistration)) ∧
      ((∀ s ∈ styles, s.payloadText wantsScoped = "") → filled = "") := by
  intro filled selected
  have hselected : selected = payloadEntries wantsScoped styles := rfl
  have hfilled : filled.toList = replaceChars idPlaceholder.toList id.toList
      (loadStylesStatement appName styles wantsScoped).toList := String.toList_ofList
  rw [toList_loadStylesStatement, ← hselected] at hfilled
  constructor
  · rintro ⟨s, hs, hsome⟩
    have hne : selected ≠ [] := List.ne_nil_of_mem (mem_payloadEntries.2 ⟨s, hs, rfl, hsome⟩)
    have hentries : EntriesLackPlaceholder selected := by
      intro e he
      obtain ⟨s, hs, rfl, -⟩ := mem_payloadEntries.1 he
      exact hstyles s hs
    rw [if_neg hne, fill_statementText hname hentries (standsInJson_of_unescaped hid)] at hfilled
    refine ⟨(encode id).write, (encode selected).write, ?_, (readsBack_str id).read?,
      (readsBack_pairs selected).read?, ?_⟩
    · refine String.toList_injective (hfilled.trans ?_)
      have hfirst : (encode id).writeValue = writeText id := rfl
      simp [statementText, statementHead, hfirst, Json.write]
    · rw [← write_registration ⟨id, selected⟩, (readsBack_registration _).read?, Option.bind_some,
        LawfulJsonCodec.decode_encode]
  · intro hnone
    have hempty : selected = [] := by
      refine List.eq_nil_iff_forall_not_mem.2 fun e he => ?_
      obtain ⟨s, hs, rfl, hne⟩ := mem_payloadEntries.1 he
      exact hne (hnone s hs)
    rw [if_pos hempty, replaceChars] at hfilled
    exact String.toList_injective hfilled

/-! ## A payload that needs escapes -/

/-- Styles of two members: one with quotes, a backslash and a control character in its scoped text,
one that has no scoped text and an empty plain one. -/
def escapedStyles : List ModeStyles :=
  [⟨"x-\u00e9", "$", "a", some "a[q=\"\\\x01\"]\x7b\x7d"⟩, ⟨"x-b", "$", "", none⟩]

/-- The escapes of the text are read back behind the id, which is no placeholder any more. -/
theorem escaped_styles_round_trip :
    let filled := fillBundleId (loadStylesStatement "App" escapedStyles true) "x-a.sc"
    filled = "App.loadStyles(\"x-a.sc\",[[\"x-\u00e9\"," ++
        "\"a[q=\\\"\\\\\\u0001\\\"]\x7b\x7d\"]]);" ∧
      ∃ first second : String, filled = "App" ++ ".loadStyles(" ++ first ++ "," ++ second ++ ");" ∧
        Json.read? first = some (.str "x-a.sc") ∧
        Json.read? second =
          some (.arr [.arr [.str "x-\u00e9", .str "a[q=\"\\\x01\"]\x7b\x7d"]]) := by
  have hname : LacksPlaceholder "App".toList := by unfold LacksPlaceholder Lacks; decide
  have hstyles : ∀ s ∈ escapedStyles, LacksPlaceholder s.tag.toList ∧
      LacksPlaceholder (s.payloadText true).toList := by
    unfold LacksPlaceholder Lacks
    decide +kernel
  have hall : "x-a.sc".toList.all (fun c => escapeChar c == [c]) = true := by decide +kernel
  have hid : ∀ c ∈ "x-a.sc".toList, escapeChar c = [c] := fun c hc =>
    eq_of_beq (List.all_eq_true.1 hall c hc)
  have hsome : ∃ s ∈ escapedStyles, s.payloadText true ≠ "" :=
    ⟨_, List.mem_cons_self, by decide⟩
  obtain ⟨first, second, hfilled, hfirst, hsecond, -⟩ :=
    (payload_round_trips hname hstyles hid).1 hsome
  exact ⟨by decide +kernel, first, second, hfilled, hfirst, hsecond⟩

end ComponentBundle
