import ComponentBundle.Proofs.Css.Structure

/-!
# Lists of selectors in pieces

The scanners of selectors know no comments. To them a list of selectors is a text in pieces between
combinators and commas, and each piece that is not empty is a compound selector.

* `scopeSelectors_cutTrimmed` : a list is scoped piece by piece;
* `scopeSelectors_texts` : so are texts with combinators and commas between them;
* `length_scopeSelectors` : the scope is put in once for each piece that is not empty.
-/

namespace ComponentBundle.Css
open Text

/-- Whether a character parts compound selectors in a list. -/
def isSeparator (c : Char) : Bool := isCombinator c || c == ','

theorem separating_isSeparator : Separating isSeparator := by
  intro c hc
  rcases Bool.or_eq_true_iff.1 hc with hc | hc
  · exact separating_isCombinator c hc
  · obtain rfl := beq_iff_eq.1 hc
    exact ⟨rfl, rfl⟩

/-! ## Nested pieces -/

namespace Punctuated

variable {α β : Type}

def map (g : α → β) : Punctuated α → Punctuated β
  | one a => one (g a)
  | more a c rest => more (g a) c (rest.map g)

theorem render_map (f : β → List Char) (g : α → β) (l : Punctuated α) :
    (l.map g).render f = l.render (f ∘ g) := by
  induction l with
  | one a => rfl
  | more a c rest ih => exact congrArg (fun s => f (g a) ++ c :: s) ih

theorem items_map (g : α → β) (l : Punctuated α) : (l.map g).items = l.items.map g := by
  induction l with
  | one a => rfl
  | more a c rest ih => exact congrArg (g a :: ·) ih

theorem signs_map (g : α → β) (l : Punctuated α) : (l.map g).signs = l.signs := by
  induction l with
  | one a => rfl
  | more a c rest ih => exact congrArg (c :: ·) ih

theorem render_congr {f g : α → List Char} {l : Punctuated α} (h : ∀ a ∈ l.items, f a = g a) :
    l.render f = l.render g := by
  induction l with
  | one a => exact h a List.mem_cons_self
  | more a c rest ih =>
    rw [render, render, h a List.mem_cons_self, ih fun b hb => h b (List.mem_cons_of_mem _ hb)]

theorem infix_render {f : α → List Char} {l : Punctuated α} {a : α} (h : a ∈ l.items) :
    f a <:+: l.render f := by
  induction l with
  | one b =>
    obtain rfl := List.mem_singleton.1 h
    exact List.infix_rfl
  | more b c rest ih =>
    rcases List.mem_cons.1 h with rfl | h
    · exact (List.prefix_append _ _).isInfix
    · exact (ih h).trans ((List.suffix_cons c _).trans (List.suffix_append _ _)).isInfix

/-- Puts items and a character in front. -/
def append (l : Punctuated α) (c : Char) (m : Punctuated α) : Punctuated α :=
  match l with
  | one a => more a c m
  | more a d rest => more a d (rest.append c m)

/-- The items of items, with the characters between both. -/
def join : Punctuated (Punctuated α) → Punctuated α
  | one l => l
  | more l c rest => l.append c rest.join

theorem render_append (f : α → List Char) (l : Punctuated α) (c : Char) (m : Punctuated α) :
    (l.append c m).render f = l.render f ++ c :: m.render f := by
  induction l with
  | one a => rfl
  | more a d rest ih => rw [append, render, ih, render, List.append_assoc, List.cons_append]

theorem render_join (f : α → List Char) (l : Punctuated (Punctuated α)) :
    l.join.render f = l.render (·.render f) := by
  induction l with
  | one a => rfl
  | more a c rest ih => rw [join, render_append, ih, render]

theorem items_append (l : Punctuated α) (c : Char) (m : Punctuated α) :
    (l.append c m).items = l.items ++ m.items := by
  induction l with
  | one b => rfl
  | more b d rest ih => exact congrArg (b :: ·) ih

theorem signs_append (l : Punctuated α) (c : Char) (m : Punctuated α) :
    (l.append c m).signs = l.signs ++ c :: m.signs := by
  induction l with
  | one b => rfl
  | more b d rest ih => exact congrArg (d :: ·) ih

theorem items_join (l : Punctuated (Punctuated α)) :
    l.join.items = l.items.flatMap (·.items) := by
  induction l with
  | one m => simp [join, items]
  | more m c rest ih => rw [join, items_append, ih, items, List.flatMap_cons]

theorem mem_signs_join {l : Punctuated (Punctuated α)} {c : Char} :
    c ∈ l.join.signs ↔ c ∈ l.signs ∨ ∃ m ∈ l.items, c ∈ m.signs := by
  induction l with
  | one m => simp [join, items, signs]
  | more m d rest ih =>
    rw [join, signs_append, List.mem_append, List.mem_cons, ih, signs, List.mem_cons, items]
    simp only [List.exists_mem_cons_iff]
    tauto

theorem intercalate_items (f : α → List Char) {d : Char} {l : Punctuated α}
    (h : ∀ c ∈ l.signs, c = d) : List.intercalate [d] (l.items.map f) = l.render f := by
  induction l with
  | one a => simp [items, render]
  | more a c rest ih =>
    obtain rfl := h c List.mem_cons_self
    obtain ⟨b, bs, hitems⟩ : ∃ b bs, rest.items = b :: bs := by
      cases rest with
      | one b => exact ⟨b, [], rfl⟩
      | more b e rest => exact ⟨b, rest.items, rfl⟩
    rw [items, render, ← ih fun e he => h e (List.mem_cons_of_mem _ he), hitems, List.map_cons,
      List.map_cons, List.intercalate_cons_cons, List.append_assoc, List.singleton_append]

theorem exists_join (p : Char → Bool) (l : Punctuated α) :
    ∃ m : Punctuated (Punctuated α), m.join = l ∧ (∀ c ∈ m.signs, p c = true) ∧
      ∀ g ∈ m.items, ∀ c ∈ g.signs, p c = false := by
  induction l with
  | one a => exact ⟨one (one a), rfl, by simp [signs], by simp [items, signs]⟩
  | more a c rest ih =>
    obtain ⟨m, rfl, hsigns, hgroups⟩ := ih
    cases hc : p c with
    | true =>
      refine ⟨more (one a) c m, rfl, ?_, ?_⟩
      · simpa [signs, hc] using hsigns
      · simpa [items, signs] using hgroups
    | false =>
      cases m with
      | one g =>
        refine ⟨one (more a c g), rfl, by simp [signs], ?_⟩
        simp only [items, List.mem_singleton] at hgroups ⊢
        rintro _ rfl d hd
        rcases List.mem_cons.1 hd with rfl | hd
        · exact hc
        · exact hgroups g rfl d hd
      | more g d m =>
        refine ⟨more (more a c g) d m, rfl, hsigns, ?_⟩
        intro x hx e he
        rcases List.mem_cons.1 hx with rfl | hx
        · rcases List.mem_cons.1 he with rfl | he
          · exact hc
          · exact hgroups g List.mem_cons_self e he
        · exact hgroups x (List.mem_cons_of_mem _ hx) e he

end Punctuated

/-! ## Margins -/

/-- Whether a text is cut at all characters of a kind into trimmed pieces. -/
structure Punctuated.CutTrimmed (p : Char → Bool) (l : Punctuated (List Char)) : Prop extends
    l.CutAt p where
  trimmed : ∀ s ∈ l.items, Trimmed s

section Margins

variable {p : Char → Bool} {a : List Char} {c : Char} {l : Punctuated (List Char)}

theorem cutTrimmed_one : (Punctuated.one a).CutTrimmed p ↔ Guarded false p false a ∧ Trimmed a :=
  ⟨fun h => ⟨Punctuated.cutAt_one.1 h.toCutAt, h.trimmed a List.mem_cons_self⟩,
    fun h => ⟨Punctuated.cutAt_one.2 h.1, by simpa [Punctuated.items] using h.2⟩⟩

theorem cutTrimmed_more : (Punctuated.more a c l).CutTrimmed p ↔
    (Guarded false p false a ∧ Trimmed a) ∧ p c = true ∧ l.CutTrimmed p := by
  constructor
  · intro h
    obtain ⟨ha, hc, hl⟩ := Punctuated.cutAt_more.1 h.toCutAt
    exact ⟨⟨ha, h.trimmed a List.mem_cons_self⟩, hc, hl,
      fun s hs => h.trimmed s (List.mem_cons_of_mem _ hs)⟩
  · rintro ⟨⟨ha, htrim⟩, hc, hl⟩
    refine ⟨Punctuated.cutAt_more.2 ⟨ha, hc, hl.toCutAt⟩, fun s hs => ?_⟩
    rcases List.mem_cons.1 hs with rfl | hs
    · exact htrim
    · exact hl.trimmed s hs

theorem exists_blank_front (h : l.CutTrimmed p) :
    ∃ (lead : List Char) (m : Punctuated (List Char)), Blank lead ∧ m.CutTrimmed p ∧
      (∀ f, f [] = [] → l.render f = lead ++ m.render f) ∧
      ∀ c, (m.render id).head? = some c → isBlank c = false := by
  induction l with
  | one a => exact ⟨[], .one a, blank_nil, h, fun f _ => rfl, (cutTrimmed_one.1 h).2.head⟩
  | more a c rest ih =>
    obtain ⟨⟨-, ha⟩, -, hrest⟩ := cutTrimmed_more.1 h
    by_cases hskip : a = [] ∧ isBlank c = true
    · obtain ⟨rfl, hc⟩ := hskip
      obtain ⟨lead, m, hlead, hm, hrender, hhead⟩ := ih hrest
      refine ⟨c :: lead, m, blank_cons hc hlead, hm, fun f hf => ?_, hhead⟩
      rw [Punctuated.render, hf, hrender f hf]
      rfl
    · refine ⟨[], .more a c rest, blank_nil, h, fun f _ => rfl, fun d hd => ?_⟩
      cases a with
      | nil =>
        obtain rfl : c = d := Option.some.inj hd
        simpa using hskip
      | cons x a => exact ha.head d hd

theorem exists_blank_back (h : l.CutTrimmed p) :
    ∃ (m : Punctuated (List Char)) (trail : List Char), Blank trail ∧ m.CutTrimmed p ∧
      (∀ f, f [] = [] → l.render f = m.render f ++ trail) ∧
      ∀ c, (m.render id).getLast? = some c → isBlank c = false := by
  induction l with
  | one a =>
    exact ⟨.one a, [], blank_nil, h, fun f _ => (List.append_nil _).symm,
      (cutTrimmed_one.1 h).2.last⟩
  | more a c rest ih =>
    obtain ⟨ha, hc, hrest⟩ := cutTrimmed_more.1 h
    obtain ⟨m, trail, htrail, hm, hrender, hlast⟩ := ih hrest
    by_cases hskip : m.render id = [] ∧ isBlank c = true
    · obtain ⟨hempty, hblank⟩ := hskip
      -- nothing is left of the pieces behind the blank, so it is the next of the blanks
      have hm : m = .one [] := by
        cases m with
        | one b => exact congrArg Punctuated.one hempty
        | more b d m => simp [Punctuated.render] at hempty
      refine ⟨.one a, c :: trail, blank_cons hblank htrail, cutTrimmed_one.2 ha, fun f hf => ?_,
        ha.2.last⟩
      show f a ++ c :: rest.render f = f a ++ c :: trail
      rw [hrender f hf, hm, Punctuated.render, hf, List.nil_append]
    · refine ⟨.more a c m, trail, htrail, cutTrimmed_more.2 ⟨ha, hc, hm⟩, fun f hf => ?_,
        fun d hd => ?_⟩
      · rw [Punctuated.render, hrender f hf, Punctuated.render, List.append_assoc, List.cons_append]
      · rw [Punctuated.render, List.getLast?_append_of_ne_nil _ (List.cons_ne_nil _ _),
          List.getLast?_cons] at hd
        cases hend : (m.render id).getLast? with
        | none =>
          rw [hend] at hd
          obtain rfl : c = d := Option.some.inj hd
          simpa [List.getLast?_eq_none_iff.1 hend] using hskip
        | some e =>
          rw [hend] at hd
          obtain rfl : e = d := Option.some.inj hd
          exact hlast e hend

end Margins

/-! ## Scoping -/

section Scoping

variable (scope : Scope) {l : Punctuated (List Char)}

theorem scopePiece_nil : scopePiece scope [] = [] := if_pos rfl

theorem scopeListItem_cutTrimmed (h : l.CutTrimmed isCombinator) :
    scopeListItem scope (l.render id) = l.render (scopePiece scope) := by
  obtain ⟨lead, m, hlead, hm, hfront, hhead⟩ := exists_blank_front h
  obtain ⟨core, trail, htrail, hcore, hback, hlast⟩ := exists_blank_back hm
  have hparts : ∀ f, f [] = [] → l.render f = lead ++ core.render f ++ trail := by
    intro f hf
    rw [hfront f hf, hback f hf, List.append_assoc]
  have htrimmed : Trimmed (core.render id) := by
    refine ⟨fun c hc => hhead c ?_, hlast⟩
    rw [hback id rfl, List.head?_append, hc, Option.some_or]
  rw [hparts id rfl, hparts _ (scopePiece_nil scope), ← scopeComplex_cutAt scope hcore.toCutAt]
  unfold scopeListItem
  by_cases hempty : core.render id = []
  · have hblank : Blank (lead ++ core.render id ++ trail) := by
      rw [hempty, List.append_nil]
      intro c hc
      rcases List.mem_append.1 hc with hc | hc
      · exact hlead c hc
      · exact htrail c hc
    rw [if_pos (trimChars_of_blank hblank), hempty, scopeComplex]
  · rw [trimChars_padded hlead htrail htrimmed, if_neg hempty,
      blankStart_padded hlead htrimmed hempty, blankEnd_padded htrail htrimmed hempty]

theorem guarded_render {p : Char → Bool} (hitems : ∀ s ∈ l.items, Guarded false p false s)
    (hsigns : ∀ c ∈ l.signs, isQuote c = false ∧ isBracket c = false ∧ p c = false) :
    Guarded false p false (l.render id) := by
  induction l with
  | one a => exact hitems a List.mem_cons_self
  | more a c rest ih =>
    obtain ⟨hquote, hbracket, hc⟩ := hsigns c List.mem_cons_self
    have hrest := ih (fun s hs => hitems s (List.mem_cons_of_mem _ hs))
      fun d hd => hsigns d (List.mem_cons_of_mem _ hd)
    exact (hitems a List.mem_cons_self).append (.char hquote hbracket (by simp) (fun _ => hc) hrest)

theorem scopeSelectors_cutTrimmed (h : l.CutTrimmed isSeparator) :
    scopeSelectors scope (l.render id) = l.render (scopePiece scope) := by
  -- the pieces between two commas make up a selector
  obtain ⟨m, rfl, hcommas, hgroups⟩ := l.exists_join (· == ',')
  have hitems : ∀ g ∈ m.items, ∀ s ∈ g.items, Guarded false isSeparator false s ∧ Trimmed s := by
    intro g hg s hs
    have hmem : s ∈ m.join.items := by
      rw [Punctuated.items_join]
      exact List.mem_flatMap.2 ⟨g, hg, hs⟩
    exact ⟨h.items s hmem, h.trimmed s hmem⟩
  have hsigns : ∀ g ∈ m.items, ∀ c ∈ g.signs, isCombinator c = true ∧ (c == ',') = false := by
    intro g hg c hc
    have hsep := h.signs c (Punctuated.mem_signs_join.2 (.inr ⟨g, hg, hc⟩))
    have hcomma := hgroups g hg c hc
    rw [isSeparator, hcomma, Bool.or_false] at hsep
    exact ⟨hsep, hcomma⟩
  have hselector : ∀ g ∈ m.items,
      scopeListItem scope (g.render id) = g.render (scopePiece scope) := by
    intro g hg
    refine scopeListItem_cutTrimmed scope ⟨⟨fun s hs => ?_, fun c hc => (hsigns g hg c hc).1⟩,
      fun s hs => (hitems g hg s hs).2⟩
    exact (hitems g hg s hs).1.mono fun c hc => by simp [isSeparator, hc]
  have hlist : (m.map (·.render id)).CutAt (· == ',') := by
    refine ⟨fun s hs => ?_, by rwa [Punctuated.signs_map]⟩
    rw [Punctuated.items_map] at hs
    obtain ⟨g, hg, rfl⟩ := List.mem_map.1 hs
    refine guarded_render (fun s hs => ?_) fun c hc => ?_
    · exact (hitems g hg s hs).1.mono fun c hc => by simp [isSeparator, hc]
    · obtain ⟨hcomb, hcomma⟩ := hsigns g hg c hc
      exact ⟨(separating_isCombinator c hcomb).1, (separating_isCombinator c hcomb).2, hcomma⟩
  have htext : m.join.render id = (m.map (·.render id)).render id := by
    rw [Punctuated.render_join, Punctuated.render_map]
    rfl
  have hsplit := splitTop_cutAt (d := ',') rfl rfl hlist
  rw [scopeSelectors, htext, hsplit, Punctuated.items_map, List.map_map,
    Punctuated.intercalate_items _ fun c hc => beq_iff_eq.1 (hcommas c hc), Punctuated.render_join]
  exact Punctuated.render_congr hselector

/-! ## Legible texts -/

/-- Whether a text comes in trimmed pieces between combinators and commas, with closed strings and
brackets in each. -/
def Legible (s : List Char) : Prop :=
  ∃ l : Punctuated (List Char), l.CutTrimmed isSeparator ∧ l.render id = s

theorem trimmed_of_guarded {s : List Char} (h : Guarded false isSeparator false s)
    (hblank : ∀ c ∈ s, isBlank c = true → isAsciiBlank c = true) : Trimmed s := by
  have hsep : ∀ c ∈ s, isSeparator c = false → isBlank c = false := by
    intro c hc hsep
    refine Bool.eq_false_iff.2 fun hb => ?_
    rw [isSeparator, isCombinator, hblank c hc hb] at hsep
    cases hsep
  exact ⟨fun c hc => hsep c (List.mem_of_mem_head? hc) (h.head separating_isSeparator hc),
    fun c hc => hsep c (List.mem_of_getLast? hc) (h.last separating_isSeparator rfl hc)⟩

theorem legible_of_selfContained {s : List Char} (h : SelfContained s)
    (hblank : ∀ c ∈ s, isBlank c = true → isAsciiBlank c = true) : Legible s := by
  obtain ⟨l, hl, rfl⟩ := h.exists_punctuated rfl isSeparator
  refine ⟨l, ⟨hl, fun t ht => trimmed_of_guarded (hl.items t ht) fun c hc => ?_⟩, rfl⟩
  have hpart : t <:+: l.render id := Punctuated.infix_render (f := id) ht
  exact hblank c (hpart.subset hc)

theorem Punctuated.CutTrimmed.append {p : Char → Bool} {l m : Punctuated (List Char)} {c : Char}
    (hl : l.CutTrimmed p) (hc : p c = true) (hm : m.CutTrimmed p) :
    (l.append c m).CutTrimmed p := by
  induction l with
  | one a => exact cutTrimmed_more.2 ⟨cutTrimmed_one.1 hl, hc, hm⟩
  | more a d rest ih =>
    obtain ⟨ha, hd, hrest⟩ := cutTrimmed_more.1 hl
    exact cutTrimmed_more.2 ⟨ha, hd, ih hrest⟩

/-- Legible texts between combinators and commas are scoped one by one. -/
theorem scopeSelectors_texts {α : Type} {f : α → List Char} {l : Punctuated α}
    (hitems : ∀ a ∈ l.items, Legible (f a)) (hsigns : ∀ c ∈ l.signs, isSeparator c = true) :
    scopeSelectors scope (l.render f) = l.render (fun a => scopeSelectors scope (f a)) := by
  have hpieces : ∃ m : Punctuated (List Char), m.CutTrimmed isSeparator ∧
      m.render id = l.render f ∧
      m.render (scopePiece scope) = l.render (fun a => scopeSelectors scope (f a)) := by
    induction l with
    | one a =>
      obtain ⟨m, hm, htext⟩ := hitems a List.mem_cons_self
      refine ⟨m, hm, htext, ?_⟩
      rw [← scopeSelectors_cutTrimmed scope hm, htext]
      rfl
    | more a c rest ih =>
      obtain ⟨m, hm, htext⟩ := hitems a List.mem_cons_self
      obtain ⟨n, hn, hrest, hscoped⟩ := ih (fun b hb => hitems b (List.mem_cons_of_mem _ hb))
        fun d hd => hsigns d (List.mem_cons_of_mem _ hd)
      refine ⟨m.append c n, hm.append (hsigns c List.mem_cons_self) hn, ?_, ?_⟩
      · rw [Punctuated.render_append, htext, hrest, Punctuated.render]
      · rw [Punctuated.render_append, hscoped, ← scopeSelectors_cutTrimmed scope hm, htext,
          Punctuated.render]
  obtain ⟨m, hm, htext, hscoped⟩ := hpieces
  rw [← htext, scopeSelectors_cutTrimmed scope hm, hscoped]

/-! ## How often the scope is put in -/

/-- The number of pieces that are not empty. -/
def Punctuated.compounds (l : Punctuated (List Char)) : Nat := l.items.countP (· ≠ [])

theorem compounds_one (a : List Char) :
    (Punctuated.one a).compounds = if a = [] then 0 else 1 := by
  by_cases ha : a = [] <;> simp [Punctuated.compounds, Punctuated.items, ha]

theorem compounds_more (a : List Char) (c : Char) (l : Punctuated (List Char)) :
    (Punctuated.more a c l).compounds = (if a = [] then 0 else 1) + l.compounds := by
  by_cases ha : a = [] <;> simp [Punctuated.compounds, Punctuated.items, ha, Nat.add_comm]

theorem length_scopePiece {s : List Char} (h : Hostless s) :
    (scopePiece scope s).length = s.length + (if s = [] then 0 else 1) * scope.element.length := by
  unfold scopePiece
  split
  · simp [*]
  · obtain ⟨front, back, rfl, hscoped⟩ := exists_scopeCompound h.not_refersToHost
    rw [hscoped]
    simp only [List.length_append]
    omega

theorem length_scopeSelectors (h : l.CutTrimmed isSeparator) (hhost : Hostless (l.render id)) :
    (scopeSelectors scope (l.render id)).length =
      (l.render id).length + l.compounds * scope.element.length := by
  have hpieces : ∀ s ∈ l.items, Hostless s :=
    fun s hs => hhost.of_infix (Punctuated.infix_render (f := id) hs)
  rw [scopeSelectors_cutTrimmed scope h]
  clear h hhost
  induction l with
  | one a =>
    rw [compounds_one]
    exact length_scopePiece scope (hpieces a List.mem_cons_self)
  | more a c rest ih =>
    have ha := length_scopePiece scope (hpieces a List.mem_cons_self)
    have hrest := ih fun s hs => hpieces s (List.mem_cons_of_mem _ hs)
    rw [compounds_more, Punctuated.render, Punctuated.render, id, List.length_append,
      List.length_append, List.length_cons, List.length_cons, ha, hrest, Nat.add_mul]
    omega

theorem getLast?_rest {a : List Char} {c d : Char} (hsep : isSeparator c = true)
    (hd : ((Punctuated.more a c l).render id).getLast? = some d) (hdsep : isSeparator d = false) :
    (l.render id).getLast? = some d := by
  rw [Punctuated.render, List.getLast?_append_of_ne_nil _ (List.cons_ne_nil _ _),
    List.getLast?_cons] at hd
  cases hend : (l.render id).getLast? with
  | none =>
    rw [hend] at hd
    obtain rfl : c = d := Option.some.inj hd
    rw [hsep] at hdsep
    cases hdsep
  | some e =>
    rw [hend] at hd
    exact hd

theorem compounds_pos {d : Char} (h : l.CutAt isSeparator)
    (hd : (l.render id).getLast? = some d) (hsep : isSeparator d = false) : 0 < l.compounds := by
  induction l with
  | one a =>
    have ha : a ≠ [] := by
      rintro rfl
      cases hd
    rw [compounds_one, if_neg ha]
    exact Nat.one_pos
  | more a c rest ih =>
    obtain ⟨-, hc, hrest⟩ := Punctuated.cutAt_more.1 h
    rw [compounds_more]
    exact Nat.add_pos_right _ (ih hrest (getLast?_rest hc hd hsep))

theorem exists_one_of_compounds {c d : Char} (h : l.CutAt isSeparator)
    (hc : (l.render id).head? = some c) (hcsep : isSeparator c = false)
    (hd : (l.render id).getLast? = some d) (hdsep : isSeparator d = false)
    (hone : l.compounds = 1) : ∃ s, l = .one s := by
  cases l with
  | one a => exact ⟨a, rfl⟩
  | more a e rest =>
    obtain ⟨-, he, hrest⟩ := Punctuated.cutAt_more.1 h
    have ha : a ≠ [] := by
      rintro rfl
      obtain rfl : e = c := Option.some.inj hc
      rw [he] at hcsep
      cases hcsep
    have hpos := compounds_pos hrest (getLast?_rest he hd hdsep) hdsep
    rw [compounds_more, if_neg ha] at hone
    omega

end Scoping

end ComponentBundle.Css
