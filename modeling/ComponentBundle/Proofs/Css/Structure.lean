import ComponentBundle.Proofs.Css.Insertion

/-!
# Structure outside strings and brackets

Lists of selectors are cut at commas, selectors at combinators, and compound selectors at their
first colon. Where strings and brackets are closed, no such character inside of them counts: any
closed text comes in pieces between the characters in question (`Guarded.exists_punctuated`), and
the scanners find just these pieces.

The scan for the first colon reads strings like any other text. It goes right where the brackets in
them match (`Guarded.pseudoScanner_passes`).

A backslash escapes in strings only. Elsewhere it is a character like any other, so that an escaped
colon still starts a pseudo-class (`escaped_colon_cut`).
-/

namespace ComponentBundle.Css
open Text

/-! ## Guarded texts -/

/-- A text with closed strings and brackets whose marked characters stand only inside of them.
The flags say whether a backslash outside strings escapes the next character, and whether the text
stands in brackets. Comments are not told from other text. -/
inductive Guarded (escapes : Bool) (marked : Char → Bool) : Bool → List Char → Prop where
  | nil {inside : Bool} : Guarded escapes marked inside []
  | char {inside : Bool} {c : Char} {s : List Char} : isQuote c = false → isBracket c = false →
    (escapes = true → c ≠ '\\') → (inside = false → marked c = false) →
    Guarded escapes marked inside s → Guarded escapes marked inside (c :: s)
  | escape {inside : Bool} (c : Char) {s : List Char} : escapes = true →
    Guarded escapes marked inside s → Guarded escapes marked inside ('\\' :: c :: s)
  | string {inside : Bool} {quote : Char} {t s : List Char} : isQuote quote = true →
    StringBody quote t → Guarded escapes marked inside s →
    Guarded escapes marked inside (quote :: (t ++ s))
  | group {inside : Bool} {o c : Char} {t s : List Char} : bracketCloser o = some c →
    Guarded escapes marked true t → Guarded escapes marked inside s →
    Guarded escapes marked inside (o :: (t ++ c :: s))

/-- Whether the strings and the brackets of a text are closed. -/
def SelfContained (s : List Char) : Prop := Guarded false (fun _ => false) false s

namespace Guarded

variable {escapes : Bool} {p q : Char → Bool} {inside : Bool} {s t : List Char}

theorem mono (hpq : ∀ c, q c = true → p c = true) (h : Guarded escapes p inside s) :
    Guarded escapes q inside s := by
  induction h with
  | nil => exact .nil
  | char hquote hbracket hslash hc _ ih =>
    refine .char hquote hbracket hslash (fun hin => ?_) ih
    exact Bool.eq_false_iff.2 fun hqc => Bool.eq_false_iff.1 (hc hin) (hpq _ hqc)
  | escape c he _ ih => exact .escape c he ih
  | string hquote ht _ ih => exact .string hquote ht ih
  | group hc _ _ iht ihs => exact .group hc iht ihs

theorem plain_append (hs : (s.all fun c => !isQuote c && !isBracket c && c != '\\' && !p c) = true)
    (ht : Guarded escapes p inside t) : Guarded escapes p inside (s ++ t) := by
  induction s with
  | nil => exact ht
  | cons c s ih =>
    rw [List.all_cons, Bool.and_eq_true] at hs
    obtain ⟨hc, hs⟩ := hs
    simp only [Bool.and_eq_true, Bool.not_eq_true', bne_iff_ne] at hc
    exact .char hc.1.1.1 hc.1.1.2 (fun _ => hc.1.2) (fun _ => hc.2) (ih hs)

theorem mono_inside (h : Guarded escapes q true s) : Guarded escapes p true s := by
  generalize hin : true = inside at h
  induction h with
  | nil => exact .nil
  | char hquote hbracket hslash _ _ ih =>
    subst hin
    exact .char hquote hbracket hslash (by simp) (ih rfl)
  | escape c he _ ih => exact .escape c he (ih hin)
  | string hquote ht _ ih => exact .string hquote ht (ih hin)
  | group hc _ _ iht ihs => exact .group hc (iht rfl) (ihs hin)

theorem append (hs : Guarded escapes p inside s) (ht : Guarded escapes p inside t) :
    Guarded escapes p inside (s ++ t) := by
  induction hs with
  | nil => exact ht
  | char hquote hbracket hslash hc _ ih => exact .char hquote hbracket hslash hc (ih ht)
  | escape c he _ ih => exact .escape c he (ih ht)
  | string hquote hbody _ ih =>
    rw [List.cons_append, List.append_assoc]
    exact .string hquote hbody (ih ht)
  | group hc hgroup _ _ ih =>
    rw [List.cons_append, List.append_assoc, List.cons_append]
    exact .group hc hgroup (ih ht)

end Guarded

/-! ## Passing -/

theorem cut_char_raw {sc : Scanner} (hskips : sc.skips.comments = false) {d : Nat} {c : Char}
    (hstop : sc.stops d c = false) (hquote : isQuote c = false) (rest : List Char) :
    cut sc d (c :: rest) =
      (c :: (cut sc (sc.weigh c d) rest).1, (cut sc (sc.weigh c d) rest).2) := by
  have hlexeme : lexeme sc.skips c rest = ([c], rest) := by
    simp [lexeme, hskips, hquote]
  rw [cut, if_neg (by simp [hstop]), hlexeme]
  rfl

section Passing

variable {p : Char → Bool} {d : Nat} {rest : List Char}

theorem passes_group {sc : Scanner} (hskips : sc.skips.comments = false)
    (hweigh : sc.weigh = weighBrackets) {o c : Char} {t s : List Char}
    (hcloser : bracketCloser o = some c) (hopen : sc.stops d o = false)
    (hclose : sc.stops (d + 1) c = false) (ht : Passes sc (d + 1) t (c :: (s ++ rest)))
    (hs : Passes sc d s rest) : Passes sc d (o :: (t ++ c :: s)) rest := by
  have hquotes : isQuote o = false ∧ isQuote c = false := by
    rcases bracketCloser_eq_some hcloser with ⟨rfl, rfl⟩ | ⟨rfl, rfl⟩ <;> decide
  have hdown : sc.weigh o d = d + 1 := by
    rw [hweigh]
    rcases bracketCloser_eq_some hcloser with ⟨rfl, rfl⟩ | ⟨rfl, rfl⟩ <;> rfl
  have hup : sc.weigh c (d + 1) = d := by
    rw [hweigh]
    rcases bracketCloser_eq_some hcloser with ⟨rfl, rfl⟩ | ⟨rfl, rfl⟩ <;> rfl
  unfold Passes at ht hs ⊢
  rw [List.cons_append, List.append_assoc, List.cons_append, cut_char_raw hskips hopen hquotes.1,
    hdown, ht, cut_char_raw hskips hclose hquotes.2, hup, hs]
  simp

theorem Guarded.passes {q : Char → Bool}
    (hp : ∀ c, p c = true → isQuote c = false ∧ bracketCloser c = none)
    (hq : ∀ c, isBracket c = false → p c = true → q c = true) {inside : Bool} {s : List Char}
    (h : Guarded false q inside s) (hd : inside = true → 0 < d) :
    Passes (topScanner p) d s rest := by
  induction h generalizing d rest with
  | nil => exact passes_nil rest
  | @char inside c s hquote hbracket _ hc _ ih =>
    have hstop : (topScanner p).stops d c = false := by
      cases inside with
      | true => simp [topScanner, Nat.ne_of_gt (hd rfl)]
      | false =>
        have hpc : p c = false := by
          refine Bool.eq_false_iff.2 fun hpc => ?_
          exact Bool.eq_false_iff.1 (hc rfl) (hq c hbracket hpc)
        simp [topScanner, hpc]
    have hs : Passes (topScanner p) d s rest := ih hd
    unfold Passes at hs ⊢
    have hweigh : (topScanner p).weigh c d = d := weighBrackets_of_not_bracket hbracket d
    rw [List.cons_append, cut_char_raw rfl hstop hquote, hweigh, hs]
    rfl
  | escape c he => cases he
  | @string inside quote t s hquote ht _ ih =>
    have hpquote : p quote = false := by
      refine Bool.eq_false_iff.2 fun hpq => ?_
      rw [(hp quote hpq).1] at hquote
      cases hquote
    have hstop : (topScanner p).stops d quote = false := by simp [topScanner, hpquote]
    obtain ⟨-, -, -, -, hbracket, -⟩ := not_quote_slash (.inl hquote)
    exact (passes_string rfl hquote hstop (weighBrackets_of_not_bracket hbracket d) ht _).append
      (ih hd)
  | @group inside o c t s hcloser _ _ iht ihs =>
    have hpo : p o = false := by
      refine Bool.eq_false_iff.2 fun hpo => ?_
      rw [(hp o hpo).2] at hcloser
      cases hcloser
    exact passes_group rfl rfl hcloser (by simp [topScanner, hpo]) (by simp [topScanner])
      (iht fun _ => d.succ_pos) (ihs hd)

end Passing

/-! ## Pieces -/

/-- Items with one character between any two of them. -/
inductive Punctuated (α : Type) where
  | one (a : α)
  | more (a : α) (c : Char) (rest : Punctuated α)

namespace Punctuated

variable {α : Type}

def first : Punctuated α → α
  | one a => a
  | more a _ _ => a

def items : Punctuated α → List α
  | one a => [a]
  | more a _ rest => a :: rest.items

def signs : Punctuated α → List Char
  | one _ => []
  | more _ c rest => c :: rest.signs

/-- The text of the items and of the characters between them. -/
def render (f : α → List Char) : Punctuated α → List Char
  | one a => f a
  | more a c rest => f a ++ c :: rest.render f

/-- The text behind the first item. -/
def behind (f : α → List Char) : Punctuated α → List Char
  | one _ => []
  | more _ c rest => c :: rest.render f

theorem render_eq (f : α → List Char) (l : Punctuated α) :
    l.render f = f l.first ++ l.behind f := by
  cases l with
  | one a => exact (List.append_nil _).symm
  | more a c rest => rfl

/-- Puts a text in front of the first piece. -/
def prepend (s : List Char) : Punctuated (List Char) → Punctuated (List Char)
  | one a => one (s ++ a)
  | more a c rest => more (s ++ a) c rest

theorem render_prepend (s : List Char) (l : Punctuated (List Char)) :
    (l.prepend s).render id = s ++ l.render id := by
  cases l <;> simp [prepend, render]

/-- Whether a text in pieces is cut at all characters of a kind that its strings and brackets do
not guard, and nowhere else. -/
structure CutAt (p : Char → Bool) (l : Punctuated (List Char)) : Prop where
  items : ∀ s ∈ l.items, Guarded false p false s
  signs : ∀ c ∈ l.signs, p c = true

section CutAt

variable {p : Char → Bool} {s : List Char} {c : Char} {rest : Punctuated (List Char)}

theorem cutAt_one : (one s).CutAt p ↔ Guarded false p false s :=
  ⟨fun h => h.items s List.mem_cons_self,
    fun h => ⟨by simpa [Punctuated.items] using h, by simp [Punctuated.signs]⟩⟩

theorem cutAt_more :
    (more s c rest).CutAt p ↔ Guarded false p false s ∧ p c = true ∧ rest.CutAt p := by
  constructor
  · intro h
    exact ⟨h.items s List.mem_cons_self, h.signs c List.mem_cons_self,
      fun t ht => h.items t (List.mem_cons_of_mem _ ht),
      fun d hd => h.signs d (List.mem_cons_of_mem _ hd)⟩
  · rintro ⟨hs, hc, hrest⟩
    refine ⟨fun t ht => ?_, fun d hd => ?_⟩
    · rcases List.mem_cons.1 ht with rfl | ht
      · exact hs
      · exact hrest.items t ht
    · rcases List.mem_cons.1 hd with rfl | hd
      · exact hc
      · exact hrest.signs d hd

theorem CutAt.guarded_first {l : Punctuated (List Char)} (h : l.CutAt p) :
    Guarded false p false l.first := by
  cases l with
  | one a => exact cutAt_one.1 h
  | more a c l => exact (cutAt_more.1 h).1

theorem CutAt.prepend {l : Punctuated (List Char)} (h : l.CutAt p)
    (hs : Guarded false p false s) : (l.prepend s).CutAt p := by
  cases l with
  | one a => exact cutAt_one.2 (hs.append h.guarded_first)
  | more a c l => exact cutAt_more.2 ⟨hs.append h.guarded_first, (cutAt_more.1 h).2⟩

end CutAt

end Punctuated

/-- A closed text comes in pieces between the characters of any kind outside its strings and
brackets. -/
theorem Guarded.exists_punctuated {q : Char → Bool} {inside : Bool} {s : List Char}
    (h : Guarded false q inside s) (hin : inside = false) (p : Char → Bool) :
    ∃ l : Punctuated (List Char), l.CutAt p ∧ l.render id = s := by
  -- whatever is not a character of the kind goes to the first piece of what follows it
  have hprepend : ∀ {a t : List Char}, Guarded false p false a →
      (∃ l : Punctuated (List Char), l.CutAt p ∧ l.render id = t) →
      ∃ l : Punctuated (List Char), l.CutAt p ∧ l.render id = a ++ t := by
    rintro a _ ha ⟨l, hl, rfl⟩
    exact ⟨l.prepend a, hl.prepend ha, l.render_prepend a⟩
  induction h with
  | nil => exact ⟨.one [], Punctuated.cutAt_one.2 .nil, rfl⟩
  | @char inside c s hquote hbracket hslash _ _ ih =>
    cases hc : p c with
    | true =>
      obtain ⟨l, hl, rfl⟩ := ih hin
      exact ⟨.more [] c l, Punctuated.cutAt_more.2 ⟨.nil, hc, hl⟩, rfl⟩
    | false => exact hprepend (.char hquote hbracket hslash (fun _ => hc) .nil) (ih hin)
  | escape c he => cases he
  | @string _ quote t s hquote ht _ ih =>
    have hstring : Guarded false p false (quote :: (t ++ [])) := .string hquote ht .nil
    simpa using hprepend hstring (ih hin)
  | @group _ o c t s hc ht _ _ ih =>
    have hgroup : Guarded false p false (o :: (t ++ c :: [])) :=
      .group hc (ht.mono_inside) .nil
    simpa using hprepend hgroup (ih hin)

/-- Whether characters are neither quotes nor brackets. -/
def Separating (p : Char → Bool) : Prop :=
  ∀ c, p c = true → isQuote c = false ∧ isBracket c = false

theorem separating_beq {d : Char} (hquote : isQuote d = false) (hbracket : isBracket d = false) :
    Separating (· == d) := by
  intro c hc
  obtain rfl := beq_iff_eq.1 hc
  exact ⟨hquote, hbracket⟩

theorem separating_isCombinator : Separating isCombinator := by
  intro c hc
  obtain ⟨-, -, -, -, -, -, hquote, hbracket⟩ := sign_or_blank (.inl hc)
  exact ⟨hquote, hbracket⟩

theorem bracketCloser_eq_none {c : Char} (h : isBracket c = false) : bracketCloser c = none := by
  cases hc : bracketCloser c with
  | none => rfl
  | some d =>
    rcases bracketCloser_eq_some hc with ⟨rfl, -⟩ | ⟨rfl, -⟩ <;> cases h

theorem Separating.eq_false {p : Char → Bool} (hp : Separating p) {c : Char}
    (h : isQuote c = true ∨ isBracket c = true) : p c = false := by
  refine Bool.eq_false_iff.2 fun hpc => ?_
  obtain ⟨hquote, hbracket⟩ := hp c hpc
  rw [hquote, hbracket] at h
  simp at h

theorem Guarded.head {p : Char → Bool} (hp : Separating p) {s : List Char}
    (h : Guarded false p false s) {c : Char} (hc : s.head? = some c) : p c = false := by
  cases h with
  | nil => cases hc
  | char _ _ _ hmarked =>
    obtain rfl := Option.some.inj hc
    exact hmarked rfl
  | escape _ he => cases he
  | string hquote =>
    obtain rfl := Option.some.inj hc
    exact hp.eq_false (.inl hquote)
  | group hcloser =>
    obtain rfl := Option.some.inj hc
    rcases bracketCloser_eq_some hcloser with ⟨rfl, -⟩ | ⟨rfl, -⟩ <;> exact hp.eq_false (.inr rfl)

theorem StringBody.last {quote : Char} {t : List Char} (h : StringBody quote t) :
    t.getLast? = some quote := by
  induction h with
  | close => rfl
  | escape c _ ih => simp [List.getLast?_cons, ih]
  | char _ _ _ ih => simp [List.getLast?_cons, ih]

theorem Guarded.last {p : Char → Bool} (hp : Separating p) {inside : Bool} {s : List Char}
    (h : Guarded false p inside s) (hin : inside = false) {c : Char} (hc : s.getLast? = some c) :
    p c = false := by
  -- the last character is that of the rest, if there is one
  have hrest : ∀ {a s : List Char}, (s.getLast? = some c → p c = false) →
      (a.getLast? = some c → p c = false) → (a ++ s).getLast? = some c → p c = false := by
    intro a s hs ha hc
    by_cases hempty : s = []
    · rw [hempty, List.append_nil] at hc
      exact ha hc
    · rw [List.getLast?_append_of_ne_nil _ hempty] at hc
      exact hs hc
  induction h with
  | nil => cases hc
  | @char inside d s hquote hbracket _ hmarked _ ih =>
    refine hrest (a := [d]) (ih hin) (fun hd => ?_) hc
    obtain rfl : d = c := Option.some.inj hd
    exact hmarked hin
  | escape _ he => cases he
  | @string _ quote t s hquote ht _ ih =>
    refine hrest (a := quote :: t) (ih hin) (fun hd => ?_) hc
    rw [List.getLast?_cons, ht.last] at hd
    obtain rfl : quote = c := Option.some.inj hd
    exact hp.eq_false (.inl hquote)
  | @group _ o d t s hcloser _ _ _ ih =>
    rw [show o :: (t ++ d :: s) = o :: (t ++ [d]) ++ s by simp] at hc
    refine hrest (ih hin) (fun hd => ?_) hc
    obtain rfl : d = c := by simpa [List.getLast?_cons] using hd
    rcases bracketCloser_eq_some hcloser with ⟨-, rfl⟩ | ⟨-, rfl⟩ <;> exact hp.eq_false (.inr rfl)

theorem Punctuated.CutAt.cut_eq {p : Char → Bool} (hp : Separating p)
    {l : Punctuated (List Char)} (h : l.CutAt p) :
    cut (topScanner p) 0 (l.render id) = (l.first, l.behind id) := by
  have hpasses : ∀ rest, Passes (topScanner p) 0 l.first rest := by
    intro rest
    exact h.guarded_first.passes (fun c hc => ⟨(hp c hc).1, bracketCloser_eq_none (hp c hc).2⟩)
      (fun _ _ hc => hc) (by simp)
  cases l with
  | one a => exact (hpasses []).cut_end
  | more a c l =>
    refine (hpasses (c :: l.render id)).cut_eq ?_
    simpa [topScanner] using (Punctuated.cutAt_more.1 h).2.1

/-! ## Compound selectors -/

/-- The quoted texts of a text from behind their opening quotes on, each with the number of
brackets outside strings that are open in front of it. -/
def quotedTexts (depth : Nat) : List Char → List (Nat × List Char)
  | [] => []
  | c :: rest =>
    if isQuote c then
      (depth, (stringTail c rest).1) :: quotedTexts depth (stringTail c rest).2
    else quotedTexts (weighBrackets c depth) rest
termination_by s => s.length
decreasing_by
  · have happend := congrArg List.length (stringTail_append c rest)
    rw [List.length_append] at happend
    exact Nat.lt_succ_of_le (by omega)
  · exact Nat.lt_succ_self _

/-- Whether the brackets in each quoted text match, so that counting them leads back to where it
started, and its colons stand where this count is not zero. -/
def BalancedQuotes (depth : Nat) (s : List Char) : Prop :=
  ∀ q ∈ quotedTexts depth s,
    (∀ t u, q.2 = t ++ ':' :: u → openBrackets q.1 t ≠ 0) ∧ openBrackets q.1 q.2 = q.1

theorem quotedTexts_plain {c : Char} (h : isQuote c = false) (depth : Nat) (rest : List Char) :
    quotedTexts depth (c :: rest) = quotedTexts (weighBrackets c depth) rest := by
  rw [quotedTexts, h, if_neg Bool.false_ne_true]

theorem quotedTexts_string {quote : Char} (hquote : isQuote quote = true) {t : List Char}
    (ht : StringBody quote t) (depth : Nat) (rest : List Char) :
    quotedTexts depth (quote :: (t ++ rest)) = (depth, t) :: quotedTexts depth rest := by
  have hne : quote ≠ '\\' := by
    rintro rfl
    cases hquote
  rw [quotedTexts, if_pos hquote, ht.stringTail_append hne]

theorem quotedTexts_group {o c : Char} (h : bracketCloser o = some c) (depth : Nat)
    (rest : List Char) :
    quotedTexts depth (o :: rest) = quotedTexts (depth + 1) rest ∧
      quotedTexts (depth + 1) (c :: rest) = quotedTexts depth rest := by
  rcases bracketCloser_eq_some h with ⟨rfl, rfl⟩ | ⟨rfl, rfl⟩ <;>
    exact ⟨quotedTexts_plain rfl depth rest, quotedTexts_plain rfl (depth + 1) rest⟩

/-- The strings and brackets of a guarded text are closed, so that those of what follows stand as
deep as without it. -/
theorem Guarded.quotedTexts_append {p : Char → Bool} {inside : Bool} {s : List Char}
    (h : Guarded false p inside s) (depth : Nat) (rest : List Char) :
    quotedTexts depth (s ++ rest) = quotedTexts depth s ++ quotedTexts depth rest := by
  induction h generalizing depth rest with
  | nil => rw [quotedTexts, List.nil_append, List.nil_append]
  | char hquote hbracket _ _ _ ih =>
    rw [List.cons_append, quotedTexts_plain hquote, quotedTexts_plain hquote,
      weighBrackets_of_not_bracket hbracket, ih]
  | escape c he => cases he
  | string hquote ht _ ih =>
    rw [List.cons_append, List.append_assoc, quotedTexts_string hquote ht,
      quotedTexts_string hquote ht, ih, List.cons_append]
  | group hcloser _ _ iht ihs =>
    rw [List.cons_append, List.append_assoc, List.cons_append, (quotedTexts_group hcloser _ _).1,
      (quotedTexts_group hcloser _ _).1, iht, iht, (quotedTexts_group hcloser _ _).2,
      (quotedTexts_group hcloser _ _).2, ihs, List.append_assoc]

theorem pseudoScanner_passes_char {d : Nat} {c : Char} (hstop : ¬ (d = 0 ∧ c = ':'))
    (hbracket : isBracket c = false) (rest : List Char) : Passes pseudoScanner d [c] rest := by
  unfold Passes
  rw [List.singleton_append, cut_pseudoScanner_cons hstop, weighBrackets_of_not_bracket hbracket]
  rfl

/-- The scan for the first colon, which reads strings like any other text, passes a text that guards
its colons if the brackets in its strings match. -/
theorem Guarded.pseudoScanner_passes {inside : Bool} {s : List Char}
    (h : Guarded false (· == ':') inside s) {d : Nat} (hd : inside = true → 0 < d)
    (hquotes : BalancedQuotes d s) (rest : List Char) : Passes pseudoScanner d s rest := by
  induction h generalizing d rest with
  | nil => exact passes_nil rest
  | @char inside c s hquote hbracket _ hc _ ih =>
    have hstop : ¬ (d = 0 ∧ c = ':') := by
      rintro ⟨hzero, rfl⟩
      cases inside with
      | true => exact Nat.ne_of_gt (hd rfl) hzero
      | false => cases hc rfl
    unfold BalancedQuotes at hquotes
    rw [quotedTexts_plain hquote, weighBrackets_of_not_bracket hbracket] at hquotes
    exact (pseudoScanner_passes_char hstop hbracket _).append (ih hd hquotes rest)
  | escape c he => cases he
  | @string inside quote t s hquote ht _ ih =>
    unfold BalancedQuotes at hquotes
    rw [quotedTexts_string hquote ht, List.forall_mem_cons] at hquotes
    obtain ⟨⟨hcolon, hback⟩, hrest⟩ := hquotes
    obtain ⟨-, -, -, -, hbracket, -⟩ := not_quote_slash (.inl hquote)
    have hstop : ¬ (d = 0 ∧ quote = ':') := by
      rintro ⟨-, rfl⟩
      cases hquote
    have hstring : Passes pseudoScanner d t (s ++ rest) := by
      unfold Passes
      rw [cut_pseudoScanner_append hcolon, hback]
    exact (pseudoScanner_passes_char hstop hbracket _).append
      (hstring.append (ih hd hrest rest))
  | @group inside o c t s hcloser ht _ iht ihs =>
    unfold BalancedQuotes at hquotes
    rw [(quotedTexts_group hcloser d _).1, ht.quotedTexts_append,
      (quotedTexts_group hcloser d s).2, List.forall_mem_append] at hquotes
    have hopen : o ≠ ':' := by
      rintro rfl
      cases hcloser
    exact passes_group rfl rfl hcloser (by simp [pseudoScanner, hopen]) (by simp [pseudoScanner])
      (iht (fun _ => d.succ_pos) hquotes.1 _) (ihs hd hquotes.2 rest)

section Scoped

variable (scope : Scope)

theorem scopeCompound_cutAt {l : Punctuated (List Char)} (h : l.CutAt (· == ':'))
    (hhost : ¬ RefersToHost (l.render id)) (hquotes : BalancedQuotes 0 l.first) :
    scopeCompound scope (l.render id) = l.first ++ scope.element ++ l.behind id := by
  have hpasses : Passes pseudoScanner 0 l.first (l.behind id) :=
    h.guarded_first.pseudoScanner_passes (by simp) hquotes _
  have hcut : cut pseudoScanner 0 (l.render id) = (l.first, l.behind id) := by
    cases l with
    | one a => exact hpasses.cut_end
    | more a c l =>
      obtain rfl : c = ':' := beq_iff_eq.1 (Punctuated.cutAt_more.1 h).2.1
      exact hpasses.cut_eq rfl
  rw [scopeCompound_plain scope hhost, hcut]

theorem exists_scopeCompound {s : List Char} (h : ¬ RefersToHost s) :
    ∃ front back, s = front ++ back ∧
      ∀ scope, scopeCompound scope s = front ++ scope.element ++ back :=
  ⟨_, _, (cut_append pseudoScanner 0 s).symm, fun scope => scopeCompound_plain scope h⟩

/-! ## Selectors -/

/-- A compound selector qualified. There may be none between two combinators. -/
def scopePiece (s : List Char) : List Char := if s = [] then [] else scopeCompound scope s

theorem scopeComplex_sign {c : Char} (hc : isCombinator c = true) (s : List Char) :
    scopeComplex scope (c :: s) = c :: scopeComplex scope s := by
  rw [scopeComplex, dif_pos hc]

theorem scopeComplex_first {l : Punctuated (List Char)} (h : l.CutAt isCombinator) :
    scopeComplex scope (l.render id) =
      scopePiece scope l.first ++ scopeComplex scope (l.behind id) := by
  have hcut := h.cut_eq separating_isCombinator
  rw [l.render_eq id, id] at hcut ⊢
  unfold scopePiece
  cases hfirst : l.first with
  | nil => rfl
  | cons x a =>
    have hx : isCombinator x = false :=
      h.guarded_first.head separating_isCombinator (by rw [hfirst]; rfl)
    have hcut' : cut compoundScanner 0 (x :: (a ++ l.behind id)) = (x :: a, l.behind id) := by
      rw [hfirst] at hcut
      exact hcut
    rw [List.cons_append, scopeComplex, dif_neg (by simp [hx]), hcut',
      if_neg (List.cons_ne_nil x a)]

theorem scopeComplex_cutAt {l : Punctuated (List Char)} (h : l.CutAt isCombinator) :
    scopeComplex scope (l.render id) = l.render (scopePiece scope) := by
  induction l with
  | one a =>
    rw [scopeComplex_first scope h]
    show scopePiece scope a ++ scopeComplex scope [] = scopePiece scope a
    rw [scopeComplex, List.append_nil]
  | more a c l ih =>
    obtain ⟨-, hc, hrest⟩ := Punctuated.cutAt_more.1 h
    rw [scopeComplex_first scope h]
    show scopePiece scope a ++ scopeComplex scope (c :: l.render id) =
      scopePiece scope a ++ c :: l.render (scopePiece scope)
    rw [scopeComplex_sign scope hc, ih hrest]

end Scoped

/-! ## Lists -/

theorem splitTop_cutAt {d : Char} (hquote : isQuote d = false) (hbracket : isBracket d = false)
    {l : Punctuated (List Char)} (h : l.CutAt (· == d)) : splitTop d (l.render id) = l.items := by
  induction l with
  | one a => exact splitTop_end (h.cut_eq (separating_beq hquote hbracket))
  | more a c l ih =>
    have hcut : cut (delimiterScanner d) 0 (a ++ c :: l.render id) = (a, c :: l.render id) :=
      h.cut_eq (separating_beq hquote hbracket)
    have hrest := (Punctuated.cutAt_more.1 h).2.2
    exact (splitTop_cons hcut).trans (congrArg (a :: ·) (ih hrest))

theorem pseudoArguments?_selfContained {args : List Char} (h : SelfContained args)
    (rest : List Char) :
    pseudoArguments? ('(' :: (args ++ ')' :: rest)) = some (trimChars args, rest) := by
  refine pseudoArguments?_of_passes ?_
  refine h.passes (p := fun c => c == ')') (fun c hc => ?_) (fun c hbracket hc => ?_) (by simp)
  · obtain rfl := beq_iff_eq.1 hc
    exact ⟨rfl, rfl⟩
  · obtain rfl := beq_iff_eq.1 hc
    cases hbracket

/-! ## What the scanners take for structure -/

/-- **Quoted and bracketed characters are no structure.** A text with closed strings and brackets
comes in pieces between the characters of any kind outside of them. The scope is put in once, and
in front of the first colon; combinators part compound selectors, delimiters part the items of a
list, and arguments end at their own parenthesis.

The scan for the colon does not skip strings, so the place of the scope is stated for selectors with
matching brackets in their strings. -/
theorem structure_stands_outside :
    (∀ p s, SelfContained s → ∃ l : Punctuated (List Char), l.CutAt p ∧ l.render id = s) ∧
    (∀ s, ¬ RefersToHost s → ∃ front back, s = front ++ back ∧
      ∀ scope, scopeCompound scope s = front ++ scope.element ++ back) ∧
    (∀ l : Punctuated (List Char), l.CutAt (· == ':') → ¬ RefersToHost (l.render id) →
      BalancedQuotes 0 l.first →
      ∀ scope, scopeCompound scope (l.render id) = l.first ++ scope.element ++ l.behind id) ∧
    (∀ l : Punctuated (List Char), l.CutAt isCombinator →
      ∀ scope, scopeComplex scope (l.render id) = l.render (scopePiece scope)) ∧
    (∀ d, isQuote d = false → isBracket d = false → ∀ l : Punctuated (List Char),
      l.CutAt (· == d) → splitTop d (l.render id) = l.items) ∧
    ∀ args rest, SelfContained args →
      pseudoArguments? ('(' :: (args ++ ')' :: rest)) = some (trimChars args, rest) := by
  refine ⟨fun p s h => h.exists_punctuated rfl p, fun s => exists_scopeCompound,
    fun l h hhost hquotes scope => scopeCompound_cutAt scope h hhost hquotes,
    fun l h scope => scopeComplex_cutAt scope h,
    fun d hquote hbracket l => splitTop_cutAt hquote hbracket,
    fun args rest h => pseudoArguments?_selfContained h rest⟩

/-- A link whose attribute has a quoted value. -/
def linkTo (value : List Char) : List Char := "a[x=\"".toList ++ value ++ "\"]".toList

theorem stringBody_append_quote {quote : Char} {t : List Char}
    (h : (t.all fun c => c != quote && c != '\\') = true) : StringBody quote (t ++ [quote]) := by
  induction t with
  | nil => exact .close
  | cons c t ih =>
    rw [List.all_cons, Bool.and_eq_true, Bool.and_eq_true, bne_iff_ne, bne_iff_ne] at h
    exact .char h.1.1 h.1.2 (ih h.2)

theorem guarded_linkTo {p : Char → Bool} (h : p 'a' = false) {value : List Char}
    (hvalue : (value.all fun c => c != '"' && c != '\\') = true) :
    Guarded false p false (linkTo value) := by
  have hstring : Guarded false p true ('"' :: ((value ++ ['"']) ++ [])) :=
    .string rfl (stringBody_append_quote hvalue) .nil
  have hattribute : Guarded false p true ("x=".toList ++ '"' :: ((value ++ ['"']) ++ [])) :=
    .mono_inside (.plain_append (p := fun _ => false) rfl hstring.mono_inside)
  have heq : linkTo value =
      'a' :: '[' :: ("x=".toList ++ '"' :: ((value ++ ['"']) ++ []) ++ ']' :: []) := by
    simp [linkTo]
  rw [heq]
  exact .char rfl rfl (by simp) (fun _ => h) (.group rfl hattribute .nil)

theorem cutAt_linkTo {p : Char → Bool} {c : Char} (h : p 'a' = false) (hb : p 'b' = false)
    (hc : p c = true) {value : List Char}
    (hvalue : (value.all fun c => c != '"' && c != '\\') = true) :
    (Punctuated.more (linkTo value) c (.one ['b'])).CutAt p :=
  Punctuated.cutAt_more.2 ⟨guarded_linkTo h hvalue, hc,
    Punctuated.cutAt_one.2 (.char rfl rfl (by simp) (fun _ => hb) .nil)⟩

/-- None of the quoted signs is taken for structure. -/
theorem signs_quoted_are_kept :
    ¬ RefersToHost (linkTo ":,> []".toList ++ ":b".toList) ∧
    BalancedQuotes 0 (linkTo ":,> []".toList) ∧
    scopeCompound ⟨"[data-x]".toList, []⟩ (linkTo ":,> []".toList ++ ":b".toList) =
      linkTo ":,> []".toList ++ "[data-x]:b".toList ∧
    scopeComplex ⟨"[data-x]".toList, []⟩ (linkTo ":,> ]".toList ++ ">b".toList) =
      linkTo ":,> ]".toList ++ "[data-x]>b[data-x]".toList ∧
    splitTop ',' (linkTo ":,> ]".toList ++ ",b".toList) = [linkTo ":,> ]".toList, ['b']] ∧
    pseudoArguments? ('(' :: (linkTo ":,> ]".toList ++ [')'])) =
      some (linkTo ":,> ]".toList, []) := by
  obtain ⟨-, -, hcompound, hcomplex, hsplit, hargs⟩ := structure_stands_outside
  have hhost : ¬ RefersToHost (linkTo ":,> []".toList ++ ":b".toList) :=
    not_refersToHost_iff.2 ⟨rfl, rfl⟩
  have hquotes : BalancedQuotes 0 (linkTo ":,> []".toList) := by
    have htexts : quotedTexts 0 (linkTo ":,> []".toList) = [(1, ":,> []\"".toList)] := by
      decide +kernel
    intro q hq
    rw [htexts] at hq
    obtain rfl := List.mem_singleton.1 hq
    exact ⟨((cut_pseudoScanner_iff (.inl rfl) 1 _).1 (by decide +kernel)).1, by decide +kernel⟩
  refine ⟨hhost, hquotes, ?_, ?_, ?_, ?_⟩
  · exact hcompound _ (cutAt_linkTo (c := ':') rfl rfl rfl rfl) hhost hquotes _
  · exact (hcomplex _ (cutAt_linkTo (c := '>') rfl rfl rfl rfl) _).trans (by decide +kernel)
  · exact hsplit ',' rfl rfl _ (cutAt_linkTo (c := ',') rfl rfl rfl rfl)
  · exact (hargs _ [] (guarded_linkTo rfl rfl)).trans (by decide +kernel)

/-- If a backslash escaped outside strings too, a class with an escaped colon would have the scope
behind it, which is put in front of the colon instead. -/
theorem escaped_colon_cut :
    ¬ ∀ base pseudo, Guarded true (· == ':') false base →
      Guarded true (fun _ => false) false pseudo →
      pseudo = [] ∨ pseudo.head? = some ':' → ¬ ":host".toList <+: base ++ pseudo →
      ∀ scope, scopeCompound scope (base ++ pseudo) = base ++ scope.element ++ pseudo := by
  intro h
  have hbase : Guarded true (· == ':') false ".sm\\:flex".toList :=
    .plain_append (s := ".sm".toList) rfl
      (.escape ':' rfl (.plain_append (s := "flex".toList) rfl .nil))
  have hscoped := h _ [] hbase .nil (.inl rfl) (by decide) ⟨"[data-x]".toList, []⟩
  revert hscoped
  decide +kernel

end ComponentBundle.Css
