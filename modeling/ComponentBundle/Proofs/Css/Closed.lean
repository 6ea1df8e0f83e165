import ComponentBundle.Css.Scope

/-!
# Closed texts

A text is closed if its strings, its comments and its brackets are. Three kinds of closed texts
make up a style sheet: the bodies of blocks, what stands in front of a block, and compound
selectors. They differ in the characters that stand for themselves, in whether comments count and
in the brackets.

* `Closed.passes` : a scanner that walks over such texts passes a closed one as a whole, at the
  depth at which it entered it.
-/

namespace ComponentBundle.Css
open Text

/-! ## Strings and comments -/

/-- The text of a string from behind its opening quote up to and with its closing one. -/
inductive StringBody (quote : Char) : List Char → Prop where
  | close : StringBody quote [quote]
  | escape (c : Char) {s : List Char} : StringBody quote s → StringBody quote ('\\' :: c :: s)
  | char {c : Char} {s : List Char} : c ≠ quote → c ≠ '\\' → StringBody quote s →
    StringBody quote (c :: s)

/-- The text of a comment from behind its `/*` up to and with its `*/`. -/
inductive CommentBody : List Char → Prop where
  | close : CommentBody ['*', '/']
  | char {c : Char} {s : List Char} : (c = '*' → s.head? ≠ some '/') → CommentBody s →
    CommentBody (c :: s)

theorem StringBody.stringTail_append {quote : Char} (hquote : quote ≠ '\\') {t : List Char}
    (h : StringBody quote t) (rest : List Char) : stringTail quote (t ++ rest) = (t, rest) := by
  induction h with
  | close =>
    rw [List.singleton_append, stringTail, if_pos rfl]
    exact fun c s hc => absurd hc hquote
  | escape c _ ih => rw [List.cons_append, List.cons_append, stringTail, ih]
  | char hne hslash _ ih =>
    rw [List.cons_append, stringTail, if_neg hne, ih]
    exact fun c s hc => absurd hc hslash

theorem CommentBody.commentTail_append {t : List Char} (h : CommentBody t) (rest : List Char) :
    commentTail (t ++ rest) = (t, rest) := by
  induction h with
  | close => rfl
  | @char c s hstar hs ih =>
    rw [List.cons_append, commentTail, ih]
    intro rest' hc hrest
    cases hs with
    | close => simp at hrest
    | char => exact hstar hc (by simpa using congrArg List.head? hrest)

/-! ## Texts -/

/-- What a kind of text is made of: the characters that stand for themselves outside and inside
brackets, whether there are comments, and the brackets. -/
structure TextKind where
  plain : Bool → Char → Bool
  comments : Bool
  closer : Char → Option Char

/-- A text with closed strings, comments and brackets. The flag says whether it stands in
brackets. -/
inductive Closed (k : TextKind) : Bool → List Char → Prop where
  | nil {inside : Bool} : Closed k inside []
  | char {inside : Bool} {c : Char} {s : List Char} : k.plain inside c = true →
    (c = '/' → s.head? ≠ some '*') → Closed k inside s → Closed k inside (c :: s)
  | string {inside : Bool} {quote : Char} {t s : List Char} : isQuote quote = true →
    StringBody quote t → Closed k inside s → Closed k inside (quote :: (t ++ s))
  | comment {inside : Bool} {t s : List Char} : k.comments = true → CommentBody t →
    Closed k inside s → Closed k inside ('/' :: '*' :: (t ++ s))
  | group {inside : Bool} {o c : Char} {t s : List Char} : k.closer o = some c →
    Closed k true t → Closed k inside s → Closed k inside (o :: (t ++ c :: s))

def bodyText : TextKind where
  plain _ c := !(isQuote c || c == '{' || c == '}')
  comments := true
  closer c := if c = '{' then some '}' else none

/-- What stands in front of a block or a semicolon: there are no brackets. -/
def preludeText : TextKind where
  plain _ c := !(isQuote c || c == '{' || c == '}' || c == ';')
  comments := true
  closer _ := none

def isBracket (c : Char) : Bool := c == '(' || c == ')' || c == '[' || c == ']'

def bracketCloser (c : Char) : Option Char :=
  if c = '(' then some ')' else if c = '[' then some ']' else none

/-- A part of a compound selector: outside brackets there are no combinators and no commas. -/
def compoundText : TextKind where
  plain inside c := !(isQuote c || c == '{' || c == '}' || c == ';' || isBracket c) &&
    (inside || !(isCombinator c || c == ','))
  comments := false
  closer := bracketCloser

/-- The part of a compound selector in front of its first pseudo-class or pseudo-element: outside
brackets there is no colon either. -/
def baseText : TextKind where
  plain inside c := compoundText.plain inside c && (inside || c != ':')
  comments := false
  closer := bracketCloser

theorem Closed.mono {k l : TextKind} (hplain : ∀ inside c, k.plain inside c = true →
    l.plain inside c = true) (hcomments : k.comments = true → l.comments = true)
    (hcloser : ∀ o c, k.closer o = some c → l.closer o = some c) {inside : Bool} {s : List Char}
    (h : Closed k inside s) : Closed l inside s := by
  induction h with
  | nil => exact .nil
  | char hc hslash _ ih => exact .char (hplain _ _ hc) hslash ih
  | string hquote ht _ ih => exact .string hquote ht ih
  | comment hc ht _ ih => exact .comment (hcomments hc) ht ih
  | group hc _ _ iht ihs => exact .group (hcloser _ _ hc) iht ihs

theorem Closed.base {inside : Bool} {s : List Char} (h : Closed baseText inside s) :
    Closed compoundText inside s := by
  refine h.mono (k := baseText) (l := compoundText) (fun inside c hc => ?_) (fun hc => hc)
    (fun _ _ hc => hc)
  simp only [baseText, Bool.and_eq_true] at hc
  exact hc.1

/-! ## Passing -/

/-- Whether a scanner passes a text in front of another one, at the depth at which it entered it. -/
def Passes (sc : Scanner) (d : Nat) (s rest : List Char) : Prop :=
  cut sc d (s ++ rest) = (s ++ (cut sc d rest).1, (cut sc d rest).2)

section Passing

variable {sc : Scanner} {d : Nat}

theorem passes_nil (rest : List Char) : Passes sc d [] rest := rfl

theorem Passes.append {s t rest : List Char} (hs : Passes sc d s (t ++ rest))
    (ht : Passes sc d t rest) : Passes sc d (s ++ t) rest := by
  unfold Passes at *
  rw [List.append_assoc, hs, ht, List.append_assoc]

theorem cut_of_stops {c : Char} (rest : List Char) (h : sc.stops d c = true) :
    cut sc d (c :: rest) = ([], c :: rest) := by
  rw [cut, if_pos h]

theorem Passes.cut_eq {s : List Char} {c : Char} {rest : List Char}
    (h : Passes sc d s (c :: rest)) (hc : sc.stops d c = true) :
    cut sc d (s ++ c :: rest) = (s, c :: rest) := by
  unfold Passes at h
  rw [h, cut_of_stops rest hc, List.append_nil]

theorem Passes.cut_end {s : List Char} (h : Passes sc d s []) : cut sc d s = (s, []) := by
  unfold Passes at h
  rw [List.append_nil] at h
  rw [h, cut, List.append_nil]

theorem cut_char {c : Char} {rest : List Char} (hstop : sc.stops d c = false)
    (hquote : isQuote c = false) (hslash : c = '/' → rest.head? ≠ some '*') :
    cut sc d (c :: rest) =
      (c :: (cut sc (sc.weigh c d) rest).1, (cut sc (sc.weigh c d) rest).2) := by
  have hlexeme : lexeme sc.skips c rest = ([c], rest) := by
    unfold lexeme
    rw [if_neg, if_neg]
    · simp [hquote]
    · intro h
      simp only [Bool.and_eq_true, beq_iff_eq] at h
      exact hslash h.1.2 h.2
  rw [cut, if_neg (by simp [hstop]), hlexeme]
  rfl

theorem passes_char {c : Char} {rest : List Char} (hstop : sc.stops d c = false)
    (hweigh : sc.weigh c d = d) (hquote : isQuote c = false)
    (hslash : c = '/' → rest.head? ≠ some '*') : Passes sc d [c] rest := by
  unfold Passes
  rw [List.singleton_append, cut_char hstop hquote hslash, hweigh]
  rfl

theorem passes_string (hskips : sc.skips.strings = true) {quote : Char}
    (hquote : isQuote quote = true) (hstop : sc.stops d quote = false)
    (hweigh : sc.weigh quote d = d) {t : List Char} (ht : StringBody quote t)
    (rest : List Char) : Passes sc d (quote :: t) rest := by
  have hne : quote ≠ '\\' := by
    rintro rfl
    revert hquote
    decide
  have hslash : quote ≠ '/' := by
    rintro rfl
    revert hquote
    decide
  have hlexeme : lexeme sc.skips quote (t ++ rest) = (quote :: t, rest) := by
    unfold lexeme
    rw [if_neg, if_pos, ht.stringTail_append hne]
    · simp [hskips, hquote]
    · simp [hslash]
  unfold Passes
  rw [List.cons_append, cut, if_neg (by simp [hstop]), hlexeme, hweigh]

theorem passes_comment (hskips : sc.skips.comments = true) (hstop : sc.stops d '/' = false)
    (hweigh : sc.weigh '/' d = d) {t : List Char} (ht : CommentBody t) (rest : List Char) :
    Passes sc d ('/' :: '*' :: t) rest := by
  have hlexeme : lexeme sc.skips '/' ('*' :: (t ++ rest)) = ('/' :: '*' :: t, rest) := by
    unfold lexeme
    rw [if_pos]
    · rw [List.tail_cons, ht.commentTail_append]
    · simp [hskips]
  unfold Passes
  rw [List.cons_append, List.cons_append, cut, if_neg (by simp [hstop]), hlexeme, hweigh]

end Passing

/-- Whether a scanner walks over a kind of text: it stops at nothing in it and comes back to its
depth behind every bracket. `inner` holds of the depths inside brackets. -/
structure Scanner.Walks (sc : Scanner) (k : TextKind) (inner : Nat → Prop) : Prop where
  strings : sc.skips.strings = true
  comments : k.comments = true → sc.skips.comments = true
  start : ∀ c d, isQuote c = true ∨ c = '/' → sc.stops d c = false ∧ sc.weigh c d = d
  plain : ∀ inside c d, k.plain inside c = true → (inside = true → inner d) →
    isQuote c = false ∧ sc.stops d c = false ∧ sc.weigh c d = d
  opens : ∀ o c d, k.closer o = some c →
    isQuote o = false ∧ o ≠ '/' ∧ sc.stops d o = false ∧ inner (sc.weigh o d)
  closes : ∀ o c d, k.closer o = some c →
    isQuote c = false ∧ c ≠ '/' ∧ c ≠ '*' ∧ sc.stops (sc.weigh o d) c = false ∧
      sc.weigh c (sc.weigh o d) = d

/-- A scanner passes a closed text of a kind that it walks over. What follows must not make a
comment of a slash at the end. -/
theorem Closed.passes {sc : Scanner} {k : TextKind} {inner : Nat → Prop} (hw : sc.Walks k inner)
    {inside : Bool} {s : List Char} (h : Closed k inside s) {d : Nat} {rest : List Char}
    (hd : inside = true → inner d) (hrest : rest.head? ≠ some '*') : Passes sc d s rest := by
  induction h generalizing d rest with
  | nil => exact passes_nil rest
  | @char inside c s hc hslash _ ih =>
    obtain ⟨hquote, hstop, hweigh⟩ := hw.plain inside c d hc hd
    refine (passes_char hstop hweigh hquote fun hc => ?_).append (ih hd hrest)
    cases s with
    | nil => exact hrest
    | cons a s => exact hslash hc
  | string hquote ht _ ih =>
    obtain ⟨hstop, hweigh⟩ := hw.start _ d (.inl hquote)
    exact (passes_string hw.strings hquote hstop hweigh ht _).append (ih hd hrest)
  | comment hc ht _ ih =>
    obtain ⟨hstop, hweigh⟩ := hw.start '/' d (.inr rfl)
    exact (passes_comment (hw.comments hc) hstop hweigh ht _).append (ih hd hrest)
  | @group inside o c t s hc _ _ iht ihs =>
    obtain ⟨hquote, hslash, hstop, hinner⟩ := hw.opens o c d hc
    obtain ⟨hquote', hslash', hstar', hstop', hweigh'⟩ := hw.closes o c d hc
    have ht : Passes sc (sc.weigh o d) t (c :: (s ++ rest)) :=
      iht (fun _ => hinner) (by simpa using hstar')
    have hs : Passes sc d s rest := ihs hd hrest
    -- open, pass the inside one level deeper, close, and go on at the old depth
    unfold Passes at *
    rw [List.cons_append, cut_char hstop hquote fun h => absurd h hslash, List.append_assoc,
      List.cons_append, ht, cut_char hstop' hquote' fun h => absurd h hslash', hweigh', hs]
    simp

/-! ## The scanners of a style sheet -/

theorem not_quote_slash {c : Char} (h : isQuote c = true ∨ c = '/') :
    c ≠ '{' ∧ c ≠ '}' ∧ c ≠ ';' ∧ c ≠ ',' ∧ isBracket c = false ∧ isCombinator c = false := by
  unfold isQuote at h
  simp only [Bool.or_eq_true, beq_iff_eq] at h
  rcases h with (rfl | rfl) | rfl <;> decide

theorem bracketCloser_eq_some {o c : Char} (h : bracketCloser o = some c) :
    o = '(' ∧ c = ')' ∨ o = '[' ∧ c = ']' := by
  unfold bracketCloser at h
  split at h
  · exact .inl ⟨‹_›, (Option.some.inj h).symm⟩
  · split at h
    · exact .inr ⟨‹_›, (Option.some.inj h).symm⟩
    · cases h

theorem weighBrackets_of_not_bracket {c : Char} (h : isBracket c = false) (d : Nat) :
    weighBrackets c d = d := by
  unfold isBracket at h
  simp only [Bool.or_eq_false_iff, beq_eq_false_iff_ne, ne_eq] at h
  simp [weighBrackets, h]

/-- Whether a scanner skips comments and strings and takes note of braces and semicolons only. -/
structure Scanner.ReadsBraces (sc : Scanner) : Prop where
  strings : sc.skips.strings = true
  comments : sc.skips.comments = true
  other : ∀ c d, c ≠ '{' → c ≠ '}' → c ≠ ';' → sc.stops d c = false ∧ sc.weigh c d = d

theorem statementScanner_readsBraces : statementScanner.ReadsBraces where
  strings := rfl
  comments := rfl
  other c d h1 h2 h3 := by simp [statementScanner, h1, h2, h3]

theorem blockScanner_readsBraces : blockScanner.ReadsBraces where
  strings := rfl
  comments := rfl
  other c d h1 h2 _ := by simp [blockScanner, h1, h2]

theorem Scanner.ReadsBraces.walks_prelude {sc : Scanner} (h : sc.ReadsBraces) :
    sc.Walks preludeText fun _ => True where
  strings := h.strings
  comments _ := h.comments
  start c d hc := by
    obtain ⟨h1, h2, h3, -⟩ := not_quote_slash hc
    exact h.other c d h1 h2 h3
  plain inside c d hc _ := by
    simp only [preludeText, Bool.not_eq_true', Bool.or_eq_false_iff, beq_eq_false_iff_ne] at hc
    exact ⟨hc.1.1.1, h.other c d hc.1.1.2 hc.1.2 hc.2⟩
  opens o c d hc := by cases hc
  closes o c d hc := by cases hc

theorem Scanner.ReadsBraces.walks_compound {sc : Scanner} (h : sc.ReadsBraces) :
    sc.Walks compoundText fun _ => True where
  strings := h.strings
  comments hc := by cases hc
  start c d hc := by
    obtain ⟨h1, h2, h3, -⟩ := not_quote_slash hc
    exact h.other c d h1 h2 h3
  plain inside c d hc _ := by
    simp only [compoundText, Bool.and_eq_true, Bool.not_eq_true', Bool.or_eq_false_iff,
      beq_eq_false_iff_ne] at hc
    exact ⟨hc.1.1.1.1.1, h.other c d hc.1.1.1.1.2 hc.1.1.1.2 hc.1.1.2⟩
  opens o c d hc := by
    obtain ⟨hstop, -⟩ := h.other o d
      (by rintro rfl; cases hc) (by rintro rfl; cases hc) (by rintro rfl; cases hc)
    rcases bracketCloser_eq_some hc with ⟨rfl, -⟩ | ⟨rfl, -⟩ <;> simp [hstop, isQuote]
  closes o c d hc := by
    rcases bracketCloser_eq_some hc with ⟨rfl, rfl⟩ | ⟨rfl, rfl⟩
    · have hopen := h.other '(' d (by decide) (by decide) (by decide)
      have hclose := h.other ')' d (by decide) (by decide) (by decide)
      simp [hopen, hclose, isQuote]
    · have hopen := h.other '[' d (by decide) (by decide) (by decide)
      have hclose := h.other ']' d (by decide) (by decide) (by decide)
      simp [hopen, hclose, isQuote]

theorem blockScanner_walks_body : blockScanner.Walks bodyText fun _ => True where
  strings := rfl
  comments _ := rfl
  start c d h := by
    obtain ⟨h1, h2, h3, -⟩ := not_quote_slash h
    exact blockScanner_readsBraces.other c d h1 h2 h3
  plain inside c d h _ := by
    simp only [bodyText, Bool.not_eq_true', Bool.or_eq_false_iff, beq_eq_false_iff_ne] at h
    simp [blockScanner, h]
  opens o c d h := by
    simp only [bodyText, Option.ite_none_right_eq_some, Option.some.injEq] at h
    obtain ⟨rfl, rfl⟩ := h
    simp [blockScanner, isQuote]
  closes o c d h := by
    simp only [bodyText, Option.ite_none_right_eq_some, Option.some.injEq] at h
    obtain ⟨rfl, rfl⟩ := h
    simp [blockScanner, isQuote]

/-- The scanner that stops outside brackets and strings at some characters. -/
def topScanner (p : Char → Bool) : Scanner :=
  ⟨⟨false, true⟩, weighBrackets, fun depth c => depth == 0 && p c⟩

theorem topScanner_walks {k : TextKind} {p : Char → Bool}
    (hk : ∀ inside c, k.plain inside c = true → compoundText.plain inside c = true)
    (hcomments : k.comments = false) (hcloser : k.closer = bracketCloser)
    (hplain : ∀ c, k.plain false c = true → p c = false)
    (hother : ∀ c, isQuote c = true ∨ c = '/' → p c = false)
    (hparen : p '(' = false) (hsquare : p '[' = false) :
    (topScanner p).Walks k fun d => 0 < d where
  strings := rfl
  comments h := by
    rw [hcomments] at h
    cases h
  start c d h := by
    obtain ⟨-, -, -, -, hbracket, -⟩ := not_quote_slash h
    simp [topScanner, hother c h, weighBrackets_of_not_bracket hbracket]
  plain inside c d h hd := by
    have hc := hk inside c h
    simp only [compoundText, Bool.and_eq_true, Bool.not_eq_true', Bool.or_eq_false_iff] at hc
    refine ⟨hc.1.1.1.1.1, ?_, weighBrackets_of_not_bracket hc.1.2 d⟩
    cases inside with
    | true =>
      have hpos := hd rfl
      simp [topScanner, Nat.ne_of_gt hpos]
    | false => simp [topScanner, hplain c h]
  opens o c d h := by
    rw [hcloser] at h
    rcases bracketCloser_eq_some h with ⟨rfl, -⟩ | ⟨rfl, -⟩ <;>
      simp [topScanner, isQuote, weighBrackets, hparen, hsquare]
  closes o c d h := by
    rw [hcloser] at h
    rcases bracketCloser_eq_some h with ⟨rfl, rfl⟩ | ⟨rfl, rfl⟩ <;>
      simp [topScanner, isQuote, weighBrackets]

theorem compoundText_plain_false {c : Char} (h : compoundText.plain false c = true) :
    isCombinator c = false ∧ c ≠ ',' := by
  simp only [compoundText, Bool.and_eq_true, Bool.false_or, Bool.not_eq_true',
    Bool.or_eq_false_iff, beq_eq_false_iff_ne] at h
  exact h.2

theorem commaScanner_walks : (delimiterScanner ',').Walks compoundText fun d => 0 < d :=
  topScanner_walks (p := fun c => c == ',') (fun _ _ h => h) rfl rfl
    (fun _ h => by simpa using (compoundText_plain_false h).2)
    (fun _ h => by simpa using (not_quote_slash h).2.2.2.1) rfl rfl

theorem compoundScanner_walks : compoundScanner.Walks compoundText fun d => 0 < d :=
  topScanner_walks (p := isCombinator) (fun _ _ h => h) rfl rfl
    (fun _ h => (compoundText_plain_false h).1) (fun _ h => (not_quote_slash h).2.2.2.2.2) rfl rfl

theorem argumentScanner_walks : (delimiterScanner ')').Walks compoundText fun _ => True where
  strings := rfl
  comments h := by cases h
  start c d h := by
    obtain ⟨-, -, -, -, h2, -⟩ := not_quote_slash h
    have h1 : c ≠ ')' := by
      rintro rfl
      cases h2
    simp [delimiterScanner, h1, weighBrackets_of_not_bracket h2]
  plain inside c d h _ := by
    simp only [compoundText, Bool.and_eq_true, Bool.not_eq_true', Bool.or_eq_false_iff] at h
    have h1 : c ≠ ')' := by
      rintro rfl
      cases h.1.2
    simp [delimiterScanner, h1, h.1.1.1.1.1, weighBrackets_of_not_bracket h.1.2]
  opens o c d h := by
    rcases bracketCloser_eq_some h with ⟨rfl, -⟩ | ⟨rfl, -⟩ <;> simp [delimiterScanner, isQuote]
  closes o c d h := by
    rcases bracketCloser_eq_some h with ⟨rfl, rfl⟩ | ⟨rfl, rfl⟩ <;>
      simp [delimiterScanner, isQuote, weighBrackets]

end ComponentBundle.Css
