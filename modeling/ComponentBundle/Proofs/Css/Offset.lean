import ComponentBundle.Proofs.Css.Places
import ComponentBundle.Proofs.Css.Sheet

/-!
# Scoping by offsets

Every offset at which a style sheet is cut is the place of a sign or the end of the text, so it lies
on a character boundary, and no count falls below zero. What comes out is what scoping character by
character gives.

* `splitTop_eq`, `scopeCompound_eq`, `complexFrom_place`, `scopeSelectors_eq` : selectors;
* `scopePrelude_eq`, `rulesFrom_place` : the rules from any place on;
* `scopeCss_has_no_fault` : any style sheet.
-/

namespace ComponentBundle.Css.Offset
open Text

/-! ## Pieces between delimiters -/

section Pieces

variable {d : Char}

theorem weighBrackets_quote {quote : Char} (h : isQuote quote = true) (depth : Nat) :
    weighBrackets quote depth = depth := by
  unfold isQuote at h
  simp only [Bool.or_eq_true, beq_iff_eq] at h
  rcases h with rfl | rfl <;> rfl

theorem follows_splitFrom (hd : d.toNat < 0x80) (text : List Char) (start : Nat) :
    Follows (delimiterScanner d) text fun depth i => splitFrom text (byte d) depth start i := by
  constructor
  case high =>
    intro depth i b hget hhigh
    obtain ⟨hi, hb⟩ := List.getElem?_eq_some_iff.1 hget
    rw [splitFrom, dif_pos hi, hb, isQuoteByte_high hhigh, beq_high hhigh hd,
      weighByte_high hhigh]
    rfl
  case comment => nofun
  case string =>
    intro _ depth i hi quote hquote hb
    have hweight : (delimiterScanner d).weigh quote depth = depth :=
      weighBrackets_quote hquote depth
    rw [splitFrom, dif_pos hi, if_pos (hb ▸ isQuoteByte_quote hquote), hweight]
  case sign =>
    intro depth i c hc hget hstops _ hstring
    have hquote : isQuoteByte (byte c) = false := (isQuoteByte_byte hc).trans (hstring rfl)
    have hother : (byte c == byte d && depth == 0) = false := by
      rw [beq_byte hc hd, Bool.and_comm]
      exact hstops
    obtain ⟨hi, hb⟩ := List.getElem?_eq_some_iff.1 hget
    rw [splitFrom, dif_pos hi, hb, hquote, hother, weighByte_byte hc]
    rfl
  case weight => exact fun c depth hc => weighBrackets_high hc depth

theorem splitFrom_place (hd : d.toNat < 0x80) (hquote : isQuote d = false)
    (front back : List Char) :
    splitFrom (front ++ back) (byte d) 0 (size front) (size front) =
      .ok (Css.splitTop d back) := by
  induction hlen : back.length using Nat.strongRecOn generalizing front back with
  | ind n ih =>
    rcases (follows_splitFrom hd (front ++ back) (size front)).cut rfl 0 with
      ⟨hcut, depth, hend⟩ | ⟨piece, c, rest, depth, hcut, rfl, hstops, hplace⟩
    · rw [hend, splitFrom, dif_neg (not_lt_size _), sliceFrom_place, splitTop_end hcut]
      rfl
    · -- the next piece starts behind the delimiter
      simp only [delimiterScanner, Bool.and_eq_true, beq_iff_eq] at hstops
      obtain ⟨rfl, rfl⟩ := hstops
      have hget : (bytes (front ++ piece ++ c :: rest))[size (front ++ piece)]? = some (byte c) :=
        getElem?_ascii hd
      obtain ⟨hi, hb⟩ := List.getElem?_eq_some_iff.1 hget
      have hslice := slice_place front piece (c :: rest)
      have hrest := ih rest.length (by simp [← hlen]; omega) (front ++ piece ++ [c]) rest rfl
      rw [size_ascii hd, ← List.append_cons] at hrest
      rw [hplace, ← List.append_assoc, splitFrom, dif_pos hi, hb, isQuoteByte_byte hd, hquote,
        beq_self_eq_true, hslice, splitTop_cons hcut]
      rw [hrest]
      rfl

theorem splitTop_eq (hd : d.toNat < 0x80) (hquote : isQuote d = false) (text : List Char) :
    splitTop (byte d) text = .ok (Css.splitTop d text) :=
  splitFrom_place hd hquote [] text

end Pieces

/-! ## Cuts at delimiters -/

section Cut

variable {sc : Scanner} {depth : Nat} {s piece rest : List Char}

theorem append_of_cut (h : cut sc depth s = (piece, rest)) : piece ++ rest = s := by
  have happend := cut_append sc depth s
  rwa [h] at happend

theorem rest_of_cut (h : cut sc depth s = (piece, rest)) :
    rest = [] ∨ ∃ d c more, rest = c :: more ∧ sc.stops d c = true := by
  have hrest := cut_rest sc depth s
  rwa [h] at hrest

end Cut

theorem cut_delimiterScanner_cases (d : Char) (s : List Char) :
    cut (delimiterScanner d) 0 s = (s, []) ∨
      ∃ piece rest, cut (delimiterScanner d) 0 s = (piece, d :: rest) ∧ s = piece ++ d :: rest := by
  rcases hcut : cut (delimiterScanner d) 0 s with ⟨piece, rest⟩
  have happend := append_of_cut hcut
  rcases rest_of_cut hcut with rfl | ⟨depth, c, rest, rfl, hstops⟩
  · rw [List.append_nil] at happend
    exact .inl (happend ▸ rfl)
  · simp only [delimiterScanner, Bool.and_eq_true, beq_iff_eq] at hstops
    obtain ⟨-, rfl⟩ := hstops
    exact .inr ⟨piece, rest, rfl, happend.symm⟩

/-! ## Compound selectors -/

theorem pseudoArguments?_eq (rest : List Char) :
    pseudoArguments? rest = .ok (Css.pseudoArguments? rest) := by
  match rest with
  | [] => rfl
  | c :: args =>
    by_cases hc : c = '('
    · subst hc
      have hpieces : splitTop (byte ')') args = .ok (Css.splitTop ')' args) :=
        splitTop_eq (by decide) (by decide) args
      rw [pseudoArguments?, Css.pseudoArguments?]
      refine bind_eq_ok_iff.2 ⟨_, hpieces, ?_⟩
      rcases cut_delimiterScanner_cases ')' args with hcut | ⟨inner, rest, hcut, rfl⟩
      · have hafter : sliceFrom args (min (size args + 1) (size args)) = .ok [] := by
          have hend := sliceFrom_place args []
          rwa [List.append_nil, ← Nat.min_eq_right (Nat.le_succ (size args))] at hend
        rw [splitTop_end hcut, hcut]
        exact bind_eq_ok_iff.2 ⟨_, hafter, rfl⟩
      · have hsize : size (inner ++ ')' :: rest) = size inner + 1 + size rest := by
          rw [List.append_cons, size_append, size_ascii (by decide)]
        have hafter : sliceFrom (inner ++ ')' :: rest)
            (min (size inner + 1) (size (inner ++ ')' :: rest))) = .ok rest := by
          have hend := sliceFrom_place (inner ++ [')']) rest
          rw [size_ascii (by decide), ← List.append_cons] at hend
          rwa [Nat.min_eq_left (by omega)]
        rw [splitTop_cons hcut, hcut]
        exact bind_eq_ok_iff.2 ⟨_, hafter, rfl⟩
    · rw [pseudoArguments?, Css.pseudoArguments?]
      · rfl
      · simpa using hc
      · simpa using hc

theorem hostContext?_eq (compound : List Char) :
    hostContext? compound = .ok (Css.hostContext? compound) := by
  unfold hostContext? Css.hostContext?
  cases ":host-context".toList.isPrefixOf? compound with
  | none => rfl
  | some rest => exact pseudoArguments?_eq rest

theorem scopeHost_eq (scope : Scope) (rest : List Char) :
    scopeHost scope rest = .ok (Css.scopeHost scope rest) := by
  unfold scopeHost Css.scopeHost
  rw [pseudoArguments?_eq]
  cases Css.pseudoArguments? rest <;> rfl

theorem follows_colonFrom (text : List Char) :
    Follows pseudoScanner text fun depth i => colonFrom (bytes text) depth i := by
  constructor
  case high =>
    intro depth i b hget hhigh
    obtain ⟨hi, hb⟩ := List.getElem?_eq_some_iff.1 hget
    rw [colonFrom, dif_pos hi, hb, beq_high hhigh (by decide), weighByte_high hhigh]
    rfl
  case comment => nofun
  case string => nofun
  case sign =>
    intro depth i c hc hget hstops _ _
    have hother : (byte c == byte ':' && depth == 0) = false := by
      rw [beq_byte hc (by decide), Bool.and_comm]
      exact hstops
    obtain ⟨hi, hb⟩ := List.getElem?_eq_some_iff.1 hget
    rw [colonFrom, dif_pos hi, hb, hother, weighByte_byte hc]
    rfl
  case weight => exact fun c depth hc => weighBrackets_high hc depth

theorem colonFrom_place (front back : List Char) :
    colonFrom (bytes (front ++ back)) 0 (size front) =
      size (front ++ (cut pseudoScanner 0 back).1) := by
  rcases (follows_colonFrom (front ++ back)).cut rfl 0 with
    ⟨hcut, d, hend⟩ | ⟨piece, c, rest, d, hcut, rfl, hstops, hplace⟩
  · rw [hcut, hend, colonFrom, dif_neg (not_lt_size _)]
    rfl
  · simp only [pseudoScanner, Bool.and_eq_true, beq_iff_eq] at hstops
    obtain ⟨rfl, rfl⟩ := hstops
    have hget : (bytes (front ++ piece ++ ':' :: rest))[size (front ++ piece)]? = some (byte ':') :=
      getElem?_ascii (by decide)
    obtain ⟨hi, hb⟩ := List.getElem?_eq_some_iff.1 hget
    rw [hcut, hplace, ← List.append_assoc, colonFrom, dif_pos hi, hb]
    rfl

theorem scopeCompound_eq (scope : Scope) (compound : List Char) :
    scopeCompound scope compound = .ok (Css.scopeCompound scope compound) := by
  unfold scopeCompound Css.scopeCompound
  refine bind_eq_ok_iff.2 ⟨_, hostContext?_eq compound, ?_⟩
  cases Css.hostContext? compound with
  | some parts => rfl
  | none =>
    cases hostRest? compound with
    | some rest => exact scopeHost_eq scope rest
    | none =>
      have hcolon : colonFrom (bytes compound) 0 0 = size (cut pseudoScanner 0 compound).1 :=
        colonFrom_place [] compound
      have hcompound := cut_append pseudoScanner 0 compound
      have hfront := slice_front (cut pseudoScanner 0 compound).1 (cut pseudoScanner 0 compound).2
      have hback := sliceFrom_place (cut pseudoScanner 0 compound).1
        (cut pseudoScanner 0 compound).2
      rw [hcompound, ← hcolon] at hfront hback
      exact bind_eq_ok_iff.2 ⟨_, hfront, bind_eq_ok_iff.2 ⟨_, hback, rfl⟩⟩

/-! ## Complex selectors -/

theorem follows_complexFrom (scope : Scope) (text : List Char) (start : Nat) :
    Follows compoundScanner text fun depth i => complexFrom scope text depth start i := by
  constructor
  case high =>
    intro depth i b hget hhigh
    obtain ⟨hi, hb⟩ := List.getElem?_eq_some_iff.1 hget
    have hother : ¬ (depth == 0 && isCombinatorByte b) = true := by
      rw [isCombinatorByte_high hhigh, Bool.and_false]
      exact Bool.false_ne_true
    subst hb
    rw [complexFrom, dif_pos hi, isQuoteByte_high hhigh, if_neg Bool.false_ne_true, dif_neg hother,
      weighByte_high hhigh]
  case comment => nofun
  case string =>
    intro _ depth i hi quote hquote hb
    have hweight : compoundScanner.weigh quote depth = depth := weighBrackets_quote hquote depth
    rw [complexFrom, dif_pos hi, if_pos (hb ▸ isQuoteByte_quote hquote), hweight]
  case sign =>
    intro depth i c hc hget hstops _ hstring
    have hquote : isQuoteByte (byte c) = false := (isQuoteByte_byte hc).trans (hstring rfl)
    have hother : ¬ (depth == 0 && isCombinatorByte (byte c)) = true := by
      rw [isCombinatorByte_byte hc, show (depth == 0 && isCombinator c) = false from hstops]
      exact Bool.false_ne_true
    obtain ⟨hi, hb⟩ := List.getElem?_eq_some_iff.1 hget
    rw [← hb] at hquote hother
    rw [complexFrom, dif_pos hi, hquote, if_neg Bool.false_ne_true, dif_neg hother, hb,
      weighByte_byte hc]
    rfl
  case weight => exact fun c depth hc => weighBrackets_high hc depth

section Complex

variable (scope : Scope) {s piece rest : List Char} {c : Char}

theorem scopeComplex_signs (signs s : List Char) (h : ∀ c ∈ signs, isCombinator c = true) :
    Css.scopeComplex scope (signs ++ s) = signs ++ Css.scopeComplex scope s := by
  induction signs with
  | nil => rfl
  | cons c signs ih =>
    obtain ⟨hc, hsigns⟩ := List.forall_mem_cons.1 h
    rw [List.cons_append, Css.scopeComplex, dif_pos hc, ih hsigns]
    rfl

theorem scopeComplex_cut (hcut : cut compoundScanner 0 s = (piece, rest)) :
    Css.scopeComplex scope s = (if piece = [] then [] else Css.scopeCompound scope piece) ++
      Css.scopeComplex scope rest := by
  cases s with
  | nil =>
    rw [cut] at hcut
    obtain ⟨rfl, rfl⟩ := Prod.mk.inj hcut
    rfl
  | cons c s =>
    cases hc : isCombinator c with
    | true =>
      have hstops : compoundScanner.stops 0 c = true := hc
      rw [cut, if_pos hstops] at hcut
      obtain ⟨rfl, rfl⟩ := Prod.mk.inj hcut
      rfl
    | false =>
      have hne : piece ≠ [] := by
        rintro rfl
        have hlt : (cut compoundScanner 0 (c :: s)).2.length < (c :: s).length :=
          cut_length_lt s hc
        have hrest : rest = c :: s := append_of_cut hcut
        rw [hcut, hrest] at hlt
        exact Nat.lt_irrefl _ hlt
      rw [Css.scopeComplex, dif_neg (by simp [hc]), hcut, if_neg hne]

theorem scopeBetween_place (front piece back : List Char) :
    scopeBetween scope (front ++ piece ++ back) (size front) (size (front ++ piece)) =
      .ok (if piece = [] then [] else Css.scopeCompound scope piece) := by
  unfold scopeBetween
  by_cases hpiece : piece = []
  · rw [hpiece, List.append_nil, if_neg (Nat.lt_irrefl _), if_pos rfl]
    rfl
  · have hpos : 0 < size piece := Nat.pos_of_ne_zero (mt eq_nil_of_size hpiece)
    have hslice := slice_place front piece back
    have hlt : size front < size (front ++ piece) := by
      rw [size_append]
      omega
    rw [if_pos hlt, hslice, if_neg hpiece]
    exact scopeCompound_eq scope piece

theorem complexFrom_end (front piece : List Char) (depth : Nat) :
    complexFrom scope (front ++ piece) depth (size front) (size (front ++ piece)) =
      .ok (if piece = [] then [] else Css.scopeCompound scope piece) := by
  have hcompound := scopeBetween_place scope front piece []
  rw [List.append_nil] at hcompound
  rw [complexFrom, dif_neg (not_lt_size _), hcompound]

/-- At a combinator the compound selector in front of it is scoped, and the selector goes on behind
all the combinators that stand there. -/
theorem complexFrom_combinator {signs : List Char} (hc : isCombinator c = true)
    (hsigns : (c :: rest).takeWhile isCombinator = signs) {after : List Char}
    (hafter : (c :: rest).dropWhile isCombinator = after) (front piece : List Char)
    (hrest : complexFrom scope (front ++ piece ++ signs ++ after) 0 (size (front ++ piece ++ signs))
      (size (front ++ piece ++ signs)) = .ok (Css.scopeComplex scope after)) :
    complexFrom scope (front ++ piece ++ c :: rest) 0 (size front) (size (front ++ piece)) =
      .ok ((if piece = [] then [] else Css.scopeCompound scope piece) ++ signs ++
        Css.scopeComplex scope after) := by
  have hascii := testsAscii_combinator.isAscii hc
  have hquote : isQuote c = false := by
    rw [← Bool.not_eq_true]
    intro hquote
    simp only [isQuote, Bool.or_eq_true, beq_iff_eq] at hquote
    rcases hquote with rfl | rfl <;> cases hc
  have htext : c :: rest = signs ++ after := by
    rw [← hsigns, ← hafter, List.takeWhile_append_dropWhile]
  have hget : (bytes (front ++ piece ++ c :: rest))[size (front ++ piece)]? = some (byte c) :=
    getElem?_ascii hascii
  obtain ⟨hi, hb⟩ := List.getElem?_eq_some_iff.1 hget
  have hsign : (0 == 0 && isCombinatorByte (byte c)) = true := by
    rw [isCombinatorByte_byte hascii, hc]
    rfl
  have hbehind := runEnd_place testsAscii_combinator (front ++ piece) (c :: rest)
  rw [hsigns] at hbehind
  have hslice := slice_place (front ++ piece) signs after
  rw [List.append_assoc, ← htext] at hslice hrest
  rw [complexFrom, dif_pos hi, hb, isQuoteByte_byte hascii, hquote, if_neg Bool.false_ne_true,
    dif_pos hsign, hbehind]
  refine bind_eq_ok_iff.2 ⟨_, scopeBetween_place scope front piece (c :: rest), ?_⟩
  exact bind_eq_ok_iff.2 ⟨_, hslice, bind_eq_ok_iff.2 ⟨_, hrest, rfl⟩⟩

theorem complexFrom_place (front back : List Char) :
    complexFrom scope (front ++ back) 0 (size front) (size front) =
      .ok (Css.scopeComplex scope back) := by
  induction hlen : back.length using Nat.strongRecOn generalizing front back with
  | ind n ih =>
    rcases (follows_complexFrom scope (front ++ back) (size front)).cut rfl 0 with
      ⟨hcut, depth, hend⟩ | ⟨piece, c, rest, depth, hcut, rfl, hstops, hplace⟩
    · rw [hend, complexFrom_end, scopeComplex_cut scope hcut, Css.scopeComplex, List.append_nil]
    · simp only [compoundScanner, Bool.and_eq_true, beq_iff_eq] at hstops
      obtain ⟨rfl, hc⟩ := hstops
      have hlt : ((c :: rest).dropWhile isCombinator).length < n := by
        have hle := (List.dropWhile_sublist isCombinator (l := rest)).length_le
        rw [List.dropWhile_cons_of_pos hc, ← hlen, List.length_append, List.length_cons]
        omega
      have hsigns := scopeComplex_signs scope ((c :: rest).takeWhile isCombinator)
        ((c :: rest).dropWhile isCombinator) fun c => List.mem_takeWhile_imp
      rw [List.takeWhile_append_dropWhile] at hsigns
      rw [hplace, ← List.append_assoc, complexFrom_combinator scope hc rfl rfl front piece
        (ih _ hlt _ _ rfl), scopeComplex_cut scope hcut, hsigns, List.append_assoc]

end Complex

/-! ## Lists of selectors -/

theorem scopeListItem_eq (scope : Scope) (item : List Char) :
    scopeListItem scope item = .ok (Css.scopeListItem scope item) := by
  unfold scopeListItem Css.scopeListItem
  by_cases hblank : trimChars item = []
  · rw [if_pos hblank, if_pos hblank]
    rfl
  · have hstart := less_place (blankStart item) (trimStart item)
    have hlead := slice_front (blankStart item) (trimStart item)
    rw [blankStart_append_trimStart] at hstart hlead
    have htrail := sliceFrom_place (trimEnd item) (blankEnd item)
    rw [trimEnd_append_blankEnd] at htrail
    have hitem := complexFrom_place scope [] (trimChars item)
    rw [if_neg hblank, if_neg hblank]
    exact bind_eq_ok_iff.2 ⟨_, hstart, bind_eq_ok_iff.2 ⟨_, hlead,
      bind_eq_ok_iff.2 ⟨_, htrail, bind_eq_ok_iff.2 ⟨_, hitem, rfl⟩⟩⟩⟩

theorem mapM_scopeListItem (scope : Scope) (items : List (List Char)) :
    items.mapM (scopeListItem scope) = .ok (items.map (Css.scopeListItem scope)) := by
  induction items with
  | nil => rfl
  | cons item items ih =>
    rw [List.mapM_cons]
    exact bind_eq_ok_iff.2 ⟨_, scopeListItem_eq scope item, bind_eq_ok_iff.2 ⟨_, ih, rfl⟩⟩

theorem scopeSelectors_eq (scope : Scope) (list : List Char) :
    scopeSelectors scope list = .ok (Css.scopeSelectors scope list) := by
  have hitems : splitTop (byte ',') list = .ok (Css.splitTop ',' list) :=
    splitTop_eq (by decide) (by decide) list
  exact bind_eq_ok_iff.2 ⟨_, hitems, bind_eq_ok_iff.2 ⟨_, mapM_scopeListItem scope _, rfl⟩⟩

/-! ## Rules -/

theorem isConditional_eq (head : List Char) :
    isConditional head = .ok (Css.isConditional head) := by
  have hname := slice_front (head.takeWhile fun c => !isBlank c && c != '(')
    (head.dropWhile fun c => !isBlank c && c != '(')
  rw [List.takeWhile_append_dropWhile] at hname
  exact bind_eq_ok_iff.2 ⟨_, hname, rfl⟩

/-- The text in front of a block is scoped unless it is an at-rule. -/
theorem scopePrelude_eq (scope : Scope) (prelude : List Char) {lead front : List Char}
    (h : leadingTrivia prelude = (lead, front)) :
    scopePrelude scope prelude =
      .ok (lead ++ (if (trimEnd front).head? == some '@' then trimEnd front
          else Css.scopeSelectors scope (trimEnd front)) ++ blankEnd front,
        (trimEnd front).head? == some '@' && Css.isConditional (trimEnd front)) := by
  have htrivia := triviaEnd_place [] prelude
  have hprelude := leadingTrivia_append prelude
  rw [h] at htrivia hprelude
  have hlead : cutAt prelude (triviaEnd (bytes prelude) 0) = .ok (lead, front) :=
    cutAt_eq_ok_iff.2 ⟨hprelude.symm, htrivia⟩
  have htrail := sliceFrom_place (trimEnd front) (blankEnd front)
  rw [trimEnd_append_blankEnd] at htrail
  refine bind_eq_ok_iff.2 ⟨_, hlead, bind_eq_ok_iff.2 ⟨_, htrail, ?_⟩⟩
  by_cases hat : ((trimEnd front).head? == some '@') = true
  · rw [if_pos hat, if_pos hat, hat]
    exact bind_eq_ok_iff.2 ⟨_, isConditional_eq _, rfl⟩
  · rw [if_neg hat, if_neg hat, Bool.eq_false_iff.2 hat]
    exact bind_eq_ok_iff.2 ⟨_, scopeSelectors_eq scope _, rfl⟩

section Rules

variable (scope : Scope) {front text body inner rest close : List Char}

theorem rulesFrom_end (hcut : cut statementScanner 0 text = (text, [])) :
    rulesFrom scope (front ++ text) (size front) = .ok text := by
  have hend := preludeEnd?_place front text
  rw [hcut] at hend
  rw [rulesFrom]
  split
  · split
    · exact sliceFrom_place front text
    · rename_i heq
      cases hend.symm.trans heq
  · rename_i hpos
    rw [size_append] at hpos
    obtain rfl := eq_nil_of_size (show size text = 0 by omega)
    rfl

theorem rulesFrom_line {d : Char} (hascii : d.toNat < 0x80) (hd : d ≠ '{')
    (hcut : cut statementScanner 0 (text ++ d :: rest) = (text, d :: rest)) {more : List Char}
    (hmore : rulesFrom scope (front ++ text ++ d :: rest) (size (front ++ text ++ [d])) =
      .ok more) :
    rulesFrom scope (front ++ text ++ d :: rest) (size front) = .ok (text ++ d :: more) := by
  have hend := preludeEnd?_place front (text ++ d :: rest)
  rw [hcut, ← List.append_assoc] at hend
  have hpos : size front < size (front ++ text ++ d :: rest) :=
    Nat.lt_of_le_of_lt (size_le front text) (lt_size (front ++ text) d rest)
  have hother : (byte d != byte '{') = true := by
    rw [bne_iff_ne]
    exact mt (byte_eq_iff hascii (by decide)).1 hd
  have hslice := slice_place front (text ++ [d]) rest
  rw [← List.append_assoc, ← List.append_cons, size_ascii hascii] at hslice
  rw [size_ascii hascii] at hmore
  rw [rulesFrom, if_pos hpos]
  split
  · rename_i heq
    cases hend.symm.trans heq
  · rename_i place sign heq
    obtain ⟨rfl, rfl⟩ := Prod.mk.inj (Option.some.inj (hend.symm.trans heq))
    rw [if_pos hother]
    refine bind_eq_ok_iff.2 ⟨_, hslice, bind_eq_ok_iff.2 ⟨_, hmore, ?_⟩⟩
    rw [List.append_assoc]
    rfl

theorem close_cases (hblock : cut blockScanner 0 inner = (body, close)) :
    close = [] ∨ ∃ rest, close = '}' :: rest := by
  rcases rest_of_cut hblock with hnil | ⟨d, c, rest, hcons, hstops⟩
  · exact .inl hnil
  · simp only [blockScanner, Bool.and_eq_true, beq_iff_eq] at hstops
    obtain ⟨-, rfl⟩ := hstops
    exact .inr ⟨rest, hcons⟩

theorem brace_place (front : List Char) (hblock : cut blockScanner 0 inner = (body, close)) :
    (if size (front ++ '{' :: body) < size (front ++ '{' :: inner) then ['}'] else []) =
      close.take 1 := by
  rw [← append_of_cut hblock, ← List.cons_append, ← List.append_assoc]
  rcases close_cases hblock with rfl | ⟨rest, rfl⟩
  · rw [List.append_nil]
    exact if_neg (Nat.lt_irrefl _)
  · exact if_pos (lt_size _ '}' rest)

theorem rulesFrom_block
    (hcut : cut statementScanner 0 (text ++ '{' :: inner) = (text, '{' :: inner))
    (hblock : cut blockScanner 0 inner = (body, close)) {head scopedBody more : List Char}
    {holdsRules : Bool} (hhead : scopePrelude scope text = .ok (head, holdsRules))
    (hbody : rulesFrom scope body 0 = .ok scopedBody)
    (hmore : rulesFrom scope (front ++ text ++ '{' :: inner)
      (size (front ++ text ++ '{' :: body) + 1) = .ok more) :
    rulesFrom scope (front ++ text ++ '{' :: inner) (size front) =
      .ok (head ++ '{' :: (if holdsRules then scopedBody else body) ++ close.take 1 ++ more) := by
  have hend := preludeEnd?_place front (text ++ '{' :: inner)
  rw [hcut, ← List.append_assoc] at hend
  have hpos : size front < size (front ++ text ++ '{' :: inner) :=
    Nat.lt_of_le_of_lt (size_le front text) (lt_size (front ++ text) '{' inner)
  have hclose := blockEnd_place (front ++ text) inner
  rw [hblock] at hclose
  have hprelude := slice_place front text ('{' :: inner)
  have hslice := slice_body (front ++ text) inner
  rw [hblock] at hslice
  rw [rulesFrom, if_pos hpos]
  split
  · rename_i heq
    cases hend.symm.trans heq
  · rename_i place sign heq
    obtain ⟨rfl, rfl⟩ := Prod.mk.inj (Option.some.inj (hend.symm.trans heq))
    rw [if_neg (by simp)]
    refine bind_eq_ok_iff.2 ⟨_, hprelude, bind_eq_ok_iff.2 ⟨_, hclose, ?_⟩⟩
    split
    · rename_i heq
      cases hslice.symm.trans heq
    · rename_i body' heq
      obtain rfl := Except.ok.inj (hslice.symm.trans heq)
      have hinnerBody : (if holdsRules then rulesFrom scope body 0 else pure body) =
          .ok (if holdsRules then scopedBody else body) := by
        rw [hbody]
        cases holdsRules <;> rfl
      refine bind_eq_ok_iff.2 ⟨_, hhead, bind_eq_ok_iff.2 ⟨_, hinnerBody,
        bind_eq_ok_iff.2 ⟨_, hmore, ?_⟩⟩⟩
      rw [brace_place _ hblock]
      rfl

theorem rulesFrom_behind (front : List Char) (hblock : cut blockScanner 0 inner = (body, close))
    (hrest : ∀ rest, close = '}' :: rest → ∀ front,
      rulesFrom scope (front ++ rest) (size front) = .ok (scopeRules scope rest)) :
    rulesFrom scope (front ++ '{' :: inner) (size (front ++ '{' :: body) + 1) =
      .ok (scopeRules scope (close.drop 1)) := by
  rw [← append_of_cut hblock]
  rcases close_cases hblock with rfl | ⟨rest, rfl⟩
  · rw [List.append_nil, rulesFrom, if_neg (by omega), List.drop_nil,
      scopeRules_end scope (by rw [cut])]
    rfl
  · have hmore := hrest rest rfl (front ++ '{' :: body ++ ['}'])
    rw [size_ascii (by decide), ← List.append_cons, List.append_assoc] at hmore
    exact hmore

/-- The rules are scoped from any place on. -/
theorem rulesFrom_place (front back : List Char) :
    rulesFrom scope (front ++ back) (size front) = .ok (scopeRules scope back) := by
  induction hlen : back.length using Nat.strongRecOn generalizing front back with
  | ind n ih =>
    rcases hcut : cut statementScanner 0 back with ⟨text, rest⟩
    obtain rfl := append_of_cut hcut
    rcases rest_of_cut hcut with rfl | ⟨_, d, inner, rfl, hstops⟩
    · rw [List.append_nil] at hcut ⊢
      rw [rulesFrom_end scope hcut, scopeRules_end scope hcut]
    · have hinner : inner.length < n := by
        rw [← hlen, List.length_append, List.length_cons]
        omega
      rw [← List.append_assoc]
      by_cases hd : d = '{'
      · subst hd
        rcases hblock : cut blockScanner 0 inner with ⟨body, close⟩
        have hlength : body.length + close.length = inner.length := by
          rw [← List.length_append, append_of_cut hblock]
        have hbody := ih body.length (by omega) [] body rfl
        have hmore := rulesFrom_behind scope (front ++ text) hblock
          fun rest hclose front => ih rest.length (by
            rw [hclose, List.length_cons] at hlength
            omega) front rest rfl
        rw [rulesFrom_block scope hcut hblock (scopePrelude_eq scope text rfl) hbody hmore,
          scopeRules_block scope hcut hblock rfl]
      · have hascii : d.toNat < 0x80 := by
          simp only [statementScanner, Bool.or_eq_true, beq_iff_eq] at hstops
          rcases hstops with (rfl | rfl) | rfl <;> decide
        have hmore := ih inner.length hinner (front ++ text ++ [d]) inner rfl
        rw [← List.append_cons] at hmore
        rw [rulesFrom_line scope hascii hd hcut hmore, scopeRules_line scope hd hcut]

end Rules

/-- **Scoping by offsets has no fault**, for any texts: every offset at which a text is cut lies on
a character boundary of it, in order, and no count falls below zero. The result is that of scoping
character by character. -/
theorem scopeCss_has_no_fault (css element host : String) :
    scopeCss css element host = .ok (Css.scopeCss css element host) := by
  have hrules := rulesFrom_place ⟨element.toList, host.toList⟩ [] css.toList
  exact bind_eq_ok_iff.2 ⟨_, hrules, rfl⟩

end ComponentBundle.Css.Offset
