import ComponentBundle.Proofs.Css.Loop

/-!
# Places in a style sheet

The scanners over bytes come to the places where the scanners over characters cut a text. They stop
at ASCII signs only, so what they read at a byte of any other character does not matter.

* `preludeEnd?_place`, `blockEnd_place` : statements and blocks;
* `runEnd_place`, `triviaEnd_place` : blanks, combinators and trivia;
* `slice_place`, `sliceFrom_place` : slices between places are those of the characters;
* `exists_place` : where a byte is that of an ASCII sign, there is a place.
-/

namespace ComponentBundle.Css.Offset
open Text

/-! ## Classes of bytes -/

section Classes

variable {c d : Char} {b : UInt8}

theorem beq_byte (hc : c.toNat < 0x80) (hd : d.toNat < 0x80) : (byte c == byte d) = (c == d) := by
  rw [Bool.eq_iff_iff, beq_iff_eq, beq_iff_eq, byte_eq_iff hc hd]

theorem beq_high (h : 0x80 ≤ b.toNat) (hd : d.toNat < 0x80) : (b == byte d) = false := by
  rw [beq_eq_false_iff_ne]
  rintro rfl
  rw [toNat_byte hd] at h
  omega

theorem isBlankByte_byte (hc : c.toNat < 0x80) : isBlankByte (byte c) = isAsciiBlank c := by
  simp (disch := first | exact hc | decide) only [isBlankByte, isAsciiBlank, beq_byte]

theorem isQuoteByte_byte (hc : c.toNat < 0x80) : isQuoteByte (byte c) = isQuote c := by
  simp (disch := first | exact hc | decide) only [isQuoteByte, isQuote, beq_byte]

theorem isCombinatorByte_byte (hc : c.toNat < 0x80) :
    isCombinatorByte (byte c) = isCombinator c := by
  simp (disch := first | exact hc | decide) only [isCombinatorByte, isCombinator,
    isBlankByte_byte hc, beq_byte]

theorem weighByte_byte (hc : c.toNat < 0x80) (depth : Nat) :
    weighByte (byte c) depth = weighBrackets c depth := by
  simp (disch := first | exact hc | decide) only [weighByte, weighBrackets, beq_byte]

theorem isQuoteByte_quote (h : isQuote c = true) : isQuoteByte (byte c) = true :=
  (isQuoteByte_byte (isAscii_of_isQuote h).1).trans h

section High

variable (h : 0x80 ≤ b.toNat)

include h

theorem isBlankByte_high : isBlankByte b = false := by
  simp (disch := first | exact h | decide) only [isBlankByte, beq_high, Bool.or_false]

theorem isQuoteByte_high : isQuoteByte b = false := by
  simp (disch := first | exact h | decide) only [isQuoteByte, beq_high, Bool.or_false]

theorem isCombinatorByte_high : isCombinatorByte b = false := by
  simp (disch := first | exact h | decide) only [isCombinatorByte, isBlankByte_high h, beq_high,
    Bool.or_false]

theorem weighByte_high (depth : Nat) : weighByte b depth = depth := by
  simp (disch := first | exact h | decide) [weighByte, beq_high]

theorem ne_byte_of_high (hd : d.toNat < 0x80) : b ≠ byte d :=
  beq_eq_false_iff_ne.1 (beq_high h hd)

end High

theorem opensComment_of_ne {bs : List UInt8} {i : Nat} (hget : bs[i]? = some b)
    (hne : b ≠ byte '/') : opensComment bs i = false := by
  rw [opensComment, hget, Bool.and_eq_false_iff, beq_eq_false_iff_ne]
  exact .inl fun heq => hne (Option.some.inj heq)

theorem isAsciiBlank_high (h : 0x80 ≤ c.toNat) : isAsciiBlank c = false := by
  rw [← Bool.not_eq_true]
  intro hblank
  simp only [isAsciiBlank, Bool.or_eq_true, beq_iff_eq] at hblank
  rcases hblank with (((rfl | rfl) | rfl) | rfl) | rfl <;> exact absurd h (by decide)

theorem isCombinator_high (h : 0x80 ≤ c.toNat) : isCombinator c = false := by
  rw [← Bool.not_eq_true]
  intro hsign
  simp only [isCombinator, isAsciiBlank_high h, Bool.or_eq_true, beq_iff_eq] at hsign
  rcases hsign with ((hfalse | rfl) | rfl) | rfl
  · cases hfalse
  all_goals exact absurd h (by decide)

theorem weighBrackets_high (h : 0x80 ≤ c.toNat) (depth : Nat) :
    weighBrackets c depth = depth := by
  unfold weighBrackets
  have hne : ∀ d : Char, d.toNat < 0x80 → (c == d) = false := by
    intro d hd
    rw [beq_eq_false_iff_ne]
    rintro rfl
    omega
  simp (disch := decide) [hne]

end Classes

/-! ## Places -/

theorem slice_place (front middle back : List Char) :
    slice (front ++ middle ++ back) (size front) (size (front ++ middle)) = .ok middle :=
  slice_eq_ok_iff.2 ⟨front, back, rfl, rfl, rfl⟩

theorem sliceFrom_place (front back : List Char) :
    sliceFrom (front ++ back) (size front) = .ok back :=
  slice_eq_ok_iff.2 ⟨front, [], (List.append_nil _).symm, rfl, rfl⟩

theorem slice_front (front back : List Char) :
    slice (front ++ back) 0 (size front) = .ok front :=
  slice_place [] front back

theorem less_place (front back : List Char) :
    less (size (front ++ back)) (size back) = .ok (size front) := by
  rw [less, size_append, if_pos (Nat.le_add_left _ _), Nat.add_sub_cancel_right]

theorem exists_place {s : List Char} {d : Char} {i : Nat} (hd : d.toNat < 0x80)
    (h : (bytes s)[i]? = some (byte d)) :
    ∃ front back, s = front ++ d :: back ∧ i = size front := by
  induction s generalizing i with
  | nil => simp [bytes] at h
  | cons c s ih =>
    rw [bytes_cons] at h
    rcases Nat.lt_or_ge i (String.utf8EncodeChar c).length with hlt | hge
    · rw [List.getElem?_append_left hlt] at h
      have hmem : byte d ∈ String.utf8EncodeChar c := List.mem_of_getElem? h
      have hcd : c = d := by
        by_contra hne
        exact ne_byte_of_mem hd hne hmem rfl
      subst hcd
      rw [utf8EncodeChar_ascii hd, List.length_singleton] at hlt
      exact ⟨[], s, rfl, by show i = 0; omega⟩
    · rw [List.getElem?_append_right hge] at h
      obtain ⟨front, back, rfl, hi⟩ := ih h
      refine ⟨c :: front, back, rfl, ?_⟩
      rw [size_cons, ← String.length_utf8EncodeChar, ← hi]
      omega

/-! ## Statements -/

theorem opensComment_quote {bs : List UInt8} {i : Nat} {quote : Char}
    (hquote : isQuote quote = true) (hget : bs[i]? = some (byte quote)) :
    opensComment bs i = false := by
  refine opensComment_of_ne hget ?_
  rw [Ne, byte_eq_iff (isAscii_of_isQuote hquote).1 (by decide)]
  rintro rfl
  cases hquote

theorem follows_preludeEnd? (text : List Char) :
    Follows statementScanner text fun _ i => preludeEnd? (bytes text) i := by
  constructor
  case high =>
    intro depth i b hget hhigh
    have hcomment := opensComment_of_ne hget (ne_byte_of_high hhigh (by decide))
    obtain ⟨hi, hb⟩ := List.getElem?_eq_some_iff.1 hget
    rw [preludeEnd?, dif_pos hi, hcomment, hb, isQuoteByte_high hhigh, beq_high hhigh (by decide),
      beq_high hhigh (by decide), beq_high hhigh (by decide)]
    rfl
  case comment =>
    intro _ depth i hcomment
    rw [preludeEnd?, dif_pos (lt_of_opensComment hcomment), if_pos hcomment]
  case string =>
    intro _ depth i hi quote hquote hb
    have hget : (bytes text)[i]? = some (byte quote) := List.getElem?_eq_some_iff.2 ⟨hi, hb⟩
    rw [preludeEnd?, dif_pos hi, opensComment_quote hquote hget, if_neg Bool.false_ne_true,
      if_pos (hb ▸ isQuoteByte_quote hquote)]
  case sign =>
    intro depth i c hc hget hstops hcomment hstring
    have hquote : isQuoteByte (byte c) = false := (isQuoteByte_byte hc).trans (hstring rfl)
    have hother : (byte c == byte '{' || byte c == byte ';' || byte c == byte '}') = false := by
      rwa [beq_byte hc (by decide), beq_byte hc (by decide), beq_byte hc (by decide)]
    obtain ⟨hi, hb⟩ := List.getElem?_eq_some_iff.1 hget
    rw [preludeEnd?, dif_pos hi, hcomment rfl, hb, hquote, hother]
    rfl
  case weight => exact fun _ _ _ => rfl

theorem not_lt_size (s : List Char) : ¬ size s < (bytes s).length := Nat.lt_irrefl _

theorem preludeEnd?_place (front back : List Char) :
    preludeEnd? (bytes (front ++ back)) (size front) =
      (cut statementScanner 0 back).2.head?.map fun c =>
        (size (front ++ (cut statementScanner 0 back).1), byte c) := by
  rcases (follows_preludeEnd? (front ++ back)).cut rfl 0 with
    ⟨hcut, d, hend⟩ | ⟨piece, c, rest, d, hcut, rfl, hstops, hplace⟩
  · rw [hcut, hend, preludeEnd?, dif_neg (not_lt_size _)]
    rfl
  · have hc : c.toNat < 0x80 ∧ c ≠ '/' ∧ isQuote c = false := by
      simp only [statementScanner, Bool.or_eq_true, beq_iff_eq] at hstops
      rcases hstops with (rfl | rfl) | rfl <;> decide
    obtain ⟨hascii, hslash, hquote⟩ := hc
    have hget : (bytes (front ++ piece ++ c :: rest))[size (front ++ piece)]? = some (byte c) :=
      getElem?_ascii hascii
    have hcomment := opensComment_of_ne hget (mt (byte_eq_iff hascii (by decide)).1 hslash)
    have hfound : (byte c == byte '{' || byte c == byte ';' || byte c == byte '}') = true := by
      rwa [beq_byte hascii (by decide), beq_byte hascii (by decide), beq_byte hascii (by decide)]
    obtain ⟨hi, hb⟩ := List.getElem?_eq_some_iff.1 hget
    rw [hcut, hplace, ← List.append_assoc, preludeEnd?, dif_pos hi, hcomment, hb,
      isQuoteByte_byte hascii, hquote, hfound]
    rfl

/-! ## Blocks -/

theorem follows_blockEndFrom (text : List Char) :
    Follows blockScanner text fun depth i => blockEndFrom (bytes text) (depth + 1) i := by
  constructor
  case high =>
    intro depth i b hget hhigh
    have hcomment := opensComment_of_ne hget (ne_byte_of_high hhigh (by decide))
    obtain ⟨hi, hb⟩ := List.getElem?_eq_some_iff.1 hget
    rw [blockEndFrom, dif_pos hi, hcomment, hb, isQuoteByte_high hhigh, beq_high hhigh (by decide),
      beq_high hhigh (by decide)]
    rfl
  case comment =>
    intro _ depth i hcomment
    rw [blockEndFrom, dif_pos (lt_of_opensComment hcomment), if_pos hcomment]
    rfl
  case string =>
    intro _ depth i hi quote hquote hb
    have hget : (bytes text)[i]? = some (byte quote) := List.getElem?_eq_some_iff.2 ⟨hi, hb⟩
    have hweight : blockScanner.weigh quote depth = depth := by
      unfold isQuote at hquote
      simp only [Bool.or_eq_true, beq_iff_eq] at hquote
      rcases hquote with rfl | rfl <;> rfl
    rw [blockEndFrom, dif_pos hi, opensComment_quote hquote hget, if_neg Bool.false_ne_true,
      if_pos (hb ▸ isQuoteByte_quote hquote), hweight]
  case sign =>
    intro depth i c hc hget hstops hcomment hstring
    have hquote : isQuoteByte (byte c) = false := (isQuoteByte_byte hc).trans (hstring rfl)
    obtain ⟨hi, hb⟩ := List.getElem?_eq_some_iff.1 hget
    rw [blockEndFrom, dif_pos hi, hcomment rfl, hb, hquote, beq_byte hc (by decide),
      beq_byte hc (by decide)]
    by_cases hopen : c = '{'
    · subst hopen
      rfl
    · by_cases hclose : c = '}'
      · subst hclose
        -- the scanner stops at the brace of the block itself, so this is one inside
        cases depth with
        | zero => cases hstops
        | succ depth => rfl
      · have hweight : blockScanner.weigh c depth = depth := by simp [blockScanner, hopen, hclose]
        rw [hweight]
        simp [hopen, hclose]
  case weight =>
    intro c depth hc
    have hopen : c ≠ '{' := by
      rintro rfl
      exact absurd hc (by decide)
    have hclose : c ≠ '}' := by
      rintro rfl
      exact absurd hc (by decide)
    simp [blockScanner, hopen, hclose]

theorem blockEndFrom_place (depth : Nat) (front back : List Char) :
    blockEndFrom (bytes (front ++ back)) (depth + 1) (size front) =
      .ok (size (front ++ (cut blockScanner depth back).1)) := by
  rcases (follows_blockEndFrom (front ++ back)).cut rfl depth with
    ⟨hcut, d, hend⟩ | ⟨piece, c, rest, d, hcut, rfl, hstops, hplace⟩
  · rw [hcut, hend, blockEndFrom, dif_neg (not_lt_size _)]
    rfl
  · simp only [blockScanner, Bool.and_eq_true, beq_iff_eq] at hstops
    obtain ⟨rfl, rfl⟩ := hstops
    have hget : (bytes (front ++ piece ++ '}' :: rest))[size (front ++ piece)]? = some (byte '}') :=
      getElem?_ascii (by decide)
    have hcomment := opensComment_of_ne hget (by decide)
    obtain ⟨hi, hb⟩ := List.getElem?_eq_some_iff.1 hget
    rw [hcut, hplace, ← List.append_assoc, blockEndFrom, dif_pos hi, hcomment, hb]
    rfl

theorem blockEnd_place (front back : List Char) :
    blockEnd (bytes (front ++ '{' :: back)) (size front) =
      .ok (size (front ++ '{' :: (cut blockScanner 0 back).1)) := by
  have hget : (bytes (front ++ '{' :: back))[size front]? = some (byte '{') :=
    getElem?_ascii (by decide)
  have hcomment := opensComment_of_ne hget (by decide)
  obtain ⟨hi, hb⟩ := List.getElem?_eq_some_iff.1 hget
  have hplace := blockEndFrom_place 0 (front ++ ['{']) back
  rw [← List.append_cons, ← List.append_cons, size_ascii (by decide)] at hplace
  rw [blockEnd, blockEndFrom, dif_pos hi, hcomment, hb]
  exact hplace

theorem slice_body (front back : List Char) :
    slice (front ++ '{' :: back) (size front + 1)
        (size (front ++ '{' :: (cut blockScanner 0 back).1)) =
      .ok (cut blockScanner 0 back).1 := by
  have hslice :=
    slice_place (front ++ ['{']) (cut blockScanner 0 back).1 (cut blockScanner 0 back).2
  rw [size_ascii (by decide), List.append_assoc, cut_append, ← List.append_cons,
    ← List.append_cons] at hslice
  exact hslice

/-! ## Runs and trivia -/

theorem runEnd_next {bs : List UInt8} {p : UInt8 → Bool} {b : UInt8} {i : Nat}
    (hget : bs[i]? = some b) (hp : p b = true) : runEnd bs p i = runEnd bs p (i + 1) := by
  obtain ⟨hi, rfl⟩ := List.getElem?_eq_some_iff.1 hget
  rw [runEnd, dif_pos hi, if_pos hp]

theorem runEnd_stop {bs : List UInt8} {p : UInt8 → Bool} {b : UInt8} {i : Nat}
    (hget : bs[i]? = some b) (hp : p b = false) : runEnd bs p i = i := by
  obtain ⟨hi, rfl⟩ := List.getElem?_eq_some_iff.1 hget
  rw [runEnd, dif_pos hi, hp]
  rfl

theorem runEnd_size (s : List Char) (p : UInt8 → Bool) : runEnd (bytes s) p (size s) = size s := by
  rw [runEnd, dif_neg (not_lt_size _)]

/-- Whether bytes are tested as characters are, none of which is other than ASCII. -/
structure TestsAscii (p : UInt8 → Bool) (q : Char → Bool) : Prop where
  ascii : ∀ c : Char, c.toNat < 0x80 → p (byte c) = q c
  high : ∀ b : UInt8, 0x80 ≤ b.toNat → p b = false
  other : ∀ c : Char, 0x80 ≤ c.toNat → q c = false

theorem testsAscii_blank : TestsAscii isBlankByte isAsciiBlank :=
  ⟨fun _ => isBlankByte_byte, fun _ => isBlankByte_high, fun _ => isAsciiBlank_high⟩

theorem testsAscii_combinator : TestsAscii isCombinatorByte isCombinator :=
  ⟨fun _ => isCombinatorByte_byte, fun _ => isCombinatorByte_high, fun _ => isCombinator_high⟩

theorem TestsAscii.isAscii {p : UInt8 → Bool} {q : Char → Bool} {c : Char} (h : TestsAscii p q)
    (hq : q c = true) : c.toNat < 0x80 := by
  by_contra hhigh
  rw [h.other c (Nat.le_of_not_lt hhigh)] at hq
  cases hq

section Runs

variable {p : UInt8 → Bool} {q : Char → Bool} {front back : List Char} {c : Char}

theorem runEnd_of_sign (h : TestsAscii p q) (hq : q c = true) :
    runEnd (bytes (front ++ c :: back)) p (size front) =
      runEnd (bytes (front ++ c :: back)) p (size (front ++ [c])) := by
  have hc := h.isAscii hq
  rw [runEnd_next (getElem?_ascii hc) ((h.ascii c hc).trans hq), size_ascii hc]

theorem runEnd_of_other (h : TestsAscii p q) (hq : q c = false) :
    runEnd (bytes (front ++ c :: back)) p (size front) = size front := by
  rcases Nat.lt_or_ge c.toNat 0x80 with hc | hc
  · exact runEnd_stop (getElem?_ascii hc) ((h.ascii c hc).trans hq)
  · obtain ⟨b, hb, hget⟩ := mem_of_between back (Nat.le_refl _) (lt_size front c [])
    exact runEnd_stop hget (h.high b (high_of_mem hc hb))

theorem runEnd_place (h : TestsAscii p q) (front back : List Char) :
    runEnd (bytes (front ++ back)) p (size front) = size (front ++ back.takeWhile q) := by
  induction back generalizing front with
  | nil =>
    rw [List.takeWhile_nil, List.append_nil]
    exact runEnd_size _ _
  | cons c back ih =>
    cases hq : q c with
    | true =>
      rw [runEnd_of_sign h hq, List.append_cons, ih, List.takeWhile_cons_of_pos hq,
        List.append_assoc]
      rfl
    | false =>
      rw [runEnd_of_other h hq, List.takeWhile_cons_of_neg (by simp [hq]), List.append_nil]

end Runs

theorem triviaEnd_congr {bs : List UInt8} {i j : Nat}
    (h : runEnd bs isBlankByte i = runEnd bs isBlankByte j) : triviaEnd bs i = triviaEnd bs j := by
  rw [triviaEnd.eq_1 bs i, triviaEnd.eq_1 bs j]
  simp only [h]

theorem triviaEnd_place (front back : List Char) :
    triviaEnd (bytes (front ++ back)) (size front) = size (front ++ (leadingTrivia back).1) := by
  have hstop : ∀ {front back : List Char},
      runEnd (bytes (front ++ back)) isBlankByte (size front) = size front →
      (∀ rest, back ≠ '/' :: '*' :: rest) →
      triviaEnd (bytes (front ++ back)) (size front) = size front := by
    intro front back hrun hnone
    rw [triviaEnd, hrun, dif_neg]
    rw [opensComment_place]
    exact fun ⟨rest, heq⟩ => hnone rest heq
  fun_induction leadingTrivia back generalizing front with
  | case1 =>
    rw [List.append_nil]
    have hend := @hstop front [] (by rw [List.append_nil]; exact runEnd_size _ _) (by simp)
    rwa [List.append_nil] at hend
  | case2 c rest htaken taken more =>
    rename_i ih
    have hrest : front ++ c :: rest = front ++ taken.1 ++ taken.2 := by
      rw [List.append_assoc]
      exact congrArg _ (lexeme_append ⟨true, false⟩ c rest).symm
    have hstep : triviaEnd (bytes (front ++ c :: rest)) (size front) =
        triviaEnd (bytes (front ++ c :: rest)) (size (front ++ taken.1)) := by
      rcases Bool.or_eq_true_iff.1 htaken with hblank | hcomment
      · have hlexeme : taken = ([c], rest) := by
          have hc : c ≠ '/' := by
            rintro rfl
            cases hblank
          simp [taken, lexeme, hc]
        rw [hlexeme]
        exact triviaEnd_congr (runEnd_of_sign testsAscii_blank hblank)
      · rw [Bool.and_eq_true, beq_iff_eq, beq_iff_eq] at hcomment
        obtain ⟨rfl, hstar⟩ := hcomment
        obtain ⟨rest, rfl⟩ := List.head?_eq_some_iff.1 hstar
        have hrun : runEnd (bytes (front ++ '/' :: '*' :: rest)) isBlankByte (size front) =
            size front := runEnd_of_other testsAscii_blank (by decide)
        rw [triviaEnd, hrun, dif_pos (opensComment_place.2 ⟨rest, rfl⟩), commentEnd_place]
        rfl
    rw [hstep, hrest, ih, List.append_assoc]
  | case3 c rest htaken =>
    rw [List.append_nil]
    rw [Bool.or_eq_true, not_or, Bool.not_eq_true] at htaken
    refine hstop (runEnd_of_other testsAscii_blank htaken.1) fun rest' heq => ?_
    obtain ⟨rfl, rfl⟩ := List.cons.inj heq
    exact htaken.2 rfl

end ComponentBundle.Css.Offset
