import ComponentBundle.Proofs.Css.Lexer
import Mathlib.Order.Bounds.Basic

/-!
# The scanners and the lexer

The scanners begin anew where a statement begins, and in the body of a block, and they jump over
comments and strings. They still find what a lexer reads as plain text in one pass over the sheet.
So do the scanners over characters, which cut a text at the same places (`preludeEnd?_place`,
`blockEnd_place`).

The signs that are still to come are a set of offsets. A jump leaves no sign behind, so the set is
the same in front of it and behind it, and the first of them behind it is the first of them here.
The brace that ends a block is the first at which the depth and the balance of what is still to come
add up to zero; each brace that is passed moves its weight from the balance to the depth.

* `Passed.statementEnds_eq`, `Passed.blockEnds_eq` : jumps leave no sign behind;
* `preludeEnd?_reads`, `blockEndFrom_reads` : the loops;
* `scanners_read_as_lexer` : the scanners from any plain place on, and the body of a block;
* `Reaches.reads` : every statement that scoping comes to, at any depth, begins in plain text.
-/

namespace ComponentBundle.Css.Offset

/-! ## Signs that are still to come -/

/-- How often a byte is read as plain text between two offsets. -/
def plainCount (bs : List UInt8) (origin : Nat) (b : UInt8) (i j : Nat) : Nat :=
  (List.range' i (j - i)).countP fun k => ReadsPlain bs origin b k

/-- How many blocks more open than close between two offsets. -/
def balance (bs : List UInt8) (origin i j : Nat) : Int :=
  plainCount bs origin (byte '{') i j - plainCount bs origin (byte '}') i j

/-- Where statements end from an offset on. -/
def statementEnds (bs : List UInt8) (origin i : Nat) : Set Nat :=
  {k | i ≤ k ∧ ∃ sign, EndsStatement sign ∧ ReadsPlain bs origin sign k}

/-- The closing braces from an offset on up to which all blocks are closed, if `depth` are open in
front of it. -/
def blockEnds (bs : List UInt8) (origin depth i : Nat) : Set Nat :=
  {k | i ≤ k ∧ ReadsPlain bs origin (byte '}') k ∧ depth + balance bs origin i (k + 1) = 0}

/-- Whether an offset is that of the first brace which closes all blocks, or the end of the bytes if
there is none. -/
def IsBlockEnd (bs : List UInt8) (origin depth i close : Nat) : Prop :=
  blockEnds bs origin depth i = ∅ ∧ close = bs.length ∨ IsLeast (blockEnds bs origin depth i) close

section Signs

variable {bs : List UInt8} {origin depth i j : Nat} {b : UInt8}

theorem statementEnds_of_end (h : bs.length ≤ i) : statementEnds bs origin i = ∅ := by
  apply Set.eq_empty_of_forall_notMem
  rintro k ⟨hk, sign, -, hplain⟩
  have hlt := hplain.lt
  omega

theorem blockEnds_of_end (h : bs.length ≤ i) : blockEnds bs origin depth i = ∅ := by
  apply Set.eq_empty_of_forall_notMem
  rintro k ⟨hk, hplain, -⟩
  have hlt := hplain.lt
  omega

theorem Passed.statementEnds_eq (h : Passed bs origin i j) (hle : i ≤ j) :
    statementEnds bs origin i = statementEnds bs origin j := by
  ext k
  constructor
  · rintro ⟨hk, sign, hsign, hplain⟩
    refine ⟨?_, sign, hsign, hplain⟩
    by_contra hlt
    exact h.quiet k sign hk (by omega) hplain hsign
  · rintro ⟨hk, hplain⟩
    exact ⟨by omega, hplain⟩

theorem plainCount_step (h : i < j) :
    plainCount bs origin b i j =
      plainCount bs origin b (i + 1) j + if ReadsPlain bs origin b i then 1 else 0 := by
  have hlength : j - i = j - (i + 1) + 1 := by omega
  rw [plainCount, plainCount, hlength, List.range'_succ, List.countP_cons]
  simp only [decide_eq_true_eq]

theorem balance_step (h : i < j) :
    balance bs origin i j = balance bs origin (i + 1) j +
      ((if ReadsPlain bs origin (byte '{') i then 1 else 0) -
        if ReadsPlain bs origin (byte '}') i then 1 else 0) := by
  rw [balance, balance, plainCount_step h, plainCount_step h]
  push_cast
  split_ifs <;> omega

theorem blockEnds_step {depth' : Nat}
    (hmove : ∀ j, i < j →
      depth + balance bs origin i j = depth' + balance bs origin (i + 1) j)
    (hhere : i ∉ blockEnds bs origin depth i) :
    blockEnds bs origin depth i = blockEnds bs origin depth' (i + 1) := by
  ext k
  constructor
  · intro h
    have hne : i ≠ k := by
      rintro rfl
      exact hhere h
    obtain ⟨hk, hplain, hcount⟩ := h
    rw [hmove (k + 1) (by omega)] at hcount
    exact ⟨by omega, hplain, hcount⟩
  · rintro ⟨hk, hplain, hcount⟩
    rw [← hmove (k + 1) (by omega)] at hcount
    exact ⟨by omega, hplain, hcount⟩

theorem blockEnds_quiet (hopen : ¬ ReadsPlain bs origin (byte '{') i)
    (hclose : ¬ ReadsPlain bs origin (byte '}') i) :
    blockEnds bs origin depth i = blockEnds bs origin depth (i + 1) := by
  apply blockEnds_step
  · intro j hj
    rw [balance_step hj, if_neg hopen, if_neg hclose]
    omega
  · exact fun h => hclose h.2.1

theorem blockEnds_open (hopen : ReadsPlain bs origin (byte '{') i) :
    blockEnds bs origin depth i = blockEnds bs origin (depth + 1) (i + 1) := by
  have hclose := hopen.not_other (by decide : byte '{' ≠ byte '}')
  apply blockEnds_step
  · intro j hj
    rw [balance_step hj, if_pos hopen, if_neg hclose]
    omega
  · exact fun h => hclose h.2.1

theorem balance_close (hclose : ReadsPlain bs origin (byte '}') i) (h : i < j) :
    balance bs origin i j = balance bs origin (i + 1) j - 1 := by
  have hopen := hclose.not_other (by decide : byte '}' ≠ byte '{')
  rw [balance_step h, if_neg hopen, if_pos hclose]
  omega

theorem balance_self (i : Nat) : balance bs origin i i = 0 := by
  rw [balance, plainCount, plainCount, Nat.sub_self]
  rfl

theorem blockEnds_close (hclose : ReadsPlain bs origin (byte '}') i) (hdepth : depth ≠ 0) :
    blockEnds bs origin (depth + 1) i = blockEnds bs origin depth (i + 1) := by
  apply blockEnds_step
  · intro j hj
    rw [balance_close hclose hj]
    omega
  · rintro ⟨-, -, hcount⟩
    rw [balance_close hclose (Nat.lt_succ_self i), balance_self] at hcount
    omega

theorem isLeast_close (hclose : ReadsPlain bs origin (byte '}') i) :
    IsLeast (blockEnds bs origin 1 i) i := by
  refine ⟨⟨Nat.le_refl i, hclose, ?_⟩, fun k h => h.1⟩
  rw [balance_close hclose (Nat.lt_succ_self i), balance_self]
  rfl

theorem Passed.blockEnds_eq (h : Passed bs origin i j) (hle : i ≤ j) :
    blockEnds bs origin depth i = blockEnds bs origin depth j := by
  refine advance (f := fun k => blockEnds bs origin depth k) hle fun k hk hj => ?_
  apply blockEnds_quiet
  · intro hopen
    exact h.quiet k _ hk hj hopen (.inl rfl)
  · intro hclose
    exact h.quiet k _ hk hj hclose (.inr (.inr rfl))

/-! ## Loops -/

/-- A statement ends at the first sign that the lexer reads as plain text. -/
theorem preludeEnd?_reads (hle : origin ≤ i)
    (hplain : i < bs.length → readingAt bs origin i = .plain) :
    preludeEnd? bs i = none ∧ statementEnds bs origin i = ∅ ∨
      ∃ place sign, preludeEnd? bs i = some (place, sign) ∧ bs[place]? = some sign ∧
        IsLeast (statementEnds bs origin i) place := by
  fun_induction preludeEnd? bs i with
  | case1 i h hcomment ih =>
    have hpassed := passed_comment hle (hplain h) hcomment
    have hlt := lt_commentEnd h
    rw [hpassed.statementEnds_eq (by omega)]
    exact ih (by omega) hpassed.plain
  | case2 i h hcomment hquote ih =>
    have hpassed := passed_string hle (hplain h) h hquote
    have hlt := lt_stringEnd h
    rw [hpassed.statementEnds_eq (by omega)]
    exact ih (by omega) hpassed.plain
  | case3 i h hcomment hquote hsign =>
    have hget : bs[i]? = some bs[i] := List.getElem?_eq_getElem h
    have hends : EndsStatement bs[i] := by
      simpa [EndsStatement, or_assoc] using hsign
    refine .inr ⟨i, bs[i], rfl, hget, ⟨Nat.le_refl i, bs[i], hends, hget, hplain h⟩, ?_⟩
    exact fun k hk => hk.1
  | case4 i h hcomment hquote hsign ih =>
    have hget : bs[i]? = some bs[i] := List.getElem?_eq_getElem h
    have hnext : readingAt bs origin (i + 1) = .plain :=
      readingAt_plain hle ⟨hget, hplain h⟩ (Bool.eq_false_iff.2 hcomment)
        (Bool.eq_false_iff.2 hquote)
    have hpassed : Passed bs origin i (i + 1) := by
      refine Passed.next ?_ (.here fun _ => hnext)
      intro b hb hends
      obtain rfl := Option.some.inj (hb.1.symm.trans hget)
      apply hsign
      simpa [EndsStatement, or_assoc] using hends
    rw [hpassed.statementEnds_eq (Nat.le_succ i)]
    exact ih (by omega) hpassed.plain
  | case5 i h => exact .inl ⟨rfl, statementEnds_of_end (by omega)⟩

theorem depth_ne_zero (hdepth : depth = 0 → bs[i]? = some (byte '{')) (hget : bs[i]? = some b)
    (hne : b ≠ byte '{') : depth ≠ 0 := by
  intro hzero
  exact hne (Option.some.inj (hget.symm.trans (hdepth hzero)))

/-- A block ends at the first brace that the lexer reads as plain text and that closes all the
blocks that are open, or at the end of the bytes. -/
theorem blockEndFrom_reads (hle : origin ≤ i)
    (hplain : i < bs.length → readingAt bs origin i = .plain)
    (hdepth : depth = 0 → bs[i]? = some (byte '{')) :
    ∃ close, blockEndFrom bs depth i = .ok close ∧ IsBlockEnd bs origin depth i close := by
  unfold IsBlockEnd
  fun_induction blockEndFrom bs depth i with
  | case1 depth i h hcomment ih =>
    have hpassed := passed_comment hle (hplain h) hcomment
    have hlt := lt_commentEnd h
    have hslash : bs[i]? = some (byte '/') := (opensComment_iff.1 hcomment).1
    have hopened : depth ≠ 0 := depth_ne_zero hdepth hslash (by decide)
    rw [hpassed.blockEnds_eq (by omega)]
    exact ih (by omega) hpassed.plain fun hzero => absurd hzero hopened
  | case2 depth i h hcomment hquote ih =>
    have hpassed := passed_string hle (hplain h) h hquote
    have hlt := lt_stringEnd h
    have hopened : depth ≠ 0 := by
      apply depth_ne_zero hdepth (List.getElem?_eq_getElem h)
      intro hopen
      rw [hopen] at hquote
      cases hquote
    rw [hpassed.blockEnds_eq (by omega)]
    exact ih (by omega) hpassed.plain fun hzero => absurd hzero hopened
  | case3 depth i h hcomment hquote hopen ih =>
    have hget : bs[i]? = some (byte '{') := List.getElem?_eq_some_iff.2 ⟨h, beq_iff_eq.1 hopen⟩
    have hreads : ReadsPlain bs origin (byte '{') i := ⟨hget, hplain h⟩
    rw [blockEnds_open hreads]
    exact ih (by omega) (fun _ => hreads.behind hle (.inl rfl)) (fun hzero => by omega)
  | case4 depth i h hcomment hquote hopen hclose ih =>
    have hget : bs[i]? = some (byte '}') := List.getElem?_eq_some_iff.2 ⟨h, beq_iff_eq.1 hclose⟩
    have hreads : ReadsPlain bs origin (byte '}') i := ⟨hget, hplain h⟩
    -- a block is open, so its count does not fall below zero
    have hopened : depth ≠ 0 := depth_ne_zero hdepth hget (by decide)
    obtain ⟨depth, rfl⟩ := Nat.exists_eq_succ_of_ne_zero hopened
    have hless : less (depth + 1) 1 = .ok depth := if_pos (by omega)
    rw [hless]
    by_cases hlast : depth = 0
    · subst hlast
      exact ⟨i, rfl, .inr (isLeast_close hreads)⟩
    · obtain ⟨close, hend, hfirst⟩ := ih depth (by omega)
        (fun _ => hreads.behind hle (.inr (.inr rfl))) (fun hzero => absurd hzero hlast)
      refine ⟨close, (if_neg hlast).trans hend, ?_⟩
      rwa [Nat.succ_eq_add_one, blockEnds_close hreads hlast]
  | case5 depth i h hcomment hquote hopen hclose ih =>
    have hget : bs[i]? = some bs[i] := List.getElem?_eq_getElem h
    rw [beq_iff_eq] at hopen hclose
    have hopened : depth ≠ 0 := depth_ne_zero hdepth hget hopen
    have hreads : ReadsPlain bs origin bs[i] i := ⟨hget, hplain h⟩
    have hnext : readingAt bs origin (i + 1) = .plain :=
      readingAt_plain hle hreads (Bool.eq_false_iff.2 hcomment) (Bool.eq_false_iff.2 hquote)
    rw [blockEnds_quiet (hreads.not_other hopen) (hreads.not_other hclose)]
    exact ih (by omega) (fun _ => hnext) fun hzero => absurd hzero hopened
  | case6 depth i h => exact ⟨bs.length, rfl, .inl ⟨blockEnds_of_end (by omega), rfl⟩⟩

theorem blockEnd_reads (hle : origin ≤ i) (hopen : ReadsPlain bs origin (byte '{') i) :
    ∃ close, blockEnd bs i = .ok close ∧ IsBlockEnd bs origin 0 i close :=
  blockEndFrom_reads hle (fun _ => hopen.2) fun _ => hopen.1

end Signs

/-! ## Bodies -/

theorem bytes_slice {s middle : List Char} {i j : Nat} (h : slice s i j = .ok middle) :
    bytes middle = bytesBetween (bytes s) i j := by
  obtain ⟨front, back, rfl, rfl, rfl⟩ := slice_eq_ok_iff.1 h
  have hfront : size (front ++ middle) = (bytes (front ++ middle)).length := rfl
  rw [bytesBetween, bytes_append, hfront, List.take_left, bytes_append]
  exact List.drop_left.symm

theorem exists_body {s : List Char} {start close : Nat}
    (hopen : (bytes s)[start]? = some (byte '{')) (hclose : blockEnd (bytes s) start = .ok close) :
    ∃ front inner, s = front ++ '{' :: inner ∧ start = size front ∧
      slice s (start + 1) close = .ok (cut blockScanner 0 inner).1 := by
  obtain ⟨front, inner, rfl, rfl⟩ := exists_place (by decide) hopen
  obtain rfl := Except.ok.inj (hclose.symm.trans (blockEnd_place front inner))
  exact ⟨front, inner, rfl, rfl, slice_body front inner⟩

section Bodies

variable {bs : List UInt8} {origin start close : Nat}

/-- At the end of a block stands its brace or nothing, so a lexer that stops there has seen no sign
of a comment ahead. -/
theorem IsBlockEnd.bounds (h : IsBlockEnd bs origin 0 start close)
    (hopen : bs[start]? = some (byte '{')) :
    start < close ∧ close ≤ bs.length ∧ bs[close]? ≠ some (byte '*') ∧
      bs[close]? ≠ some (byte '/') := by
  have hlt := (List.getElem?_eq_some_iff.1 hopen).1
  rcases h with ⟨-, rfl⟩ | ⟨⟨hle, hplain, -⟩, -⟩
  · rw [List.getElem?_eq_none (Nat.le_refl _)]
    exact ⟨hlt, Nat.le_refl _, nofun, nofun⟩
  · have hne : start ≠ close := by
      rintro rfl
      exact absurd (hopen.symm.trans hplain.1) (by decide)
    refine ⟨by omega, Nat.le_of_lt hplain.lt, ?_, ?_⟩ <;> rw [hplain.1] <;> decide

theorem readingAt_body (hle : origin ≤ start) (hopen : ReadsPlain bs origin (byte '{') start)
    (hclose : IsBlockEnd bs origin 0 start close) (k : Nat) (hk : start + 1 + k ≤ close) :
    readingAt (bytesBetween bs (start + 1) close) 0 k = readingAt bs origin (start + 1 + k) := by
  obtain ⟨-, hlength, hstar, hslash⟩ := hclose.bounds hopen.1
  exact readingAt_within (by omega) (hopen.behind hle (.inl rfl)) hstar hslash hlength k hk

end Bodies

/-! ## The scanners -/

/-- **The scanners read as the lexer does**, for any bytes and from any offset at which the lexer is
in plain text; it is so at its own start. The scanner of statements finds the first `{`, `;` or `}`
that is read as plain text, if there is one. From a `{` on, the scanner of blocks finds the first
plain `}` at which as many plain braces have closed as opened, or else the end of the bytes. A lexer
that starts between the two reads every byte there in the state in which it is read inside the text,
and what lies there is the body that is handed on when a text is scoped. -/
theorem scanners_read_as_lexer {bs : List UInt8} {origin start : Nat} (hle : origin ≤ start)
    (hplain : readingAt bs origin start = .plain) :
    (preludeEnd? bs start = none ∧ statementEnds bs origin start = ∅ ∨
      ∃ place sign, preludeEnd? bs start = some (place, sign) ∧ bs[place]? = some sign ∧
        IsLeast (statementEnds bs origin start) place) ∧
    (bs[start]? = some (byte '{') → ∃ close, blockEnd bs start = .ok close ∧
      IsBlockEnd bs origin 0 start close ∧
      (∀ k, start + 1 + k ≤ close →
        readingAt (bytesBetween bs (start + 1) close) 0 k = readingAt bs origin (start + 1 + k)) ∧
      ∀ css, bytes css = bs → ∃ front inner, css = front ++ '{' :: inner ∧ start = size front ∧
        slice css (start + 1) close = .ok (cut blockScanner 0 inner).1 ∧
        bytes (cut blockScanner 0 inner).1 = bytesBetween bs (start + 1) close) := by
  refine ⟨preludeEnd?_reads hle fun _ => hplain, fun hopen => ?_⟩
  obtain ⟨close, hend, hclose⟩ := blockEnd_reads hle ⟨hopen, hplain⟩
  refine ⟨close, hend, hclose, readingAt_body hle ⟨hopen, hplain⟩ hclose, ?_⟩
  rintro css rfl
  obtain ⟨front, inner, htext, hstart, hslice⟩ := exists_body hopen hend
  exact ⟨front, inner, htext, hstart, hslice, bytes_slice hslice⟩

/-- The text `/*/{*/p{'}\'}'/*}*/a{}}`: behind a comment with a brace, a block with braces in a
string and in a comment. -/
def awkwardSheet : List UInt8 :=
  bytes "/*/\x7b*/p\x7b'\x7d\\'\x7d'/*\x7d*/a\x7b\x7d\x7d".toList

theorem awkward_block_is_read :
    readingAt awkwardSheet 0 7 = .plain ∧ awkwardSheet[7]? = some (byte '{') ∧
      blockEnd awkwardSheet 7 = .ok 22 := by
  have hplain : readingAt awkwardSheet 0 7 = .plain := by decide +kernel
  have hopen : awkwardSheet[7]? = some (byte '{') := by decide +kernel
  obtain ⟨close, hend, hclose, -⟩ := (scanners_read_as_lexer (Nat.zero_le 7) hplain).2 hopen
  have hmem : 22 ∈ blockEnds awkwardSheet 0 0 7 :=
    ⟨by decide, by decide +kernel, by decide +kernel⟩
  have hnone : ∀ k < 22, ¬ (7 ≤ k ∧ ReadsPlain awkwardSheet 0 (byte '}') k ∧
      ((0 : Nat) : Int) + balance awkwardSheet 0 7 (k + 1) = 0) := by decide +kernel
  have hleast : IsLeast (blockEnds awkwardSheet 0 0 7) 22 := by
    refine ⟨hmem, fun k hk => ?_⟩
    by_contra hlt
    exact hnone k (by omega) hk
  rcases hclose with ⟨hempty, -⟩ | hfound
  · exact absurd hmem (by simp [hempty])
  · rw [hfound.unique hleast] at hend
    exact ⟨hplain, hopen, hend⟩

/-! ## Nested bodies -/

/-- The places at which `rulesFrom` is called when a style sheet is scoped, and more: the bodies of
all blocks are entered here. A place is that of a statement in a text, and the text starts at an
offset in the sheet. -/
inductive Reaches (css : List Char) : Nat → List Char → Nat → Prop
  | start : Reaches css 0 css 0
  | line {offset pos place : Nat} {text : List Char} {sign : UInt8} :
    Reaches css offset text pos → preludeEnd? (bytes text) pos = some (place, sign) →
    sign ≠ byte '{' → Reaches css offset text (place + 1)
  | behind {offset pos place close : Nat} {text : List Char} :
    Reaches css offset text pos → preludeEnd? (bytes text) pos = some (place, byte '{') →
    blockEnd (bytes text) place = .ok close → Reaches css offset text (close + 1)
  | inside {offset pos place close : Nat} {text body : List Char} :
    Reaches css offset text pos → preludeEnd? (bytes text) pos = some (place, byte '{') →
    blockEnd (bytes text) place = .ok close → slice text (place + 1) close = .ok body →
    Reaches css (offset + (place + 1)) body 0

section Nested

variable {bs : List UInt8} {origin i place close : Nat} {sign : UInt8}

theorem readsPlain_of_preludeEnd? (hle : origin ≤ i)
    (hplain : i < bs.length → readingAt bs origin i = .plain)
    (h : preludeEnd? bs i = some (place, sign)) :
    origin ≤ place ∧ EndsStatement sign ∧ ReadsPlain bs origin sign place := by
  rcases preludeEnd?_reads hle hplain with ⟨hnone, -⟩ | ⟨found, b, hfound, hget, hleast⟩
  · cases h.symm.trans hnone
  · obtain ⟨rfl, rfl⟩ := Prod.mk.inj (Option.some.inj (h.symm.trans hfound))
    obtain ⟨hi, sign', hsign, hreads⟩ := hleast.1
    obtain rfl := Option.some.inj (hget.symm.trans hreads.1)
    exact ⟨by omega, hsign, hreads⟩

theorem isBlockEnd_of_blockEnd (hle : origin ≤ place)
    (hopen : ReadsPlain bs origin (byte '{') place) (h : blockEnd bs place = .ok close) :
    IsBlockEnd bs origin 0 place close := by
  obtain ⟨found, hend, hclose⟩ := blockEnd_reads hle hopen
  obtain rfl := Except.ok.inj (h.symm.trans hend)
  exact hclose

end Nested

/-- At any depth a text is read alone as it is read inside the whole sheet, and statements
begin where it is plain. -/
theorem Reaches.reads {css text : List Char} {offset pos : Nat} (h : Reaches css offset text pos) :
    (pos < size text → readingAt (bytes text) 0 pos = .plain) ∧
      ∀ k ≤ size text, readingAt (bytes text) 0 k = readingAt (bytes css) 0 (offset + k) := by
  induction h with
  | start => exact ⟨fun _ => rfl, fun k _ => by rw [Nat.zero_add]⟩
  | line _ hend _ ih =>
    obtain ⟨hplain, hsame⟩ := ih
    obtain ⟨hle, hsign, hreads⟩ := readsPlain_of_preludeEnd? (Nat.zero_le _) hplain hend
    exact ⟨fun _ => hreads.behind hle hsign, hsame⟩
  | behind _ hend hblock ih =>
    obtain ⟨hplain, hsame⟩ := ih
    obtain ⟨hle, -, hreads⟩ := readsPlain_of_preludeEnd? (Nat.zero_le _) hplain hend
    refine ⟨fun hlt => ?_, hsame⟩
    rcases isBlockEnd_of_blockEnd hle hreads hblock with ⟨-, rfl⟩ | ⟨⟨-, hclose, -⟩, -⟩
    · -- a block that is cut off has nothing behind it
      exact absurd hlt (Nat.not_lt_of_le (Nat.le_succ _))
    · exact hclose.behind (Nat.zero_le _) (.inr (.inr rfl))
  | @inside offset pos place close text body _ hend hblock hslice ih =>
    obtain ⟨hplain, hsame⟩ := ih
    obtain ⟨hle, -, hreads⟩ := readsPlain_of_preludeEnd? (Nat.zero_le _) hplain hend
    have hclose := isBlockEnd_of_blockEnd hle hreads hblock
    obtain ⟨hlt, hlength, -⟩ := hclose.bounds hreads.1
    have hbody := bytes_slice hslice
    have hsize : size body = close - (place + 1) := by
      rw [size, hbody, bytesBetween, List.length_drop, List.length_take, Nat.min_eq_left hlength]
    refine ⟨fun _ => rfl, fun k hk => ?_⟩
    have hwhole : place + 1 + k ≤ size text := by
      unfold size
      omega
    have hshift : offset + (place + 1) + k = offset + (place + 1 + k) := by omega
    rw [hbody, readingAt_body hle hreads hclose k (by omega), hsame _ hwhole, hshift]

end ComponentBundle.Css.Offset
