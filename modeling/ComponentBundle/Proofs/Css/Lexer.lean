import ComponentBundle.Proofs.Css.Places

/-!
# A lexer for style sheets

A lexer reads a style sheet byte by byte, each byte in the state that the bytes in front of it have
led to. Scanners do not: they jump over a comment or a string. A jump starts at a plain byte and
ends where the lexer is back in plain text, or at the end of the bytes; in between no byte is plain
but the one that the jump starts at, and that is no sign of structure.

* `Reading.next`, `readingAt` : the lexer;
* `passed_comment`, `passed_string` : what a jump leaves behind, and where it leads to;
* `readingAt_within` : a part of the bytes is read alone as it is read inside them.
-/

namespace ComponentBundle.Css.Offset

/-! ## The lexer -/

/-- What a byte is read as. The star that opens a comment and the slash that closes one belong to
the comment; the lexer expects them there. -/
inductive Reading where
  | plain
  /-- The star of `/*`. -/
  | opener
  | comment
  /-- The slash of `*/`. -/
  | closer
  | string (quote : UInt8)
  /-- The byte behind a backslash in a string. -/
  | escape (quote : UInt8)
  deriving DecidableEq

/-- The state behind a byte, of which the lexer sees the next one as well. -/
def Reading.next (b : UInt8) (ahead : Option UInt8) : Reading → Reading
  | .plain =>
    if b = byte '/' ∧ ahead = some (byte '*') then .opener
    else if b = byte '"' ∨ b = byte '\'' then .string b
    else .plain
  | .opener => .comment
  | .comment => if b = byte '*' ∧ ahead = some (byte '/') then .closer else .comment
  | .closer => .plain
  | .string quote =>
    if b = byte '\\' then .escape quote
    else if b = quote then .plain
    else .string quote
  | .escape quote => .string quote

/-- The state in which a lexer that starts at `origin` in plain text reads the byte at an offset. -/
def readingAt (bs : List UInt8) (origin : Nat) : Nat → Reading
  | 0 => .plain
  | i + 1 =>
    if h : origin ≤ i ∧ i < bs.length then (readingAt bs origin i).next bs[i] bs[i + 1]?
    else readingAt bs origin i

/-- Whether a byte stands at an offset and is read as plain text. -/
def ReadsPlain (bs : List UInt8) (origin : Nat) (b : UInt8) (i : Nat) : Prop :=
  bs[i]? = some b ∧ readingAt bs origin i = .plain

instance (bs : List UInt8) (origin : Nat) (b : UInt8) : DecidablePred (ReadsPlain bs origin b) :=
  fun _ => inferInstanceAs (Decidable (_ ∧ _))

/-- The signs that end the text in front of a block or a line. -/
def EndsStatement (b : UInt8) : Prop := b = byte '{' ∨ b = byte ';' ∨ b = byte '}'

section Lexer

variable {bs : List UInt8} {origin i j : Nat} {b : UInt8}

theorem readingAt_succ (hle : origin ≤ i) (hb : bs[i]? = some b) :
    readingAt bs origin (i + 1) = (readingAt bs origin i).next b bs[i + 1]? := by
  obtain ⟨hi, rfl⟩ := List.getElem?_eq_some_iff.1 hb
  rw [readingAt, dif_pos ⟨hle, hi⟩]

theorem ReadsPlain.lt (h : ReadsPlain bs origin b i) : i < bs.length :=
  (List.getElem?_eq_some_iff.1 h.1).1

theorem ReadsPlain.not_other {c : UInt8} (h : ReadsPlain bs origin b i) (hne : b ≠ c) :
    ¬ ReadsPlain bs origin c i :=
  fun hother => hne (Option.some.inj (h.1.symm.trans hother.1))

theorem readingAt_plain (hle : origin ≤ i) (hplain : ReadsPlain bs origin b i)
    (hcomment : opensComment bs i = false) (hquote : isQuoteByte b = false) :
    readingAt bs origin (i + 1) = .plain := by
  obtain ⟨hb, hstate⟩ := hplain
  have hopener : ¬ (b = byte '/' ∧ bs[i + 1]? = some (byte '*')) := by
    rintro ⟨rfl, hstar⟩
    rw [opensComment_iff.2 ⟨hb, hstar⟩] at hcomment
    cases hcomment
  have hstring : ¬ (b = byte '"' ∨ b = byte '\'') := by
    simpa [isQuoteByte] using hquote
  rw [readingAt_succ hle hb, hstate, Reading.next, if_neg hopener, if_neg hstring]

theorem EndsStatement.ne_slash (h : EndsStatement b) : b ≠ byte '/' := by
  rcases h with rfl | rfl | rfl <;> decide

theorem EndsStatement.not_quote (h : EndsStatement b) : isQuoteByte b = false := by
  rcases h with rfl | rfl | rfl <;> decide

theorem ReadsPlain.behind (h : ReadsPlain bs origin b i) (hle : origin ≤ i)
    (hsign : EndsStatement b) : readingAt bs origin (i + 1) = .plain :=
  readingAt_plain hle h (opensComment_of_ne h.1 hsign.ne_slash) hsign.not_quote

/-! ## Jumps -/

/-- What a jump from one offset to another leaves behind: no sign was plain text, and the lexer is
back in plain text unless the bytes are over. -/
structure Passed (bs : List UInt8) (origin i j : Nat) : Prop where
  quiet : ∀ k b, i ≤ k → k < j → ReadsPlain bs origin b k → ¬ EndsStatement b
  plain : j < bs.length → readingAt bs origin j = .plain

theorem Passed.here (h : i < bs.length → readingAt bs origin i = .plain) :
    Passed bs origin i i :=
  ⟨fun _ _ hk hlt => absurd hk (Nat.not_le_of_lt hlt), h⟩

theorem Passed.next (hquiet : ∀ b, ReadsPlain bs origin b i → ¬ EndsStatement b)
    (h : Passed bs origin (i + 1) j) : Passed bs origin i j := by
  refine ⟨fun k b hk hj hplain => ?_, h.plain⟩
  rcases Nat.eq_or_lt_of_le hk with rfl | hlt
  · exact hquiet b hplain
  · exact h.quiet k b hlt hj hplain

theorem Passed.next_of_ne (hstate : i < bs.length → readingAt bs origin i ≠ .plain)
    (h : Passed bs origin (i + 1) j) : Passed bs origin i j := by
  apply Passed.next _ h
  intro b hplain
  exact absurd hplain.2 (hstate hplain.lt)

theorem passed_end (h : bs.length ≤ i) : Passed bs origin i bs.length := by
  refine ⟨fun _ _ hk hlt => ?_, fun hlt => absurd hlt (Nat.lt_irrefl _)⟩
  omega

theorem passed_commentFrom (hle : origin ≤ i)
    (hstate : i < bs.length → readingAt bs origin i = .comment) :
    Passed bs origin i (commentEndFrom bs i) := by
  fun_induction commentEndFrom bs i with
  | case1 i h hfound =>
    rw [Bool.and_eq_true, beq_iff_eq, beq_iff_eq] at hfound
    have hstar : bs[i]? = some (byte '*') := List.getElem?_eq_some_iff.2 ⟨_, hfound.1⟩
    have hslash : bs[i + 1]? = some (byte '/') := List.getElem?_eq_some_iff.2 ⟨h, hfound.2⟩
    have hcomment : readingAt bs origin i = .comment := hstate (by omega)
    have hcloser : readingAt bs origin (i + 1) = .closer := by
      rw [readingAt_succ hle hstar, hcomment, Reading.next, if_pos ⟨rfl, hslash⟩]
    have hplain : readingAt bs origin (i + 2) = .plain := by
      rw [readingAt_succ (by omega) hslash, hcloser, Reading.next]
    apply Passed.next_of_ne (by simp [hcomment])
    apply Passed.next_of_ne (by simp [hcloser])
    exact .here fun _ => hplain
  | case2 i h hother ih =>
    have hget : bs[i]? = some bs[i] := List.getElem?_eq_getElem (by omega)
    have hcomment : readingAt bs origin i = .comment := hstate (by omega)
    have hgoes : readingAt bs origin (i + 1) = .comment := by
      rw [readingAt_succ hle hget, hcomment, Reading.next, if_neg]
      rw [List.getElem?_eq_getElem h, Option.some.injEq]
      simpa using hother
    exact .next_of_ne (by simp [hcomment]) (ih (by omega) fun _ => hgoes)
  | case3 i h =>
    -- at most one byte is left, and it belongs to the comment
    apply Passed.next_of_ne (fun hi => by simp [hstate hi])
    exact passed_end (by omega)

theorem passed_stringFrom {quote : UInt8} (hle : origin ≤ i)
    (hstate : i < bs.length → readingAt bs origin i = .string quote) :
    Passed bs origin i (stringEndFrom bs quote i) := by
  fun_induction stringEndFrom bs quote i with
  | case1 i h hescape ih =>
    have hslash : bs[i]? = some (byte '\\') :=
      List.getElem?_eq_some_iff.2 ⟨h, beq_iff_eq.1 hescape⟩
    have hstring := hstate h
    have hescaped : readingAt bs origin (i + 1) = .escape quote := by
      rw [readingAt_succ hle hslash, hstring, Reading.next, if_pos rfl]
    -- an escape at the very end leads beyond the bytes, where the lexer reads nothing
    have hgoes : i + 2 < bs.length → readingAt bs origin (i + 2) = .string quote := by
      intro hlt
      have hget : bs[i + 1]? = some bs[i + 1] := List.getElem?_eq_getElem (by omega)
      rw [readingAt_succ (by omega) hget, hescaped, Reading.next]
    apply Passed.next_of_ne (by simp [hstring])
    apply Passed.next_of_ne (by simp [hescaped])
    exact ih (by omega) hgoes
  | case2 i h hescape hquote =>
    have hget : bs[i]? = some quote := List.getElem?_eq_some_iff.2 ⟨h, beq_iff_eq.1 hquote⟩
    have hstring := hstate h
    have hplain : readingAt bs origin (i + 1) = .plain := by
      rw [readingAt_succ hle hget, hstring, Reading.next, if_neg _, if_pos rfl]
      rwa [beq_iff_eq, beq_iff_eq.1 hquote] at hescape
    exact .next_of_ne (by simp [hstring]) (.here fun _ => hplain)
  | case3 i h hescape hquote ih =>
    have hget : bs[i]? = some bs[i] := List.getElem?_eq_getElem h
    have hstring := hstate h
    have hgoes : readingAt bs origin (i + 1) = .string quote := by
      rw [beq_iff_eq] at hescape hquote
      rw [readingAt_succ hle hget, hstring, Reading.next, if_neg hescape, if_neg hquote]
    exact .next_of_ne (by simp [hstring]) (ih (by omega) fun _ => hgoes)
  | case4 i h => exact passed_end (by omega)

theorem passed_comment (hle : origin ≤ i) (hplain : readingAt bs origin i = .plain)
    (hcomment : opensComment bs i = true) : Passed bs origin i (commentEnd bs i) := by
  obtain ⟨hslash, hstar⟩ := opensComment_iff.1 hcomment
  have hopener : readingAt bs origin (i + 1) = .opener := by
    rw [readingAt_succ hle hslash, hplain, Reading.next, if_pos ⟨rfl, hstar⟩]
  have hinside : readingAt bs origin (i + 2) = .comment := by
    rw [readingAt_succ (by omega) hstar, hopener, Reading.next]
  apply Passed.next
  · rintro b ⟨hb, -⟩ hsign
    exact hsign.ne_slash (Option.some.inj (hb.symm.trans hslash))
  · apply Passed.next_of_ne (by simp [hopener])
    exact passed_commentFrom (by omega) fun _ => hinside

theorem passed_string (hle : origin ≤ i) (hplain : readingAt bs origin i = .plain)
    (h : i < bs.length) (hquote : isQuoteByte bs[i] = true) :
    Passed bs origin i (stringEnd bs i h) := by
  have hget : bs[i]? = some bs[i] := List.getElem?_eq_getElem h
  have hopens : bs[i] = byte '"' ∨ bs[i] = byte '\'' := by simpa [isQuoteByte] using hquote
  have hother : bs[i] ≠ byte '/' := by
    rcases hopens with heq | heq <;> rw [heq] <;> decide
  have hinside : readingAt bs origin (i + 1) = .string bs[i] := by
    rw [readingAt_succ hle hget, hplain, Reading.next, if_neg (fun hopener => hother hopener.1),
      if_pos hopens]
  apply Passed.next
  · rintro b ⟨hb, -⟩ hsign
    obtain rfl := Option.some.inj (hb.symm.trans hget)
    exact absurd hquote (by simp [hsign.not_quote])
  · exact passed_stringFrom (by omega) fun _ => hinside

/-! ## Parts -/

/-- The bytes between two offsets. -/
def bytesBetween (bs : List UInt8) (i j : Nat) : List UInt8 := (bs.take j).drop i

theorem Reading.next_of_ne {ahead : Option UInt8} (hstar : ahead ≠ some (byte '*'))
    (hslash : ahead ≠ some (byte '/')) (state : Reading) :
    state.next b ahead = state.next b none := by
  cases state with
  | plain => simp [Reading.next, hstar]
  | comment => simp [Reading.next, hslash]
  | opener => rfl
  | closer => rfl
  | string quote => rfl
  | escape quote => rfl

theorem getElem?_bytesBetween {k : Nat} (h : i + k < j) :
    (bytesBetween bs i j)[k]? = bs[i + k]? := by
  rw [bytesBetween, List.getElem?_drop, List.getElem?_take_of_lt h]

/-- A part is read alone as it is read inside the bytes, from where the lexer is in plain text. A
lexer that stops there must not have seen the start or the end of a comment ahead. -/
theorem readingAt_within (hle : origin ≤ i) (hplain : readingAt bs origin i = .plain)
    (hstar : bs[j]? ≠ some (byte '*')) (hslash : bs[j]? ≠ some (byte '/')) (hj : j ≤ bs.length)
    (k : Nat) (hk : i + k ≤ j) :
    readingAt (bytesBetween bs i j) 0 k = readingAt bs origin (i + k) := by
  induction k with
  | zero => exact hplain.symm
  | succ k ih =>
    have hget : bs[i + k]? = some bs[i + k] := List.getElem?_eq_getElem (by omega)
    have hpart : (bytesBetween bs i j)[k]? = some bs[i + k] := by
      rw [getElem?_bytesBetween (by omega), hget]
    rw [readingAt_succ (Nat.zero_le k) hpart, ih (by omega), ← Nat.add_assoc,
      readingAt_succ (by omega) hget]
    rcases Nat.lt_or_ge (i + k + 1) j with hlt | hge
    · rw [getElem?_bytesBetween (by omega), ← Nat.add_assoc]
    · obtain rfl : i + k + 1 = j := by omega
      have hover : (bytesBetween bs i (i + k + 1))[k + 1]? = none := by
        rw [List.getElem?_eq_none]
        rw [bytesBetween, List.length_drop, List.length_take]
        omega
      rw [hover, Reading.next_of_ne hstar hslash]

end Lexer

end ComponentBundle.Css.Offset
