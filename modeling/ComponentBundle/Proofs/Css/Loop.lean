import ComponentBundle.Css.Offset
import Mathlib.Data.List.Basic

/-!
# Loops over bytes

The places of a text are the sizes of its prefixes. Byte by byte, a loop that tests for ASCII signs
comes to the same places as a scanner that goes character by character: a byte of any other
character is no sign, so the loop passes it by, also where an escape has led into the middle of one.

* `commentEnd_place`, `stringEnd_place` : comments and strings end where they end for characters;
* `Follows.step` : a loop that follows a scanner takes each lexeme as a whole;
* `Follows.cut` : it comes to the place where the scanner cuts the text.
-/

namespace ComponentBundle.Css.Offset
open Text

/-! ## Bytes of characters -/

section Bytes

variable {c d : Char} {b : UInt8} {front back : List Char}

theorem bytes_append (s t : List Char) : bytes (s ++ t) = bytes s ++ bytes t :=
  List.flatMap_append

theorem bytes_cons (c : Char) (s : List Char) :
    bytes (c :: s) = String.utf8EncodeChar c ++ bytes s :=
  List.flatMap_cons

theorem toNat_byte (h : c.toNat < 0x80) : (byte c).toNat = c.toNat := by
  show c.toNat % 256 = c.toNat
  omega

theorem byte_eq_iff (hc : c.toNat < 0x80) (hd : d.toNat < 0x80) : byte c = byte d ↔ c = d := by
  rw [← UInt8.toNat_inj, toNat_byte hc, toNat_byte hd, Char.toNat_inj]

theorem utf8EncodeChar_ascii (h : c.toNat < 0x80) : String.utf8EncodeChar c = [byte c] := by
  have hshort : c.val.toNat ≤ 127 := Nat.le_of_lt_succ h
  simp only [String.utf8EncodeChar, if_pos hshort]
  rfl

theorem high_of_mem (h : 0x80 ≤ c.toNat) (hb : b ∈ String.utf8EncodeChar c) : 0x80 ≤ b.toNat := by
  have hlong : ¬ c.val.toNat ≤ 127 := Nat.not_le_of_lt h
  unfold String.utf8EncodeChar at hb
  simp only [if_neg hlong] at hb
  -- two, three or four bytes
  split at hb
  · simp only [List.mem_cons, List.not_mem_nil, or_false] at hb
    rcases hb with rfl | rfl <;> simp <;> omega
  · split at hb
    · simp only [List.mem_cons, List.not_mem_nil, or_false] at hb
      rcases hb with rfl | rfl | rfl <;> simp <;> omega
    · simp only [List.mem_cons, List.not_mem_nil, or_false] at hb
      rcases hb with rfl | rfl | rfl | rfl <;> simp <;> omega

theorem ne_byte_of_mem (hd : d.toNat < 0x80) (hne : c ≠ d) (hb : b ∈ String.utf8EncodeChar c) :
    b ≠ byte d := by
  rintro rfl
  rcases Nat.lt_or_ge c.toNat 0x80 with hc | hc
  · rw [utf8EncodeChar_ascii hc, List.mem_singleton, byte_eq_iff hd hc] at hb
    exact hne hb.symm
  · have := high_of_mem hc hb
    rw [toNat_byte hd] at this
    omega

theorem getElem?_place (front back : List Char) (k : Nat) :
    (bytes (front ++ back))[size front + k]? = (bytes back)[k]? := by
  have hle : (bytes front).length ≤ size front + k := Nat.le_add_right _ _
  have hsub : size front + k - (bytes front).length = k := Nat.add_sub_cancel_left ..
  rw [bytes_append, List.getElem?_append_right hle, hsub]

theorem size_ascii (h : c.toNat < 0x80) : size (front ++ [c]) = size front + 1 := by
  have hone : c.utf8Size = 1 := by
    rw [← String.length_utf8EncodeChar, utf8EncodeChar_ascii h]
    rfl
  rw [size_append, size_cons, hone]
  rfl

theorem getElem?_ascii (h : c.toNat < 0x80) :
    (bytes (front ++ c :: back))[size front]? = some (byte c) := by
  have hbyte := getElem?_place front (c :: back) 0
  rw [bytes_cons, utf8EncodeChar_ascii h] at hbyte
  exact hbyte

theorem getElem?_eq_byte_iff (hd : d.toNat < 0x80) :
    (bytes (front ++ back))[size front]? = some (byte d) ↔ back.head? = some d := by
  have hplace : (bytes (front ++ back))[size front]? = (bytes back)[0]? :=
    getElem?_place front back 0
  rw [hplace]
  cases back with
  | nil => simp [bytes]
  | cons c back =>
    obtain ⟨b, rest, hb⟩ := List.exists_cons_of_ne_nil (@String.utf8EncodeChar_ne_nil c)
    rw [bytes_cons, hb, List.cons_append, List.getElem?_cons_zero, List.head?_cons,
      Option.some.injEq, Option.some.injEq]
    constructor
    · intro heq
      by_contra hne
      exact ne_byte_of_mem hd hne (hb ▸ List.mem_cons_self) heq
    · rintro rfl
      rw [utf8EncodeChar_ascii hd] at hb
      exact (List.cons.inj hb).1.symm

end Bytes

/-! ## Passing characters by -/

section Passing

variable {α : Type} {f : Nat → α} {c : Char} {front back : List Char}

theorem advance {m n : Nat} (hle : m ≤ n) (h : ∀ i, m ≤ i → i < n → f i = f (i + 1)) :
    f m = f n := by
  induction hle with
  | refl => rfl
  | @step n hle ih =>
    rw [ih fun i hm hn => h i hm (Nat.lt_succ_of_lt hn)]
    exact h n hle (Nat.lt_succ_self n)

theorem mem_of_between (back : List Char) {i : Nat} (hfront : size front ≤ i)
    (hi : i < size (front ++ [c])) :
    ∃ b ∈ String.utf8EncodeChar c, (bytes (front ++ c :: back))[i]? = some b := by
  obtain ⟨k, rfl⟩ := Nat.exists_eq_add_of_le hfront
  have hk : k < (String.utf8EncodeChar c).length := by
    rw [size_append, size_cons] at hi
    rw [String.length_utf8EncodeChar]
    have hnil : size [] = 0 := rfl
    omega
  refine ⟨(String.utf8EncodeChar c)[k], List.getElem_mem hk, ?_⟩
  rw [getElem?_place, bytes_cons, List.getElem?_append_left hk, List.getElem?_eq_getElem hk]

theorem pass (back : List Char) (h : ∀ i, ∀ b ∈ String.utf8EncodeChar c,
    (bytes (front ++ c :: back))[i]? = some b → f i = f (i + 1)) :
    f (size front) = f (size (front ++ [c])) := by
  refine advance (size_le front [c]) fun i hfront hi => ?_
  obtain ⟨b, hb, hget⟩ := mem_of_between back hfront hi
  exact h i b hb hget

theorem pass_rest (back : List Char) (h : ∀ i b, (bytes (front ++ c :: back))[i]? = some b →
    0x80 ≤ b.toNat → f i = f (i + 1)) : f (size front + 1) = f (size (front ++ [c])) := by
  rcases Nat.lt_or_ge c.toNat 0x80 with hc | hc
  · rw [size_ascii hc]
  · refine advance (lt_size front c []) fun i hfront hi => ?_
    obtain ⟨b, hb, hget⟩ := mem_of_between back (Nat.le_of_succ_le hfront) hi
    exact h i b hget (high_of_mem hc hb)

end Passing

/-! ## Comments and strings -/

section Lexemes

variable {bs : List UInt8} {front back : List Char} {c : Char}

theorem opensComment_iff {i : Nat} :
    opensComment bs i = true ↔ bs[i]? = some (byte '/') ∧ bs[i + 1]? = some (byte '*') := by
  rw [opensComment, Bool.and_eq_true, beq_iff_eq, beq_iff_eq]

theorem opensComment_place :
    opensComment (bytes (front ++ back)) (size front) = true ↔
      ∃ rest, back = '/' :: '*' :: rest := by
  rw [opensComment_iff, getElem?_eq_byte_iff (by decide)]
  constructor
  · rintro ⟨hslash, hstar⟩
    obtain ⟨back, rfl⟩ : ∃ rest, back = '/' :: rest := List.head?_eq_some_iff.1 hslash
    rw [← size_ascii (by decide : '/'.toNat < 0x80), List.append_cons front '/' back,
      getElem?_eq_byte_iff (by decide)] at hstar
    obtain ⟨rest, rfl⟩ := List.head?_eq_some_iff.1 hstar
    exact ⟨rest, rfl⟩
  · rintro ⟨rest, rfl⟩
    refine ⟨rfl, ?_⟩
    rw [← size_ascii (by decide : '/'.toNat < 0x80), List.append_cons front '/' ('*' :: rest),
      getElem?_eq_byte_iff (by decide)]
    rfl

theorem commentEndFrom_next {i : Nat} (hi : i < bs.length)
    (h : bs[i]? = some (byte '*') → bs[i + 1]? ≠ some (byte '/')) :
    commentEndFrom bs i = commentEndFrom bs (i + 1) := by
  rw [commentEndFrom]
  split
  · rename_i hlt
    rw [List.getElem?_eq_getElem hi, List.getElem?_eq_getElem hlt] at h
    rw [if_neg]
    simpa using h
  · rw [commentEndFrom, dif_neg (by omega)]

theorem commentEndFrom_found {i : Nat} (hstar : bs[i]? = some (byte '*'))
    (hslash : bs[i + 1]? = some (byte '/')) : commentEndFrom bs i = i + 2 := by
  obtain ⟨hi, hstar⟩ := List.getElem?_eq_some_iff.1 hstar
  obtain ⟨hlt, hslash⟩ := List.getElem?_eq_some_iff.1 hslash
  rw [commentEndFrom, dif_pos hlt, hstar, hslash]
  rfl

theorem commentEndFrom_end {i : Nat} (h : bs.length ≤ i) : commentEndFrom bs i = bs.length := by
  rw [commentEndFrom, dif_neg (by omega)]

theorem getElem?_behind (hc : c.toNat < 0x80) {d : Char} (hd : d.toNat < 0x80) :
    (bytes (front ++ c :: back))[size front + 1]? = some (byte d) ↔ back.head? = some d := by
  rw [← size_ascii hc, List.append_cons, getElem?_eq_byte_iff hd]

theorem commentEndFrom_place (front back : List Char) :
    commentEndFrom (bytes (front ++ back)) (size front) = size (front ++ (commentTail back).1) := by
  fun_induction commentTail back generalizing front with
  | case1 =>
    rw [List.append_nil]
    exact commentEndFrom_end (Nat.le_refl _)
  | case2 rest =>
    rw [commentEndFrom_found (getElem?_ascii (by decide))
      ((getElem?_behind (by decide) (by decide)).2 rfl), size_append]
    rfl
  | case3 c rest hend more ih =>
    have hpass : commentEndFrom (bytes (front ++ c :: rest)) (size front) =
        commentEndFrom (bytes (front ++ c :: rest)) (size (front ++ [c])) := by
      by_cases hc : c = '*'
      · subst hc
        have hstar : (bytes (front ++ '*' :: rest))[size front]? = some (byte '*') :=
          getElem?_ascii (by decide)
        rw [size_ascii (by decide)]
        refine commentEndFrom_next (List.getElem?_eq_some_iff.1 hstar).1 fun _ hslash => ?_
        rw [getElem?_behind (by decide) (by decide)] at hslash
        obtain ⟨rest, rfl⟩ := List.head?_eq_some_iff.1 hslash
        exact hend rest rfl rfl
      · refine pass rest fun i b hb hget => ?_
        refine commentEndFrom_next (List.getElem?_eq_some_iff.1 hget).1 fun hstar => ?_
        exact absurd (Option.some.inj (hget.symm.trans hstar)) (ne_byte_of_mem (by decide) hc hb)
    rw [hpass, List.append_cons front c rest, ih, List.append_assoc]
    rfl

theorem commentEnd_place (front back : List Char) :
    commentEnd (bytes (front ++ '/' :: '*' :: back)) (size front) =
      size (front ++ '/' :: '*' :: (commentTail back).1) := by
  have hplace := commentEndFrom_place (front ++ ['/', '*']) back
  have hsize : size (front ++ ['/', '*']) = size front + 2 := size_append ..
  rw [hsize, List.append_assoc, List.append_assoc] at hplace
  exact hplace

/-! ## Strings -/

variable {quote : Char}

theorem stringEndFrom_escape {q : UInt8} {i : Nat} (h : bs[i]? = some (byte '\\')) :
    stringEndFrom bs q i = stringEndFrom bs q (i + 2) := by
  obtain ⟨hi, hb⟩ := List.getElem?_eq_some_iff.1 h
  rw [stringEndFrom, dif_pos hi, hb]
  rfl

theorem stringEndFrom_next {q b : UInt8} {i : Nat} (h : bs[i]? = some b) (hescape : b ≠ byte '\\')
    (hquote : b ≠ q) : stringEndFrom bs q i = stringEndFrom bs q (i + 1) := by
  obtain ⟨hi, hb⟩ := List.getElem?_eq_some_iff.1 h
  rw [stringEndFrom, dif_pos hi, hb, if_neg (by simpa using hescape),
    if_neg (by simpa using hquote)]

theorem stringEndFrom_end {q : UInt8} {i : Nat} (h : bs.length ≤ i) :
    stringEndFrom bs q i = bs.length := by
  rw [stringEndFrom, dif_neg (Nat.not_lt.2 h)]

theorem isAscii_of_isQuote (h : isQuote quote = true) : quote.toNat < 0x80 ∧ quote ≠ '\\' := by
  unfold isQuote at h
  simp only [Bool.or_eq_true, beq_iff_eq] at h
  rcases h with rfl | rfl <;> decide

/-- A string ends where it ends for characters. An escape leads two bytes ahead, from where the rest
of an escaped character is passed by. -/
theorem stringEndFrom_place (hquote : isQuote quote = true) (front back : List Char) :
    stringEndFrom (bytes (front ++ back)) (byte quote) (size front) =
      size (front ++ (stringTail quote back).1) := by
  obtain ⟨hascii, hne⟩ := isAscii_of_isQuote hquote
  have hother : ∀ {front back : List Char} {c : Char}, c ≠ '\\' → c ≠ quote →
      stringEndFrom (bytes (front ++ c :: back)) (byte quote) (size front) =
        stringEndFrom (bytes (front ++ c :: back)) (byte quote) (size (front ++ [c])) := by
    intro front back c hescape hc
    refine pass back fun i b hb hget => stringEndFrom_next hget ?_ ?_
    · exact ne_byte_of_mem (by decide) hescape hb
    · exact ne_byte_of_mem hascii hc hb
  fun_induction stringTail quote back generalizing front with
  | case1 =>
    rw [List.append_nil]
    exact stringEndFrom_end (Nat.le_refl _)
  | case2 c rest more ih =>
    have hescape : stringEndFrom (bytes (front ++ '\\' :: c :: rest)) (byte quote) (size front) =
        stringEndFrom (bytes (front ++ '\\' :: c :: rest)) (byte quote)
          (size (front ++ ['\\']) + 1) := by
      rw [stringEndFrom_escape (getElem?_ascii (by decide)), size_ascii (by decide)]
    have hrest : stringEndFrom (bytes (front ++ '\\' :: c :: rest)) (byte quote)
        (size (front ++ ['\\']) + 1) = stringEndFrom (bytes (front ++ '\\' :: c :: rest))
          (byte quote) (size (front ++ ['\\'] ++ [c])) := by
      rw [List.append_cons front]
      refine pass_rest rest fun i b hget hhigh => stringEndFrom_next hget ?_ ?_
      · rintro rfl
        exact absurd hhigh (by decide)
      · rintro rfl
        rw [toNat_byte hascii] at hhigh
        omega
    rw [hescape, hrest, List.append_cons front, List.append_cons _ c, ih]
    simp [more]
  | case3 rest hescape =>
    have hbyte : (bytes (front ++ quote :: rest))[size front]? = some (byte quote) :=
      getElem?_ascii hascii
    obtain ⟨hi, hb⟩ := List.getElem?_eq_some_iff.1 hbyte
    have hslash : ¬ (byte quote == byte '\\') = true := by
      rw [beq_iff_eq, byte_eq_iff hascii (by decide)]
      exact hne
    rw [stringEndFrom, dif_pos hi, hb, if_neg hslash, if_pos (beq_self_eq_true _),
      size_ascii hascii]
  | case4 c rest hescape hc more ih =>
    have hpass : stringEndFrom (bytes (front ++ c :: rest)) (byte quote) (size front) =
        stringEndFrom (bytes (front ++ c :: rest)) (byte quote) (size (front ++ [c])) := by
      by_cases hback : c = '\\'
      · -- a backslash at the very end leads beyond it
        subst hback
        obtain rfl : rest = [] := by
          cases rest with
          | nil => rfl
          | cons d rest => exact absurd rfl (hescape d rest rfl)
        rw [stringEndFrom_escape (getElem?_ascii (by decide)), size_ascii (by decide)]
        have hsize : (bytes (front ++ ['\\'])).length = size front + 1 := size_ascii (by decide)
        rw [stringEndFrom_end (by omega), stringEndFrom_end (by omega)]
      · exact hother hback hc
    rw [hpass, List.append_cons front c rest, ih, List.append_assoc]
    rfl

theorem stringEnd_place (hquote : isQuote quote = true) (front back : List Char)
    (h : size front < (bytes (front ++ quote :: back)).length) :
    stringEnd (bytes (front ++ quote :: back)) (size front) h =
      size (front ++ quote :: (stringTail quote back).1) := by
  obtain ⟨hascii, -⟩ := isAscii_of_isQuote hquote
  have hbyte : (bytes (front ++ quote :: back))[size front]? = some (byte quote) :=
    getElem?_ascii hascii
  obtain ⟨hi, hb⟩ := List.getElem?_eq_some_iff.1 hbyte
  have hplace := stringEndFrom_place hquote (front ++ [quote]) back
  rw [stringEnd, hb, ← size_ascii hascii, List.append_cons front, hplace, List.append_assoc]
  rfl

end Lexemes

/-! ## Loops and scanners -/

/-- Whether a loop with a depth and an offset goes over a text as a scanner does: how it goes on at
a high byte, at a comment, at a string and at any other sign. -/
structure Follows {α : Type} (sc : Scanner) (text : List Char) (f : Nat → Nat → α) : Prop where
  high : ∀ depth i b, (bytes text)[i]? = some b → 0x80 ≤ b.toNat → f depth i = f depth (i + 1)
  comment : sc.skips.comments = true → ∀ depth i, opensComment (bytes text) i = true →
    f depth i = f (sc.weigh '/' depth) (commentEnd (bytes text) i)
  string : sc.skips.strings = true → ∀ depth i (h : i < (bytes text).length) quote,
    isQuote quote = true → (bytes text)[i] = byte quote →
      f depth i = f (sc.weigh quote depth) (stringEnd (bytes text) i h)
  sign : ∀ depth i c, c.toNat < 0x80 → (bytes text)[i]? = some (byte c) →
    sc.stops depth c = false →
    (sc.skips.comments = true → opensComment (bytes text) i = false) →
    (sc.skips.strings = true → isQuote c = false) → f depth i = f (sc.weigh c depth) (i + 1)
  /-- Only ASCII signs have a weight. -/
  weight : ∀ c depth, 0x80 ≤ c.toNat → sc.weigh c depth = depth

section Loop

variable {α : Type} {sc : Scanner} {f : Nat → Nat → α} {front back : List Char} {c : Char}
  {depth : Nat}

theorem Follows.step (h : Follows sc (front ++ c :: back) f) (hstops : sc.stops depth c = false) :
    f depth (size front) =
      f (sc.weigh c depth) (size (front ++ (lexeme sc.skips c back).1)) := by
  unfold lexeme
  split
  · rename_i hcomment
    simp only [Bool.and_eq_true, beq_iff_eq] at hcomment
    obtain ⟨⟨hskips, rfl⟩, hstar⟩ := hcomment
    obtain ⟨back, rfl⟩ := List.head?_eq_some_iff.1 hstar
    rw [h.comment hskips _ _ (opensComment_place.2 ⟨back, rfl⟩), commentEnd_place]
    rfl
  · rename_i hcomment
    split
    · rename_i hstring
      obtain ⟨hskips, hquote⟩ := Bool.and_eq_true_iff.1 hstring
      have hbyte : (bytes (front ++ c :: back))[size front]? = some (byte c) :=
        getElem?_ascii (isAscii_of_isQuote hquote).1
      obtain ⟨hi, hb⟩ := List.getElem?_eq_some_iff.1 hbyte
      rw [h.string hskips _ _ hi c hquote hb, stringEnd_place hquote]
    · rename_i hstring
      rcases Nat.lt_or_ge c.toNat 0x80 with hc | hc
      · rw [h.sign depth (size front) c hc (getElem?_ascii hc) hstops ?_ ?_, size_ascii hc]
        · intro hskips
          rw [← Bool.not_eq_true, opensComment_place]
          rintro ⟨rest, heq⟩
          obtain ⟨rfl, rfl⟩ := List.cons.inj heq
          simp [hskips] at hcomment
        · intro hskips
          simpa [hskips] using hstring
      · rw [h.weight c depth hc]
        exact pass back fun i b hb hget => h.high depth i b hget (high_of_mem hc hb)

/-- A loop comes to the place where the text is cut: to the end, or to a sign at which the
scanner stops. -/
theorem Follows.cut {text : List Char} (h : Follows sc text f) (htext : text = front ++ back)
    (depth : Nat) :
    (cut sc depth back = (back, []) ∧ ∃ d, f depth (size front) = f d (size text)) ∨
      ∃ piece c rest d, cut sc depth back = (piece, c :: rest) ∧ back = piece ++ c :: rest ∧
        sc.stops d c = true ∧ f depth (size front) = f d (size (front ++ piece)) := by
  fun_induction Css.cut sc depth back generalizing front with
  | case1 depth => exact .inl ⟨rfl, depth, by rw [htext, List.append_nil]⟩
  | case2 depth c rest hstops =>
    exact .inr ⟨[], c, rest, depth, rfl, rfl, hstops, by rw [List.append_nil]⟩
  | case3 depth c rest hstops taken more =>
    rename_i ih
    subst htext
    have hstep := h.step (Bool.not_eq_true _ ▸ hstops)
    have htaken : taken.1 ++ taken.2 = c :: rest := lexeme_append sc.skips c rest
    have htext : front ++ c :: rest = front ++ taken.1 ++ taken.2 := by
      rw [List.append_assoc, htaken]
    rcases ih htext with ⟨hcut, d, hend⟩ | ⟨piece, c', rest', d, hcut, hback, hstops', hplace⟩
    · refine .inl ⟨?_, d, hstep.trans hend⟩
      show (taken.1 ++ more.1, more.2) = (c :: rest, [])
      rw [show more = (taken.2, []) from hcut, htaken]
    · refine .inr ⟨taken.1 ++ piece, c', rest', d, ?_, ?_, hstops', ?_⟩
      · show (taken.1 ++ more.1, more.2) = (taken.1 ++ piece, c' :: rest')
        rw [show more = (piece, c' :: rest') from hcut]
      · rw [List.append_assoc, ← hback, htaken]
      · rw [← List.append_assoc]
        exact hstep.trans hplace

end Loop

end ComponentBundle.Css.Offset
