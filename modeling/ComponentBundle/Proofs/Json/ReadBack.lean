import ComponentBundle.Json.Codec
import ComponentBundle.Json.Read
import ComponentBundle.Json.Write
import Mathlib.Tactic.SplitIfs

/-!
# Reading what was written

The text of a value is read back as the value, whatever stands behind it. The fuel that this takes
is at most the length of the text.

* `readText_escaped` : strings, with the escapes of control characters;
* `readsBack_str`, `readsBack_arr`, `readsBack_obj`, `readsBack_pairs` : strings, arrays, objects,
  lists of pairs of texts;
* `ReadsBack.read?` : the text of such a value, taken as a whole, is read as the value.
-/

namespace ComponentBundle.Json

/-! ## Strings -/

/-- Whether a character is written by its code unit. -/
def escapesByUnit (c : Char) : Bool := (escapeChar c).length == 6

/-- The piece that a written character is read as. -/
def pieceOf (c : Char) : StringPiece := if escapesByUnit c then .unit c.toNat else .char c

/-- The characters that follow a backslash in a written string, units apart. -/
def escapeLetters : List Char := ['"', '\\', 'b', 't', 'n', 'f', 'r']

theorem escapeChar_cases (c : Char) :
    (escapeChar c = [c] ∧ c ≠ '"' ∧ c ≠ '\\' ∧ 0x20 ≤ c.toNat) ∨
      (∃ e ∈ escapeLetters, escapeChar c = ['\\', e] ∧ escaped? e = some c) ∨
      escapeChar c = ['\\', 'u', '0', '0', hexDigit (c.toNat / 16), hexDigit (c.toNat % 16)] ∧
        c.toNat < 0x20 := by
  unfold escapeChar
  split_ifs with h₁ h₂ h₃ h₄ h₅ h₆ h₇ h₈
  · exact .inr (.inl ⟨'"', by decide, rfl, by rw [h₁]; rfl⟩)
  · exact .inr (.inl ⟨'\\', by decide, rfl, by rw [h₂]; rfl⟩)
  · exact .inr (.inl ⟨'b', by decide, rfl, h₃ ▸ rfl⟩)
  · exact .inr (.inl ⟨'t', by decide, rfl, h₄ ▸ rfl⟩)
  · exact .inr (.inl ⟨'n', by decide, rfl, h₅ ▸ rfl⟩)
  · exact .inr (.inl ⟨'f', by decide, rfl, h₆ ▸ rfl⟩)
  · exact .inr (.inl ⟨'r', by decide, rfl, h₇ ▸ rfl⟩)
  · exact .inr (.inr ⟨rfl, h₈⟩)
  · exact .inl ⟨rfl, h₁, h₂, by omega⟩

theorem unitOfHex?_hexDigit {n : Nat} (h : n < 0x20) :
    unitOfHex? '0' '0' (hexDigit (n / 16)) (hexDigit (n % 16)) = some n := by
  have hall : ∀ n : Fin 0x20,
      unitOfHex? '0' '0' (hexDigit (n / 16)) (hexDigit (n % 16)) = some n.val := by decide
  exact hall ⟨n, h⟩

theorem readPieces_escapeChar (c : Char) (rest : List Char) :
    readPieces (escapeChar c ++ rest) =
      (readPieces rest).map fun r => (pieceOf c :: r.1, r.2) := by
  unfold pieceOf escapesByUnit
  rcases escapeChar_cases c with ⟨h, hquote, hslash, hlow⟩ | ⟨e, hmem, h, he⟩ | ⟨h, hlow⟩
  · have hlow' : ¬ c.toNat < 0x20 := by omega
    rw [h, List.singleton_append, readPieces, if_neg hlow']
    · cases readPieces rest <;> rfl
    · exact hquote
    · exact fun _ _ _ _ _ h _ => hslash h
    · exact fun _ _ h _ => hslash h
  · rw [h, List.cons_append, List.singleton_append, readPieces, he]
    · cases readPieces rest <;> rfl
    · rintro _ _ _ _ _ rfl
      exact absurd hmem (by decide)
  · rw [h]
    simp only [List.cons_append, List.nil_append, readPieces, unitOfHex?_hexDigit hlow]
    cases readPieces rest <;> rfl

theorem charsOfPieces?_pieceOf (c : Char) (pieces : List StringPiece) :
    charsOfPieces? (pieceOf c :: pieces) = (charsOfPieces? pieces).map (c :: ·) := by
  unfold pieceOf
  split
  · rename_i hunit
    have hlow : c.toNat < 0x20 := by
      rcases escapeChar_cases c with ⟨h, -⟩ | ⟨e, -, h, -⟩ | ⟨-, hlow⟩
      · simp [escapesByUnit, h] at hunit
      · simp [escapesByUnit, h] at hunit
      · exact hlow
    have hhigh : isHighUnit c.toNat = false := by
      simp [isHighUnit]
      omega
    have hlow' : isLowUnit c.toNat = false := by
      simp [isLowUnit]
      omega
    -- a unit behind this one does not make a pair with it
    cases pieces with
    | nil => simp [charsOfPieces?, hhigh, hlow', Char.ofNat_toNat]
    | cons piece rest =>
      cases piece <;> simp [charsOfPieces?, hhigh, hlow', Char.ofNat_toNat]
  · rw [charsOfPieces?]

theorem readPieces_escaped (s rest : List Char) :
    readPieces (s.flatMap escapeChar ++ '"' :: rest) = some (s.map pieceOf, rest) := by
  induction s with
  | nil => rfl
  | cons c s ih =>
    rw [List.flatMap_cons, List.append_assoc, readPieces_escapeChar, ih]
    rfl

theorem charsOfPieces?_map (s : List Char) : charsOfPieces? (s.map pieceOf) = some s := by
  induction s with
  | nil => rfl
  | cons c s ih => rw [List.map_cons, charsOfPieces?_pieceOf, ih, Option.map_some]

theorem readText_escaped (text : String) (rest : List Char) :
    readText (text.toList.flatMap escapeChar ++ '"' :: rest) = some (some text, rest) := by
  rw [readText, readPieces_escaped, Option.map_some, charsOfPieces?_map, Option.map_some,
    String.ofList_toList]

/-! ## Values -/

/-- Whether the text of a value is read back as the value. Its first character is none that ends a
list. -/
structure ReadsBack (j : Json) : Prop where
  first : ∃ c s, writeValue j = c :: s ∧ isGap c = false ∧ c ≠ ']'
  reads : ∀ fuel, (writeValue j).length ≤ fuel → ∀ rest,
    readValue fuel (writeValue j ++ rest) = some (j, rest)

theorem readsBack_str (text : String) : ReadsBack (.str text) where
  first := ⟨'"', _, rfl, rfl, by decide⟩
  reads fuel hfuel rest := by
    obtain ⟨fuel, rfl⟩ : ∃ n, fuel = n + 1 := ⟨fuel - 1, by
      have : 0 < (writeValue (.str text)).length := by simp [writeValue, writeText]
      omega⟩
    have hwrite : writeValue (.str text) ++ rest =
        '"' :: (text.toList.flatMap escapeChar ++ '"' :: rest) := by
      simp [writeValue, writeText]
    rw [hwrite, readValue]
    have hgap : skipGap ('"' :: (text.toList.flatMap escapeChar ++ '"' :: rest)) =
        '"' :: (text.toList.flatMap escapeChar ++ '"' :: rest) := rfl
    simp only [hgap, readText_escaped]
    rfl

theorem readItems_written {items : List Json} (hne : items ≠ []) (h : ∀ j ∈ items, j.ReadsBack)
    {fuel : Nat} (hfuel : (writeItems items).length < fuel) (rest : List Char) :
    readItems fuel (writeItems items ++ ']' :: rest) = some (items, rest) := by
  induction items generalizing fuel with
  | nil => exact absurd rfl hne
  | cons item items ih =>
    obtain ⟨fuel, rfl⟩ : ∃ n, fuel = n + 1 := ⟨fuel - 1, by omega⟩
    have hitem := h item List.mem_cons_self
    by_cases hlast : items = []
    · subst hlast
      rw [writeItems] at hfuel ⊢
      rw [readItems, hitem.reads fuel (by omega)]
      rfl
    · obtain ⟨next, more, rfl⟩ := List.exists_cons_of_ne_nil hlast
      have hitems := fun j hj => h j (List.mem_cons_of_mem item hj)
      rw [writeItems, List.length_append, List.length_cons] at hfuel
      · rw [writeItems, List.append_assoc, readItems, hitem.reads fuel (by omega)]
        · show (readItems fuel (writeItems (next :: more) ++ ']' :: rest)).map _ = _
          rw [ih hlast hitems (by omega)]
          rfl
        · simp
      · simp

theorem readsBack_arr {items : List Json} (h : ∀ j ∈ items, j.ReadsBack) :
    ReadsBack (.arr items) where
  first := ⟨'[', _, rfl, rfl, by decide⟩
  reads fuel hfuel rest := by
    have hlength : (writeValue (.arr items)).length = (writeItems items).length + 2 := by
      simp [writeValue]
    obtain ⟨fuel, rfl⟩ : ∃ n, fuel = n + 1 := ⟨fuel - 1, by omega⟩
    have hwrite : writeValue (.arr items) ++ rest = '[' :: (writeItems items ++ ']' :: rest) := by
      simp [writeValue]
    have hgap : skipGap ('[' :: (writeItems items ++ ']' :: rest)) =
        '[' :: (writeItems items ++ ']' :: rest) := rfl
    rw [hwrite, readValue]
    simp only [hgap]
    cases items with
    | nil => rfl
    | cons item items =>
      obtain ⟨c, s, hfirst, hcgap, hc⟩ := (h item List.mem_cons_self).first
      obtain ⟨t, ht⟩ : ∃ t, writeItems (item :: items) = c :: t := by
        cases items with
        | nil => exact ⟨s, by rw [writeItems, hfirst]⟩
        | cons next more =>
          exact ⟨s ++ ',' :: writeItems (next :: more), by simp [writeItems, hfirst]⟩
      have hskip : skipGap (writeItems (item :: items) ++ ']' :: rest) =
          c :: (t ++ ']' :: rest) := by
        rw [ht, List.cons_append, skipGap, List.dropWhile_cons_of_neg (by simp [hcgap])]
      rw [hskip]
      split
      · rename_i heq
        exact absurd (List.cons.inj heq).1 hc
      · rw [readItems_written (List.cons_ne_nil _ _) h (by omega)]
        rfl

theorem readMembers_member {m : String × Json} (h : m.2.ReadsBack) {fuel : Nat}
    (hfuel : (writeValue m.2).length ≤ fuel) (rest : List Char) :
    readMembers (fuel + 1) (writeText m.1 ++ ':' :: (writeValue m.2 ++ rest)) =
      match skipGap rest with
      | ',' :: rest => (readMembers fuel rest).map fun r => ((some m.1, m.2) :: r.1, r.2)
      | '\x7d' :: rest => some ([(some m.1, m.2)], rest)
      | _ => none := by
  have hwrite : writeText m.1 ++ ':' :: (writeValue m.2 ++ rest) =
      '"' :: (m.1.toList.flatMap escapeChar ++ '"' :: ':' :: (writeValue m.2 ++ rest)) := by
    simp [writeText]
  have hgap : ∀ s, skipGap ('"' :: s) = '"' :: s := fun _ => rfl
  have hcolon : ∀ s, skipGap (':' :: s) = ':' :: s := fun _ => rfl
  rw [hwrite, readMembers]
  simp only [hgap, readText_escaped, Option.bind_eq_bind, Option.bind_some, hcolon]
  rw [h.reads fuel hfuel]
  rfl

theorem readMembers_written {members : List (String × Json)} (hne : members ≠ [])
    (h : ∀ m ∈ members, m.2.ReadsBack) {fuel : Nat} (hfuel : (writeMembers members).length < fuel)
    (rest : List Char) :
    readMembers fuel (writeMembers members ++ '\x7d' :: rest) =
      some (members.map fun m => (some m.1, m.2), rest) := by
  induction members generalizing fuel with
  | nil => exact absurd rfl hne
  | cons m members ih =>
    obtain ⟨fuel, rfl⟩ : ∃ n, fuel = n + 1 := ⟨fuel - 1, by omega⟩
    have hmember := h m List.mem_cons_self
    by_cases hlast : members = []
    · subst hlast
      rw [writeMembers, List.length_append, List.length_cons] at hfuel
      rw [writeMembers, List.append_assoc, List.cons_append,
        readMembers_member hmember (by omega)]
      rfl
    · obtain ⟨next, more, rfl⟩ := List.exists_cons_of_ne_nil hlast
      have hmembers := fun n hn => h n (List.mem_cons_of_mem m hn)
      have hwrite : writeMembers (m :: next :: more) =
          writeText m.1 ++ ':' :: (writeValue m.2 ++ ',' :: writeMembers (next :: more)) := by
        rw [writeMembers]
        · simp
        · simp
      rw [hwrite, List.length_append, List.length_cons, List.length_append,
        List.length_cons] at hfuel
      rw [hwrite, List.append_assoc, List.cons_append, List.append_assoc, List.cons_append,
        readMembers_member hmember (by omega)]
      show (readMembers fuel (writeMembers (next :: more) ++ '\x7d' :: rest)).map _ = _
      rw [ih hlast hmembers (by omega)]
      rfl

theorem spelledMembers?_map (members : List (String × Json)) :
    spelledMembers? (members.map fun m => (some m.1, m.2)) = some members := by
  induction members with
  | nil => rfl
  | cons m members ih => rw [List.map_cons, spelledMembers?, ih, Option.map_some]

theorem readsBack_obj {members : List (String × Json)} (h : ∀ m ∈ members, m.2.ReadsBack) :
    ReadsBack (.obj members) where
  first := ⟨'\x7b', _, rfl, rfl, by decide⟩
  reads fuel hfuel rest := by
    have hlength : (writeValue (.obj members)).length = (writeMembers members).length + 2 := by
      simp [writeValue]
    obtain ⟨fuel, rfl⟩ : ∃ n, fuel = n + 1 := ⟨fuel - 1, by omega⟩
    have hwrite : writeValue (.obj members) ++ rest =
        '\x7b' :: (writeMembers members ++ '\x7d' :: rest) := by
      simp [writeValue]
    have hgap : ∀ s, skipGap ('\x7b' :: s) = '\x7b' :: s := fun _ => rfl
    rw [hwrite, readValue]
    simp only [hgap]
    cases members with
    | nil => rfl
    | cons m members =>
      -- the quote of the first key is no brace that would close the object
      obtain ⟨t, ht⟩ : ∃ t, writeMembers (m :: members) ++ '\x7d' :: rest = '"' :: t := by
        cases members with
        | nil => exact ⟨_, rfl⟩
        | cons next more => exact ⟨_, rfl⟩
      have henough : (writeMembers (m :: members)).length < fuel := by omega
      have hread := readMembers_written (List.cons_ne_nil m members) h henough rest
      rw [ht] at hread ⊢
      have hskip : skipGap ('"' :: t) = '"' :: t := rfl
      simp only [hskip, hread, Option.bind_eq_bind, Option.bind_some, spelledMembers?_map]
      rfl

theorem ReadsBack.read? {j : Json} (h : j.ReadsBack) : Json.read? j.write = some j := by
  have hread := h.reads (2 * (writeValue j).length + 2) (by omega) []
  rw [List.append_nil] at hread
  unfold Json.read? write
  rw [String.toList_ofList, hread]
  rfl

theorem readsBack_pairs (entries : List (String × String)) : ReadsBack (encode entries) := by
  refine readsBack_arr fun j hj => ?_
  obtain ⟨e, -, rfl⟩ := List.mem_map.1 hj
  refine readsBack_arr fun k hk => ?_
  rcases List.mem_cons.1 hk with rfl | hk
  · exact readsBack_str e.1
  · rw [List.mem_singleton.1 hk]
    exact readsBack_str e.2

end ComponentBundle.Json
