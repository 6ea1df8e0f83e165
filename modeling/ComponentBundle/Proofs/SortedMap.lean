import ComponentBundle.SortedMap
import Mathlib.Data.List.Forall2
import Mathlib.Data.List.Nodup

/-!
# Look-ups in maps made from lists

* `get?_insertMany`, `get?_ofList` : the last entry of a key is the one that is found;
* `get?_insert_eq`, `get?_erase_eq`, `get?_insertIfNew_eq`, `mem_keys` : for keys that compare equal
  only when they are;
* `get?_foldl_insertIfNew` : of values stored where none is yet, the first one stays;
* `same_iff` : maps with the same look-ups have the same entries, up to the spelling of keys;
* `ofList_congr`, `ofList_perm` : the order of entries with different keys does not matter.
-/

namespace ComponentBundle.SortedMap

variable {κ α : Type} [Ord κ] [Std.TransOrd κ]

/-- The value of the last entry of a list whose key compares equal to `k`. -/
def lastValue? (l : List (κ × α)) (k : κ) : Option α :=
  (l.reverse.find? fun e => compare k e.1 = .eq).map (·.2)

omit [Std.TransOrd κ] in
theorem lastValue?_cons (e : κ × α) (l : List (κ × α)) (k : κ) :
    lastValue? (e :: l) k =
      (lastValue? l k).or (if compare k e.1 = .eq then some e.2 else none) := by
  unfold lastValue?
  rw [List.reverse_cons, List.find?_append, Option.map_or]
  congr 1
  by_cases h : compare k e.1 = .eq <;> simp [h]

omit [Std.TransOrd κ] in
theorem lastValue?_append (l m : List (κ × α)) (k : κ) :
    lastValue? (l ++ m) k = (lastValue? m k).or (lastValue? l k) := by
  simp [lastValue?, List.find?_append, Option.map_or]

omit [Std.TransOrd κ] in
theorem map_lastValue? {β : Type} (f : α → β) (l : List (κ × α)) (k : κ) :
    (lastValue? l k).map f = lastValue? (l.map fun e => (e.1, f e.2)) k := by
  unfold lastValue?
  rw [← List.map_reverse, List.find?_map, Option.map_map, Option.map_map]
  rfl

theorem get?_insertMany (m : SortedMap κ α) (l : List (κ × α)) (k : κ) :
    (m.insertMany l).get? k = (lastValue? l k).or (m.get? k) := by
  unfold insertMany
  induction l generalizing m with
  | nil => rfl
  | cons e l ih =>
    rw [List.foldl_cons, ih, get?_insert, lastValue?_cons]
    cases lastValue? l k with
    | some v => rfl
    | none => by_cases h : compare k e.1 = .eq <;> simp [h]

theorem get?_ofList (l : List (κ × α)) (k : κ) : (ofList l).get? k = lastValue? l k := by
  rw [ofList, get?_insertMany, get?_empty, Option.or_none]

omit [Std.TransOrd κ] in
theorem mem_of_lastValue? {l : List (κ × α)} {k : κ} {v : α} (h : lastValue? l k = some v) :
    ∃ k', compare k k' = .eq ∧ (k', v) ∈ l := by
  obtain ⟨⟨k', v'⟩, hfind, rfl⟩ := Option.map_eq_some_iff.1 h
  have hkey := List.find?_some hfind
  exact ⟨k', by simpa using hkey, List.mem_reverse.1 (List.mem_of_find?_eq_some hfind)⟩

omit [Std.TransOrd κ] in
theorem lastValue?_eq_none_iff {l : List (κ × α)} {k : κ} :
    lastValue? l k = none ↔ ∀ e ∈ l, compare k e.1 ≠ .eq := by
  simp [lastValue?]

theorem lastValue?_entries (m : SortedMap κ α) (k : κ) : lastValue? m.entries k = m.get? k := by
  obtain ⟨entries, hsorted⟩ := m
  show lastValue? entries k = find k entries
  induction entries with
  | nil => rfl
  | cons e entries ih =>
    obtain ⟨hhead, htail⟩ := List.pairwise_cons.1 hsorted
    rw [lastValue?_cons, ih htail, find]
    split
    · rename_i hkey
      have hnone : find k entries = none := by
        rw [← ih htail, lastValue?_eq_none_iff]
        intro e' he'
        rw [Std.TransCmp.congr_left hkey, hhead e' he']
        exact Ordering.noConfusion
      rw [hnone, Option.none_or]
    · exact Option.or_none

theorem get?_insertMany_entries (m n : SortedMap κ α) (k : κ) :
    (m.insertMany n.entries).get? k = (n.get? k).or (m.get? k) := by
  rw [get?_insertMany, lastValue?_entries]

omit [Std.TransOrd κ] in
theorem split_of_lastValue? {l : List (κ × α)} {k : κ} {v : α} (h : lastValue? l k = some v) :
    ∃ before key after, l = before ++ (key, v) :: after ∧ compare k key = .eq ∧
      ∀ e ∈ after, compare k e.1 ≠ .eq := by
  obtain ⟨⟨key, v'⟩, hfind, rfl⟩ := Option.map_eq_some_iff.1 h
  obtain ⟨hkey, after, before, hsplit, hafter⟩ := List.find?_eq_some_iff_append.1 hfind
  refine ⟨before.reverse, key, after.reverse, ?_, by simpa using hkey, fun e he => ?_⟩
  · rw [← List.reverse_reverse l, hsplit]
    simp
  · simpa using hafter e (List.mem_reverse.1 he)

omit [Std.TransOrd κ] in
theorem lastValue?_eq_getLast? (l : List (κ × α)) (k : κ) :
    lastValue? l k = ((l.filter fun e => compare k e.1 = .eq).getLast?).map (·.2) := by
  unfold lastValue?
  rw [← List.head?_filter, List.filter_reverse, List.head?_reverse]

theorem exists_lastValue? {l : List (κ × α)} {k : κ} {v : α} (h : (k, v) ∈ l) :
    ∃ last, lastValue? l k = some last := by
  cases hnone : lastValue? l k with
  | some last => exact ⟨last, rfl⟩
  | none => exact absurd Std.ReflCmp.compare_self (lastValue?_eq_none_iff.1 hnone _ h)

omit [Std.TransOrd κ] in
theorem mem_insertEntry_value {k : κ} {v : α} {l : List (κ × α)} {e : κ × α}
    (h : e ∈ insertEntry k v l) : e.2 = v ∨ ∃ e' ∈ l, e'.2 = e.2 := by
  induction l with
  | nil =>
    rw [insertEntry, List.mem_singleton] at h
    exact .inl (h ▸ rfl)
  | cons d rest ih =>
    obtain ⟨k', v'⟩ := d
    rw [insertEntry] at h
    split at h
    · rcases List.mem_cons.1 h with rfl | h
      · exact .inl rfl
      · exact .inr ⟨e, h, rfl⟩
    · rcases List.mem_cons.1 h with rfl | h
      · exact .inl rfl
      · exact .inr ⟨e, List.mem_cons_of_mem _ h, rfl⟩
    · rcases List.mem_cons.1 h with rfl | h
      · exact .inr ⟨_, List.mem_cons_self, rfl⟩
      · obtain hnew | ⟨e', he', hold⟩ := ih h
        · exact .inl hnew
        · exact .inr ⟨e', List.mem_cons_of_mem _ he', hold⟩

theorem mem_values_insert {m : SortedMap κ α} {k : κ} {v x : α} (h : x ∈ (m.insert k v).values) :
    x = v ∨ x ∈ m.values := by
  obtain ⟨e, he, rfl⟩ := List.mem_map.1 h
  obtain hnew | ⟨e', he', hold⟩ := mem_insertEntry_value he
  · exact .inl hnew
  · exact .inr (List.mem_map.2 ⟨e', he', hold⟩)

theorem nodup_keys (m : SortedMap κ α) : m.keys.Nodup := by
  unfold keys
  refine List.pairwise_map.2 (m.sorted.imp fun {a b} h heq => ?_)
  have hself : compare b.1 b.1 = .eq := Std.ReflCmp.compare_self
  rw [heq, hself] at h
  cases h

theorem size_insert {m : SortedMap κ α} {k : κ} (h : m.get? k = none) (v : α) :
    (m.insert k v).size = m.size + 1 := by
  obtain ⟨entries, hsorted⟩ := m
  show (insertEntry k v entries).length = entries.length + 1
  replace h : find k entries = none := h
  clear hsorted
  induction entries with
  | nil => rfl
  | cons e entries ih =>
    rw [find] at h
    split at h
    · cases h
    · rename_i hkey
      rw [insertEntry]
      split
      · rfl
      · contradiction
      · exact congrArg (· + 1) (ih h)

omit [Std.TransOrd κ] in
theorem size_insertEntry (k : κ) (v : α) (l : List (κ × α)) :
    (insertEntry k v l).length ≤ l.length + 1 ∧ insertEntry k v l ≠ [] := by
  induction l with
  | nil => simp [insertEntry]
  | cons e l ih =>
    rw [insertEntry]
    split
    · simp
    · simp
    · exact ⟨Nat.succ_le_succ ih.1, List.cons_ne_nil _ _⟩

theorem size_insert_le (m : SortedMap κ α) (k : κ) (v : α) : (m.insert k v).size ≤ m.size + 1 :=
  (size_insertEntry k v m.entries).1

theorem size_insert_pos (m : SortedMap κ α) (k : κ) (v : α) : 0 < (m.insert k v).size :=
  List.length_pos_of_ne_nil (size_insertEntry k v m.entries).2

theorem get?_isSome_iff {m : SortedMap κ α} {k : κ} :
    (m.get? k).isSome ↔ ∃ k' ∈ m.keys, compare k k' = .eq := by
  rw [← lastValue?_entries, ← Option.ne_none_iff_isSome, Ne, lastValue?_eq_none_iff]
  simp [keys]

/-! ## Maps with the same look-ups -/

/-- Whether two maps hold the same entries, up to the spelling of their keys. -/
def Same (m n : SortedMap κ α) : Prop :=
  List.Forall₂ (fun a b => compare a.1 b.1 = .eq ∧ a.2 = b.2) m.entries n.entries

omit [Std.TransOrd κ] in
theorem find_of_lt {k : κ} {l : List (κ × α)} (h : ∀ e ∈ l, compare k e.1 = .lt) :
    find k l = none := by
  induction l with
  | nil => rfl
  | cons e l ih =>
    rw [find, if_neg (by simp [h e List.mem_cons_self])]
    exact ih fun e' he' => h e' (List.mem_cons_of_mem _ he')

theorem compare_of_find {a b : κ × α} {l l' : List (κ × α)}
    (hb : ∀ e ∈ l', compare b.1 e.1 = .lt)
    (h : ∀ k, find k (a :: l) = find k (b :: l')) : compare a.1 b.1 ≠ .lt := by
  intro hlt
  have hnone : find a.1 (b :: l') = none := by
    refine find_of_lt fun e he => ?_
    rcases List.mem_cons.1 he with rfl | he
    · exact hlt
    · exact Std.TransCmp.lt_trans hlt (hb e he)
  rw [← h, find, if_pos Std.ReflCmp.compare_self] at hnone
  cases hnone

theorem forall₂_of_find {l l' : List (κ × α)}
    (hl : l.Pairwise (fun a b => compare a.1 b.1 = .lt))
    (hl' : l'.Pairwise (fun a b => compare a.1 b.1 = .lt)) (h : ∀ k, find k l = find k l') :
    List.Forall₂ (fun a b => compare a.1 b.1 = .eq ∧ a.2 = b.2) l l' := by
  have hself : ∀ (a : κ × α) (l : List (κ × α)), find a.1 (a :: l) = some a.2 := fun a l => by
    rw [find, if_pos Std.ReflCmp.compare_self]
  induction l generalizing l' with
  | nil =>
    cases l' with
    | nil => exact .nil
    | cons b l' =>
      have hb := (hself b l').symm.trans (h b.1).symm
      cases hb
  | cons a l ih =>
    cases l' with
    | nil =>
      have ha := (hself a l).symm.trans (h a.1)
      cases ha
    | cons b l' =>
      obtain ⟨ha, hl⟩ := List.pairwise_cons.1 hl
      obtain ⟨hb, hl'⟩ := List.pairwise_cons.1 hl'
      have hkey : compare a.1 b.1 = .eq := by
        cases hcompare : compare a.1 b.1 with
        | lt => exact absurd hcompare (compare_of_find hb h)
        | eq => rfl
        | gt =>
          exact absurd (Std.OrientedCmp.lt_of_gt hcompare)
            (compare_of_find ha fun k => (h k).symm)
      refine .cons ⟨hkey, ?_⟩ (ih hl hl' fun k => ?_)
      · have hvalue := h a.1
        rw [hself, find, if_pos hkey] at hvalue
        exact Option.some.inj hvalue
      · by_cases hk : compare k a.1 = .eq
        · rw [find_congr hk, find_congr hk, find_of_lt ha, find_of_lt fun e he => ?_]
          rw [Std.TransCmp.congr_left hkey]
          exact hb e he
        · have hk' : compare k b.1 ≠ .eq := by rwa [← Std.TransCmp.congr_right hkey]
          have hrest := h k
          rwa [find, if_neg hk, find, if_neg hk'] at hrest

theorem same_iff {m n : SortedMap κ α} : m.Same n ↔ ∀ k, m.get? k = n.get? k := by
  refine ⟨fun h k => ?_, forall₂_of_find m.sorted n.sorted⟩
  unfold get?
  unfold Same at h
  generalize m.entries = l, n.entries = l' at h
  induction h with
  | nil => rfl
  | cons hab _ ih => rw [find, find, ih, hab.2, Std.TransCmp.congr_right hab.1]

omit [Std.TransOrd κ] in
theorem Same.size_eq {m n : SortedMap κ α} (h : m.Same n) : m.size = n.size :=
  List.Forall₂.length_eq h

/-! ## Keys that compare equal only when they are -/

variable [Std.LawfulEqOrd κ]

theorem eq_of_get? {m n : SortedMap κ α} (h : ∀ k, m.get? k = n.get? k) : m = n := by
  have hsame : m.Same n := same_iff.2 h
  refine SortedMap.ext (List.forall₂_eq_eq_eq ▸ hsame.imp fun a b hab => ?_)
  exact Prod.ext (Std.LawfulEqCmp.eq_of_compare hab.1) hab.2

theorem ofList_entries (m : SortedMap κ α) : ofList m.entries = m :=
  eq_of_get? fun k => by rw [get?_ofList, lastValue?_entries]

theorem lastValue?_eq_some_iff {l : List (κ × α)} (h : (l.map (·.1)).Nodup) {k : κ} {v : α} :
    lastValue? l k = some v ↔ (k, v) ∈ l := by
  constructor
  · intro hlast
    obtain ⟨key, hkey, hmem⟩ := mem_of_lastValue? hlast
    obtain rfl := Std.LawfulEqCmp.eq_of_compare hkey
    exact hmem
  · intro hmem
    obtain ⟨last, hlast⟩ := exists_lastValue? hmem
    obtain ⟨key, hkey, hmem'⟩ := mem_of_lastValue? hlast
    obtain rfl := Std.LawfulEqCmp.eq_of_compare hkey
    obtain ⟨-, rfl⟩ := Prod.mk.inj (List.inj_on_of_nodup_map h hmem hmem' rfl)
    exact hlast

theorem ofList_congr {l l' : List (κ × α)}
    (h : ∀ k, (l.filter fun e => compare k e.1 = .eq) = l'.filter fun e => compare k e.1 = .eq) :
    ofList l = ofList l' := by
  refine eq_of_get? fun k => ?_
  rw [get?_ofList, get?_ofList, lastValue?_eq_getLast?, lastValue?_eq_getLast?, h k]

/-- The order of entries with different keys does not matter. -/
theorem ofList_perm {l l' : List (κ × α)} (hperm : l.Perm l') (h : (l.map (·.1)).Nodup) :
    ofList l = ofList l' := by
  have h' : (l'.map (·.1)).Nodup := (hperm.map _).nodup_iff.1 h
  refine eq_of_get? fun k => Option.ext fun v => ?_
  rw [get?_ofList, get?_ofList, lastValue?_eq_some_iff h, lastValue?_eq_some_iff h',
    hperm.mem_iff]

theorem get?_insert_eq [DecidableEq κ] (m : SortedMap κ α) (k : κ) (v : α) (a : κ) :
    (m.insert k v).get? a = if a = k then some v else m.get? a := by
  rw [get?_insert]
  simp only [Std.LawfulEqCmp.compare_eq_iff_eq]

theorem get?_erase_eq [DecidableEq κ] (m : SortedMap κ α) (k a : κ) :
    (m.erase k).get? a = if a = k then none else m.get? a := by
  rw [get?_erase]
  simp only [Std.LawfulEqCmp.compare_eq_iff_eq]

theorem get?_insertIfNew_eq [DecidableEq κ] (m : SortedMap κ α) (k : κ) (v : α) (a : κ) :
    (m.insertIfNew k v).get? a = (m.get? a).or (if a = k then some v else none) := by
  unfold insertIfNew contains
  cases h : m.get? k with
  | some w =>
    by_cases ha : a = k
    · simp [ha, h]
    · simp [ha]
  | none =>
    rw [Option.isSome_none, if_neg Bool.false_ne_true, get?_insert_eq]
    by_cases ha : a = k
    · simp [ha, h]
    · simp [ha]

theorem get?_foldl_insertIfNew [DecidableEq κ] (m : SortedMap κ α) (l : List (κ × α)) (k : κ) :
    (l.foldl (fun m e => m.insertIfNew e.1 e.2) m).get? k =
      (m.get? k).or ((l.find? (·.1 = k)).map (·.2)) := by
  induction l generalizing m with
  | nil => exact Option.or_none.symm
  | cons e l ih =>
    rw [List.foldl_cons, ih, get?_insertIfNew_eq, Option.or_assoc, List.find?_cons]
    by_cases h : e.1 = k
    · simp [h]
    · simp [h, Ne.symm h]

omit [Std.TransOrd κ] in
theorem find_isSome_iff {k : κ} {l : List (κ × α)} :
    (find k l).isSome ↔ k ∈ l.map (·.1) := by
  induction l with
  | nil => simp [find]
  | cons e l ih =>
    have hkey : compare k e.1 = .eq ↔ k = e.1 := Std.LawfulEqCmp.compare_eq_iff_eq
    rw [find, List.map_cons, List.mem_cons, ← ih, ← hkey]
    split
    · rename_i h
      simp [h]
    · rename_i h
      simp [h]

omit [Std.TransOrd κ] in
theorem mem_keys {m : SortedMap κ α} {k : κ} : k ∈ m.keys ↔ (m.get? k).isSome :=
  find_isSome_iff.symm

theorem mem_keys_ofList {l : List (κ × α)} {k : κ} :
    k ∈ (ofList l).keys ↔ k ∈ l.map (·.1) := by
  rw [mem_keys, get?_ofList]
  constructor
  · intro h
    obtain ⟨v, hv⟩ := Option.isSome_iff_exists.1 h
    obtain ⟨k', hk, hmem⟩ := mem_of_lastValue? hv
    obtain rfl := Std.LawfulEqCmp.eq_of_compare hk
    exact List.mem_map.2 ⟨_, hmem, rfl⟩
  · intro h
    obtain ⟨e, he, rfl⟩ := List.mem_map.1 h
    obtain ⟨last, hlast⟩ := exists_lastValue? (k := e.1) (v := e.2) he
    rw [hlast]
    rfl

/-! ## Sorted entries -/

omit [Ord κ] [Std.TransOrd κ] [Std.LawfulEqOrd κ] in
theorem filter_mergeSort {le : α → α → Bool} {p : α → Bool}
    (htrans : ∀ a b c, le a b = true → le b c = true → le a c = true)
    (htotal : ∀ a b, (le a b || le b a) = true)
    (htied : ∀ a b, p a = true → p b = true → le a b = true) (l : List α) :
    (l.mergeSort le).filter p = l.filter p := by
  have hsorted : (l.filter p).Pairwise fun a b => le a b = true :=
    List.pairwise_of_forall_mem_list fun a ha b hb =>
      htied a b (List.mem_filter.1 ha).2 (List.mem_filter.1 hb).2
  have hsub : (l.filter p).Sublist (l.mergeSort le) :=
    List.sublist_mergeSort htrans htotal hsorted List.filter_sublist
  have hown : (l.filter p).filter p = l.filter p := by simp [List.filter_filter]
  have hsub : (l.filter p).Sublist ((l.mergeSort le).filter p) := by
    rw [← hown]
    exact hsub.filter p
  have hlength : ((l.mergeSort le).filter p).length = (l.filter p).length :=
    ((List.mergeSort_perm l le).filter p).length_eq
  exact (hsub.eq_of_length hlength.symm).symm

theorem ofList_mergeSort (l : List (κ × α)) :
    ofList (l.mergeSort fun a b => (compare a.1 b.1).isLE) = ofList l := by
  refine ofList_congr fun k => filter_mergeSort ?_ ?_ ?_ l
  · exact fun a b c hab hbc => Std.TransCmp.isLE_trans hab hbc
  · intro a b
    have hswap : compare b.1 a.1 = (compare a.1 b.1).swap := Std.OrientedCmp.eq_swap
    rw [hswap]
    cases compare a.1 b.1 <;> rfl
  · intro a b ha hb
    have hsame : compare a.1 b.1 = .eq :=
      Std.TransCmp.eq_trans (Std.OrientedCmp.eq_symm (of_decide_eq_true ha)) (of_decide_eq_true hb)
    rw [hsame]
    rfl

end ComponentBundle.SortedMap
