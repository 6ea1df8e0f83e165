/-!
# Maps kept in key order

`SortedMap κ α` is a list of entries with strictly increasing keys. Two keys are the same when
`compare` says so, which for file paths is coarser than equality of their spelling.

* `get?_insert`, `get?_erase` : what a change does to every look-up;
* `ext` : maps with the same entries are equal, so a map has one representation;
* writing to a key that is present keeps the first spelling of the key and the last value.
-/

namespace ComponentBundle

/-- Entries in strictly increasing key order. -/
structure SortedMap (κ : Type) (α : Type) [Ord κ] where
  entries : List (κ × α)
  sorted : entries.Pairwise (fun a b => compare a.1 b.1 = .lt)
  deriving DecidableEq

namespace SortedMap

variable {κ α β : Type} [Ord κ]

@[ext] theorem ext {m n : SortedMap κ α} (h : m.entries = n.entries) : m = n := by
  cases m; cases n; cases h; rfl

/-! ## Reading -/

def empty : SortedMap κ α := ⟨[], .nil⟩

instance : Inhabited (SortedMap κ α) := ⟨empty⟩
instance : EmptyCollection (SortedMap κ α) := ⟨empty⟩

/-- The value of the first entry whose key compares equal to `k`. -/
def find (k : κ) : List (κ × α) → Option α
  | [] => none
  | (k', v) :: rest => if compare k k' = .eq then some v else find k rest

def get? (m : SortedMap κ α) (k : κ) : Option α := find k m.entries

def contains (m : SortedMap κ α) (k : κ) : Bool := (m.get? k).isSome

def size (m : SortedMap κ α) : Nat := m.entries.length

def isEmpty (m : SortedMap κ α) : Bool := m.entries.isEmpty

/-- The keys in increasing order, each as first written. -/
def keys (m : SortedMap κ α) : List κ := m.entries.map (·.1)

def values (m : SortedMap κ α) : List α := m.entries.map (·.2)

@[simp] theorem get?_empty (k : κ) : (∅ : SortedMap κ α).get? k = none := rfl

/-! ## Writing -/

/-- Puts an entry in its place in a sorted list. -/
def insertEntry (k : κ) (v : α) : List (κ × α) → List (κ × α)
  | [] => [(k, v)]
  | (k', v') :: rest =>
    match compare k k' with
    | .lt => (k, v) :: (k', v') :: rest
    | .eq => (k', v) :: rest
    | .gt => (k', v') :: insertEntry k v rest

theorem mem_insertEntry {k : κ} {v : α} {l : List (κ × α)} {e : κ × α}
    (h : e ∈ insertEntry k v l) : e.1 = k ∨ ∃ e' ∈ l, e'.1 = e.1 := by
  induction l with
  | nil => simp only [insertEntry, List.mem_singleton] at h; exact .inl (h ▸ rfl)
  | cons p rest ih =>
    obtain ⟨k', v'⟩ := p
    simp only [insertEntry] at h
    split at h
    · rcases List.mem_cons.1 h with h | h
      · exact .inl (h ▸ rfl)
      · exact .inr ⟨e, h, rfl⟩
    · rcases List.mem_cons.1 h with h | h
      · exact .inr ⟨(k', v'), by simp, by simp [h]⟩
      · exact .inr ⟨e, List.mem_cons_of_mem _ h, rfl⟩
    · rcases List.mem_cons.1 h with h | h
      · exact .inr ⟨(k', v'), by simp, by simp [h]⟩
      · rcases ih h with h | ⟨e', he', h⟩
        · exact .inl h
        · exact .inr ⟨e', List.mem_cons_of_mem _ he', h⟩

theorem sorted_insertEntry [Std.TransOrd κ] (k : κ) (v : α) {l : List (κ × α)}
    (h : l.Pairwise (fun a b => compare a.1 b.1 = .lt)) :
    (insertEntry k v l).Pairwise (fun a b => compare a.1 b.1 = .lt) := by
  induction l with
  | nil => simp [insertEntry]
  | cons p rest ih =>
    obtain ⟨k', v'⟩ := p
    obtain ⟨hhead, htail⟩ := List.pairwise_cons.1 h
    simp only [insertEntry]
    split
    · rename_i hlt
      refine List.pairwise_cons.2 ⟨fun e he => ?_, h⟩
      rcases List.mem_cons.1 he with rfl | he
      · exact hlt
      · exact Std.TransCmp.lt_trans hlt (hhead e he)
    · exact List.pairwise_cons.2 ⟨fun e he => hhead e he, htail⟩
    · rename_i hgt
      refine List.pairwise_cons.2 ⟨fun e he => ?_, ih htail⟩
      rcases mem_insertEntry he with heq | ⟨e', he', heq⟩
      · exact heq ▸ Std.OrientedCmp.lt_of_gt hgt
      · exact heq ▸ hhead e' he'

/-- Stores a value. A key that is present keeps its spelling. -/
def insert [Std.TransOrd κ] (m : SortedMap κ α) (k : κ) (v : α) : SortedMap κ α :=
  ⟨insertEntry k v m.entries, sorted_insertEntry k v m.sorted⟩

def erase (m : SortedMap κ α) (k : κ) : SortedMap κ α :=
  ⟨m.entries.filter (fun e => compare k e.1 != .eq), m.sorted.filter _⟩

/-- Stores a value unless the key has one. -/
def insertIfNew [Std.TransOrd κ] (m : SortedMap κ α) (k : κ) (v : α) : SortedMap κ α :=
  if m.contains k then m else m.insert k v

/-- Stores the entries one after another, so the last value of a key wins. -/
def insertMany [Std.TransOrd κ] (m : SortedMap κ α) (l : List (κ × α)) : SortedMap κ α :=
  l.foldl (fun m e => m.insert e.1 e.2) m

/-- The map of a list of entries; the last value of a key wins. -/
def ofList [Std.TransOrd κ] (l : List (κ × α)) : SortedMap κ α := insertMany ∅ l

def eraseWhere (m : SortedMap κ α) (p : κ → Bool) : SortedMap κ α :=
  ⟨m.entries.filter (fun e => !p e.1), m.sorted.filter _⟩

/-! ## Look-ups after a change -/

section Lookup
variable [Std.TransOrd κ]

theorem find_congr {a k : κ} (h : compare a k = .eq) (l : List (κ × α)) :
    find a l = find k l := by
  induction l with
  | nil => rfl
  | cons p rest ih =>
    simp only [find, ih, Std.TransCmp.congr_left h]

theorem find_insertEntry (a k : κ) (v : α) {l : List (κ × α)}
    (h : l.Pairwise (fun a b => compare a.1 b.1 = .lt)) :
    find a (insertEntry k v l) = if compare a k = .eq then some v else find a l := by
  induction l with
  | nil => simp [insertEntry, find]
  | cons p rest ih =>
    obtain ⟨k', v'⟩ := p
    obtain ⟨hhead, htail⟩ := List.pairwise_cons.1 h
    simp only [insertEntry]
    split
    · simp [find]
    · rename_i heq
      by_cases hak : compare a k = .eq
      · simp [find, hak, Std.TransCmp.eq_trans hak heq]
      · have : compare a k' ≠ .eq := fun hc =>
          hak (Std.TransCmp.eq_trans hc (Std.OrientedCmp.eq_symm heq))
        simp [find, hak, this]
    · rename_i hgt
      simp only [find, ih htail]
      by_cases hak : compare a k = .eq
      · have : compare a k' = .gt := by rw [Std.TransCmp.congr_left hak]; exact hgt
        simp [hak, this]
      · simp [hak]

theorem get?_insert (m : SortedMap κ α) (k : κ) (v : α) (a : κ) :
    (m.insert k v).get? a = if compare a k = .eq then some v else m.get? a :=
  find_insertEntry a k v m.sorted

theorem get?_insert_self (m : SortedMap κ α) (k : κ) (v : α) :
    (m.insert k v).get? k = some v := by
  simp [get?_insert]

theorem find_filter_ne (a k : κ) (l : List (κ × α)) :
    find a (l.filter (fun e => compare k e.1 != .eq)) =
      if compare a k = .eq then none else find a l := by
  induction l with
  | nil => simp [find]
  | cons p rest ih =>
    by_cases hk : compare k p.1 = .eq
    · have hdrop : (p :: rest).filter (fun e => compare k e.1 != .eq) =
          rest.filter (fun e => compare k e.1 != .eq) := by simp [hk]
      rw [hdrop, ih]
      by_cases hak : compare a k = .eq
      · simp [hak]
      · have : compare a p.1 ≠ .eq := fun hc =>
          hak (Std.TransCmp.eq_trans hc (Std.OrientedCmp.eq_symm hk))
        simp [find, hak, this]
    · have hkeep : (p :: rest).filter (fun e => compare k e.1 != .eq) =
          p :: rest.filter (fun e => compare k e.1 != .eq) := by simp [hk]
      rw [hkeep]
      simp only [find, ih]
      by_cases hak : compare a k = .eq
      · have : compare a p.1 ≠ .eq := by rwa [Std.TransCmp.congr_left hak]
        simp [hak, this]
      · simp [hak]

theorem get?_erase (m : SortedMap κ α) (k a : κ) :
    (m.erase k).get? a = if compare a k = .eq then none else m.get? a :=
  find_filter_ne a k m.entries

theorem get?_congr (m : SortedMap κ α) {a k : κ} (h : compare a k = .eq) :
    m.get? a = m.get? k :=
  find_congr h m.entries

end Lookup

end SortedMap

end ComponentBundle
