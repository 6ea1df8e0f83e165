import ComponentBundle.FilePath
import Mathlib.Data.List.TakeWhile

/-!
# Names below a directory

A text without separators that is neither empty nor `.` or `..` is a name, and a path that ends in
a name ends in it as a component (`getLast?_components_join`). So one directory has two names equal
as paths only if they are equal as texts (`eq_of_compare_join`).

Any relative text below a directory adds its own components to those of the directory
(`components_append_slash`), so whether two of them are equal as paths does not depend on the
directory. Separators that repeat or trail and inner or trailing dots add nothing
(`components_repeated_slash` and the lemmas after it).

`stem?_eq_some_iff` says what the stem of a path is.
-/

namespace ComponentBundle.FilePath

theorem pieces_ne_nil (s : List Char) : pieces s ≠ [] := by
  cases s with
  | nil => simp [pieces]
  | cons c rest =>
    rw [pieces]
    split
    · simp
    · split <;> simp

theorem pieces_cons_slash (s : List Char) : pieces ('/' :: s) = [] :: pieces s := by
  rw [pieces]
  split
  · rename_i h
    exact absurd h (pieces_ne_nil s)
  · rename_i piece more h
    simp [h]

theorem pieces_cons {c : Char} (hc : c ≠ '/') (s : List Char) {piece : List Char}
    {more : List (List Char)} (h : pieces s = piece :: more) :
    pieces (c :: s) = (c :: piece) :: more := by
  simp [pieces, h, hc]

theorem pieces_of_notMem {s : List Char} (h : '/' ∉ s) : pieces s = [s] := by
  induction s with
  | nil => rfl
  | cons c s ih =>
    rw [List.mem_cons, not_or] at h
    exact pieces_cons (Ne.symm h.1) s (ih h.2)

theorem pieces_append_slash (s t : List Char) :
    pieces (s ++ '/' :: t) = pieces s ++ pieces t := by
  induction s with
  | nil => exact pieces_cons_slash t
  | cons c s ih =>
    obtain ⟨piece, more, h⟩ := List.exists_cons_of_ne_nil (pieces_ne_nil s)
    rw [List.cons_append]
    by_cases hc : c = '/'
    · subst hc
      rw [pieces_cons_slash, pieces_cons_slash, ih, List.cons_append]
    · rw [h, List.cons_append] at ih
      rw [pieces_cons hc s h, pieces_cons hc _ ih, List.cons_append]

/-- The components of a text that stands behind a separator. -/
def componentsBelow (n : String) : List PathComponent :=
  (pieces n.toList).filterMap innerComponent?

theorem components_append_slash {s : String} (hs : s.toList ≠ []) (n : String) :
    (FilePath.mk (s ++ "/" ++ n)).components = (FilePath.mk s).components ++ componentsBelow n := by
  obtain ⟨first, rest, hpieces⟩ := List.exists_cons_of_ne_nil (pieces_ne_nil s.toList)
  have hbelow : pieces (s ++ "/" ++ n).toList = first :: (rest ++ pieces n.toList) := by
    rw [String.toList_append, String.toList_append, List.append_assoc]
    show pieces (s.toList ++ '/' :: n.toList) = _
    rw [pieces_append_slash, hpieces, List.cons_append]
  have habsolute : (FilePath.mk (s ++ "/" ++ n)).isAbsolute = (FilePath.mk s).isAbsolute := by
    obtain ⟨c, t, hc⟩ := List.exists_cons_of_ne_nil hs
    simp [isAbsolute, hc]
  unfold components componentsBelow
  simp only [hbelow, hpieces, habsolute, List.filterMap_append]
  split
  · rfl
  · split
    · rfl
    · rw [List.append_assoc]

section Spelling

variable {s : String} (hs : s.toList ≠ [])

include hs

theorem components_repeated_slash (n : String) :
    (FilePath.mk (s ++ "/" ++ ("/" ++ n))).components =
      (FilePath.mk (s ++ "/" ++ n)).components := by
  have hbelow : componentsBelow ("/" ++ n) = componentsBelow n := by
    unfold componentsBelow
    rw [String.toList_append, show "/".toList = ['/'] from rfl, List.singleton_append,
      pieces_cons_slash]
    rfl
  rw [components_append_slash hs, components_append_slash hs, hbelow]

theorem components_inner_dot (n : String) :
    (FilePath.mk (s ++ "/" ++ ("./" ++ n))).components =
      (FilePath.mk (s ++ "/" ++ n)).components := by
  have hbelow : componentsBelow ("./" ++ n) = componentsBelow n := by
    unfold componentsBelow
    have htext : ("./" ++ n).toList = ['.'] ++ '/' :: n.toList := String.toList_append
    rw [htext, pieces_append_slash]
    rfl
  rw [components_append_slash hs, components_append_slash hs, hbelow]

theorem components_trailing_slash :
    (FilePath.mk (s ++ "/" ++ "")).components = (FilePath.mk s).components := by
  rw [components_append_slash hs]
  exact List.append_nil _

theorem components_trailing_dot :
    (FilePath.mk (s ++ "/" ++ ".")).components = (FilePath.mk s).components := by
  rw [components_append_slash hs]
  exact List.append_nil _

end Spelling

example : compare (FilePath.mk "/src//./a.css/.") ⟨"/src/a.css"⟩ = .eq := by decide +kernel

/-- Whether a text is a name: the name of a file in some directory. -/
def IsName (n : String) : Prop :=
  '/' ∉ n.toList ∧ innerComponent? n.toList = some (.name n)

theorem isName_of_length {n : String} (hslash : '/' ∉ n.toList) (hlen : 2 < n.toList.length) :
    IsName n := by
  refine ⟨hslash, ?_⟩
  unfold innerComponent?
  rw [if_neg, if_neg, String.ofList_toList]
  · intro h
    simp [h] at hlen
  · rintro (h | h) <;> simp [h] at hlen

theorem IsName.not_isAbsolute {n : String} (h : IsName n) : isAbsolute ⟨n⟩ = false := by
  unfold isAbsolute
  cases hn : n.toList with
  | nil => rfl
  | cons c s =>
    have hc : c ≠ '/' := by
      rintro rfl
      exact h.1 (by simp [hn])
    simpa using hc

theorem getLast?_components {p : FilePath} {n : String} (h : IsName n) {s : List Char}
    (hp : p.text.toList = s ++ '/' :: n.toList) : p.components.getLast? = some (.name n) := by
  obtain ⟨first, rest, hs⟩ := List.exists_cons_of_ne_nil (pieces_ne_nil s)
  have hpieces : pieces p.text.toList = first :: (rest ++ [n.toList]) := by
    rw [hp, pieces_append_slash, pieces_of_notMem h.1, hs, List.cons_append]
  unfold components
  rw [hpieces]
  simp only [List.filterMap_append, List.filterMap_cons, h.2, List.filterMap_nil]
  split
  · rw [List.getLast?_cons, List.getLast?_concat, Option.getD_some]
  · split
    · rw [List.getLast?_cons, List.getLast?_concat, Option.getD_some]
    · rw [List.getLast?_append, List.getLast?_concat, Option.some_or]

theorem getLast?_components_name {n : String} (h : IsName n) :
    (FilePath.mk n).components.getLast? = some (.name n) := by
  have hhere : n.toList ≠ ['.'] := by
    intro hn
    have := h.2
    simp [hn, innerComponent?] at this
  unfold components
  simp only [pieces_of_notMem h.1, h.not_isAbsolute, hhere, h.2]
  rfl

theorem getLast?_components_join (p : FilePath) {n : String} (h : IsName n) :
    (p.join ⟨n⟩).components.getLast? = some (.name n) := by
  unfold join
  rw [if_neg (by simp [h.not_isAbsolute])]
  split
  · rename_i hlast
    cases hp : p.text.toList.getLast? with
    | none =>
      rw [List.getLast?_eq_none_iff] at hp
      have htext : p.text ++ n = n := by
        apply String.toList_injective
        simp [hp]
      rw [htext]
      exact getLast?_components_name h
    | some c =>
      simp only [hp, Option.all_some, beq_iff_eq] at hlast
      subst hlast
      obtain ⟨s, hs⟩ := List.getLast?_eq_some_iff.1 hp
      exact getLast?_components h (s := s) (by simp [hs])
  · exact getLast?_components h (s := p.text.toList) (by simp)

/-- Names of one directory are equal as paths only if they are equal as texts. -/
theorem eq_of_compare_join {p : FilePath} {m n : String} (hm : IsName m) (hn : IsName n)
    (h : compare (p.join ⟨m⟩) (p.join ⟨n⟩) = .eq) : m = n := by
  have hlast := congrArg List.getLast? (compare_eq_iff.1 h)
  rw [getLast?_components_join p hm, getLast?_components_join p hn] at hlast
  simpa using hlast

/-! ## Stems -/

/-- Whether a text is the stem of a name: all of it, unless a dot stands behind its first letter,
and else what stands in front of the last dot. -/
def IsNameStem (name stem : List Char) : Prop :=
  ('.' ∉ name.tail ∧ stem = name) ∨
    (stem ≠ [] ∧ ∃ extension, '.' ∉ extension ∧ name = stem ++ '.' :: extension)

theorem isNameStem_nameStem (name : List Char) : IsNameStem name (nameStem name) := by
  -- the name ends in what stands in front of the first dot of the reversed name
  let last := name.reverse.takeWhile (· != '.')
  have hlast : '.' ∉ last.reverse := by
    intro hmem
    have hdot := List.mem_takeWhile_imp (List.mem_reverse.1 hmem)
    simp at hdot
  have hname : (name.reverse.dropWhile (· != '.')).reverse ++ last.reverse = name := by
    rw [← List.reverse_append, List.takeWhile_append_dropWhile, List.reverse_reverse]
  unfold nameStem
  dsimp only
  cases hrest : name.reverse.dropWhile (· != '.') with
  | nil =>
    rw [hrest, List.reverse_nil, List.nil_append] at hname
    rw [if_pos List.drop_nil]
    exact .inl ⟨fun hdot => hlast (hname ▸ List.mem_of_mem_tail hdot), rfl⟩
  | cons dot before =>
    have hdot : dot = '.' := by
      have hhead := List.head?_dropWhile_not (· != '.') name.reverse
      simpa [hrest] using hhead
    rw [hrest, hdot, List.reverse_cons, List.append_assoc, List.singleton_append] at hname
    rw [List.drop_one, List.tail_cons]
    split
    · rename_i hbefore
      rw [hbefore, List.reverse_nil, List.nil_append] at hname
      exact .inl ⟨by rwa [← hname, List.tail_cons], rfl⟩
    · rename_i hbefore
      exact .inr ⟨by simpa using hbefore, last.reverse, hlast, hname.symm⟩

theorem IsNameStem.unique {name stem stem' : List Char} (h : IsNameStem name stem)
    (h' : IsNameStem name stem') : stem = stem' := by
  have hdot : ∀ {front extension : List Char}, front ≠ [] →
      '.' ∈ (front ++ '.' :: extension).tail := by
    intro front extension hne
    obtain ⟨c, rest, rfl⟩ := List.exists_cons_of_ne_nil hne
    simp
  rcases h with ⟨hnone, rfl⟩ | ⟨hne, extension, hextension, rfl⟩
  · rcases h' with ⟨-, rfl⟩ | ⟨hne', extension', -, hname'⟩
    · rfl
    · rw [hname'] at hnone
      exact absurd (hdot hne') hnone
  · rcases h' with ⟨hnone', -⟩ | ⟨-, extension', hextension', hname'⟩
    · exact absurd (hdot hne) hnone'
    · -- of two stems of different length, the extension of the shorter one has a dot
      rcases List.append_eq_append_iff.1 hname' with ⟨more, rfl, hmore⟩ | ⟨more, rfl, hmore⟩
      · cases more with
        | nil => rw [List.append_nil]
        | cons c more =>
          obtain ⟨-, rfl⟩ := List.cons.inj hmore
          simp at hextension
      · cases more with
        | nil => rw [List.append_nil]
        | cons c more =>
          obtain ⟨-, rfl⟩ := List.cons.inj hmore
          simp at hextension'

/-- Whether a path ends in a name with this stem. -/
def HasStem (p : FilePath) (stem : String) : Prop :=
  ∃ name, p.components.getLast? = some (.name name) ∧ IsNameStem name.toList stem.toList

theorem stem?_eq_some_iff {p : FilePath} {stem : String} :
    p.stem? = some stem ↔ p.HasStem stem := by
  unfold stem? HasStem
  constructor
  · intro h
    split at h
    · rename_i name hname
      obtain rfl := Option.some.inj h
      refine ⟨name, hname, ?_⟩
      rw [String.toList_ofList]
      exact isNameStem_nameStem name.toList
    · cases h
  · rintro ⟨name, hname, hstem⟩
    rw [hname]
    dsimp only
    rw [(isNameStem_nameStem name.toList).unique hstem, String.ofList_toList]

end ComponentBundle.FilePath
