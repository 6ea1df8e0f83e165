import ComponentBundle.Proofs.Css.Closed
import Mathlib.Data.List.Basic

/-!
# Compound selectors

A compound selector refers to the host in one of three forms, or it has a base and then its
pseudo-classes and pseudo-elements, from the first colon outside brackets and strings on. The scope
belongs between the two.

The scanner for that colon counts the brackets in strings as well. It finds the place exactly if the
count is right where it matters (`scopeCompound_iff`).
-/

namespace ComponentBundle.Css
open Text

/-- Whether a text is a reference to the host: `:host` that no other name continues, or
`:host-context` with arguments. -/
def RefersToHost (s : List Char) : Prop :=
  (∃ rest, s = ":host-context".toList ++ '(' :: rest) ∨
    ∃ rest, s = ":host".toList ++ rest ∧ ∀ c, rest.head? = some c → continuesName c = false

inductive Compound where
  /-- What stands in front of the first pseudo-class or pseudo-element, and the rest. -/
  | plain (base pseudo : List Char) (hbase : Closed baseText false base)
    (hpseudo : Closed compoundText false pseudo) (hcolon : pseudo = [] ∨ pseudo.head? = some ':')
    (hne : base ++ pseudo ≠ []) (hhost : ¬ RefersToHost (base ++ pseudo))
  | host (rest : List Char) (hrest : Closed compoundText false rest)
    (hname : ∀ c, rest.head? = some c → continuesName c = false ∧ c ≠ '(')
  | hostWith (args rest : List Char) (hargs : Closed compoundText true args)
    (hrest : Closed compoundText false rest)
  | hostContext (args rest : List Char) (hargs : Closed compoundText true args)
    (hrest : Closed compoundText false rest)

namespace Compound

def text : Compound → List Char
  | plain base pseudo .. => base ++ pseudo
  | host rest .. => ":host".toList ++ rest
  | hostWith args rest .. => ":host".toList ++ '(' :: (args ++ ')' :: rest)
  | hostContext args rest .. => ":host-context".toList ++ '(' :: (args ++ ')' :: rest)

def qualified (scope : Scope) : Compound → List Char
  | plain base pseudo .. => base ++ scope.element ++ pseudo
  | host rest .. => scope.host ++ rest
  | hostWith args rest .. => trimChars args ++ scope.host ++ rest
  | hostContext args rest .. => trimChars args ++ ' ' :: scope.host ++ rest

end Compound

/-- The number of brackets that are open behind a text, where quoted ones count as well. -/
def openBrackets (d : Nat) (s : List Char) : Nat := s.foldl (fun d c => weighBrackets c d) d

/-- Whether counting brackets, quoted ones too, tells the base of a compound selector from what
follows: every colon of the base stands where brackets are open, and none are at its end. -/
def Compound.CountsRight : Compound → Prop
  | plain base pseudo .. =>
    (∀ s t, base = s ++ ':' :: t → openBrackets 0 s ≠ 0) ∧ (pseudo ≠ [] → openBrackets 0 base = 0)
  | _ => True

/-! ## Closed texts of compound selectors -/

theorem Closed.append {k : TextKind} {inside : Bool} {s t : List Char} (hs : Closed k inside s)
    (ht : Closed k inside t) (hstar : t.head? ≠ some '*') : Closed k inside (s ++ t) := by
  induction hs with
  | nil => exact ht
  | @char inside c s hc hslash _ ih =>
    refine .char hc (fun h => ?_) (ih ht)
    cases s with
    | nil => exact hstar
    | cons a s => exact hslash h
  | string hquote hbody _ ih =>
    rw [List.cons_append, List.append_assoc]
    exact .string hquote hbody (ih ht)
  | comment hc hbody _ ih =>
    rw [List.cons_append, List.cons_append, List.append_assoc]
    exact .comment hc hbody (ih ht)
  | group hc hgroup _ _ ih =>
    rw [List.cons_append, List.append_assoc, List.cons_append]
    exact .group hc hgroup (ih ht)

theorem Closed.plain_append {k : TextKind} {inside : Bool} {s t : List Char}
    (hs : (s.all fun c => k.plain inside c && c != '/') = true) (ht : Closed k inside t) :
    Closed k inside (s ++ t) := by
  induction s with
  | nil => exact ht
  | cons c s ih =>
    rw [List.all_cons, Bool.and_eq_true, Bool.and_eq_true, bne_iff_ne] at hs
    exact .char hs.1.1 (fun h => absurd h hs.1.2) (ih hs.2)

theorem Compound.closed (c : Compound) : Closed compoundText false c.text := by
  cases c with
  | plain base pseudo hbase hpseudo hcolon hne hhost =>
    refine hbase.base.append hpseudo ?_
    rcases hcolon with rfl | hcolon
    · simp
    · simp [hcolon]
  | host rest hrest hname =>
    show Closed compoundText false (":host".toList ++ rest)
    exact .plain_append rfl hrest
  | hostWith args rest hargs hrest =>
    show Closed compoundText false (":host".toList ++ '(' :: (args ++ ')' :: rest))
    exact .plain_append rfl (.group rfl hargs hrest)
  | hostContext args rest hargs hrest =>
    show Closed compoundText false (":host-context".toList ++ '(' :: (args ++ ')' :: rest))
    exact .plain_append rfl (.group rfl hargs hrest)

theorem Compound.text_ne_nil (c : Compound) : c.text ≠ [] := by
  cases c with
  | plain base pseudo hbase hpseudo hcolon hne hhost => exact hne
  | host => exact List.append_ne_nil_of_left_ne_nil (by decide) _
  | hostWith => exact List.append_ne_nil_of_left_ne_nil (by decide) _
  | hostContext => exact List.append_ne_nil_of_left_ne_nil (by decide) _

theorem Closed.head_compound {s : List Char} (h : Closed compoundText false s) {c : Char}
    (hc : s.head? = some c) : isCombinator c = false ∧ c ≠ ',' := by
  cases h with
  | nil => cases hc
  | char hplain =>
    obtain rfl := Option.some.inj hc
    exact compoundText_plain_false hplain
  | string hquote =>
    obtain rfl := Option.some.inj hc
    obtain ⟨-, -, -, hcomma, -, hcomb⟩ := not_quote_slash (.inl hquote)
    exact ⟨hcomb, hcomma⟩
  | comment hcomments => cases hcomments
  | group hcloser =>
    obtain rfl := Option.some.inj hc
    rcases bracketCloser_eq_some hcloser with ⟨rfl, -⟩ | ⟨rfl, -⟩ <;> decide

/-! ## References to the host -/

theorem pseudoArguments?_of_passes {args rest : List Char}
    (h : Passes (delimiterScanner ')') 0 args (')' :: rest)) :
    pseudoArguments? ('(' :: (args ++ ')' :: rest)) = some (trimChars args, rest) := by
  show some (trimChars (cut (delimiterScanner ')') 0 (args ++ ')' :: rest)).1,
    (cut (delimiterScanner ')') 0 (args ++ ')' :: rest)).2.drop 1) = _
  rw [h.cut_eq rfl]
  rfl

theorem pseudoArguments?_closed {args rest : List Char} (h : Closed compoundText true args) :
    pseudoArguments? ('(' :: (args ++ ')' :: rest)) = some (trimChars args, rest) :=
  pseudoArguments?_of_passes (h.passes argumentScanner_walks (fun _ => trivial) (by simp))

theorem pseudoArguments?_eq_none {s : List Char} (h : s.head? ≠ some '(') :
    pseudoArguments? s = none := by
  unfold pseudoArguments?
  split
  · simp at h
  · rfl

theorem hostContext?_isSome_iff {s : List Char} :
    (hostContext? s).isSome ↔ ∃ rest, s = ":host-context".toList ++ '(' :: rest := by
  unfold hostContext?
  constructor
  · intro h
    obtain ⟨p, hp⟩ := Option.isSome_iff_exists.1 h
    obtain ⟨u, hu, hargs⟩ := Option.bind_eq_some_iff.1 hp
    rw [List.isPrefixOf?_eq_some_iff_append_eq] at hu
    cases u with
    | nil => cases hargs
    | cons c u =>
      by_cases hc : c = '('
      · subst hc
        exact ⟨u, hu.symm⟩
      · rw [pseudoArguments?_eq_none (by simpa using hc)] at hargs
        cases hargs
  · rintro ⟨rest, rfl⟩
    have hstarts : ":host-context".toList.isPrefixOf? (":host-context".toList ++ '(' :: rest) =
        some ('(' :: rest) := List.isPrefixOf?_eq_some_iff_append_eq.2 rfl
    rw [hstarts]
    rfl

theorem hostRest?_eq_some_iff {s rest : List Char} :
    hostRest? s = some rest ↔
      s = ":host".toList ++ rest ∧ ∀ c, rest.head? = some c → continuesName c = false := by
  unfold hostRest?
  cases hstarts : ":host".toList.isPrefixOf? s with
  | none =>
    have hnot : s ≠ ":host".toList ++ rest := by
      intro heq
      rw [List.isPrefixOf?_eq_some_iff_append_eq.2 heq.symm] at hstarts
      cases hstarts
    constructor
    · intro h
      cases h
    · exact fun h => absurd h.1 hnot
  | some u =>
    obtain rfl := List.isPrefixOf?_eq_some_iff_append_eq.1 hstarts
    rw [List.append_cancel_left_eq]
    show (if u.head?.any continuesName then none else some u) = some rest ↔ _
    cases u with
    | nil =>
      simp only [List.head?_nil, Option.any_none, Bool.false_eq_true, if_false, Option.some.injEq]
      constructor
      · rintro rfl
        exact ⟨rfl, fun c hc => by cases hc⟩
      · exact fun h => h.1
    | cons c u =>
      have hany : (c :: u).head?.any continuesName = continuesName c := rfl
      rw [hany]
      cases hname : continuesName c with
      | true =>
        constructor
        · intro h
          cases h
        · rintro ⟨rfl, h⟩
          have hfalse := h c rfl
          rw [hname] at hfalse
          cases hfalse
      | false =>
        constructor
        · intro h
          obtain rfl := Option.some.inj h
          refine ⟨rfl, fun d hd => ?_⟩
          obtain rfl := Option.some.inj hd
          exact hname
        · rintro ⟨rfl, -⟩
          rfl

theorem not_refersToHost_iff {s : List Char} :
    ¬ RefersToHost s ↔ hostContext? s = none ∧ hostRest? s = none := by
  unfold RefersToHost
  rw [not_or, ← hostContext?_isSome_iff, Option.not_isSome_iff_eq_none]
  refine and_congr_right fun _ => ?_
  rw [Option.eq_none_iff_forall_not_mem, not_exists]
  exact forall_congr' fun rest => not_congr hostRest?_eq_some_iff.symm

theorem hostContext?_closed {args rest : List Char} (h : Closed compoundText true args) :
    hostContext? (":host-context".toList ++ '(' :: (args ++ ')' :: rest)) =
      some (trimChars args, rest) := by
  unfold hostContext?
  rw [List.isPrefixOf?_eq_some_iff_append_eq.2 rfl]
  exact pseudoArguments?_closed h

theorem hostContext?_host {rest : List Char} (h : rest.head? ≠ some '-') :
    hostContext? (":host".toList ++ rest) = none := by
  rw [← Option.not_isSome_iff_eq_none, hostContext?_isSome_iff]
  rintro ⟨rest', heq⟩
  have hsplit : ":host-context".toList ++ '(' :: rest' =
      ":host".toList ++ ("-context".toList ++ '(' :: rest') := rfl
  rw [hsplit, List.append_cancel_left_eq] at heq
  exact h (congrArg List.head? heq)

/-! ## Where the scope goes -/

section Scoped

variable (scope : Scope)

theorem scopeCompound_host {rest : List Char}
    (hname : ∀ c, rest.head? = some c → continuesName c = false ∧ c ≠ '(') :
    scopeCompound scope (":host".toList ++ rest) = scope.host ++ rest := by
  have hdash : rest.head? ≠ some '-' := fun h => by
    have := (hname '-' h).1
    revert this
    decide
  have hparen : rest.head? ≠ some '(' := fun h => (hname '(' h).2 rfl
  unfold scopeCompound
  rw [hostContext?_host hdash, hostRest?_eq_some_iff.2 ⟨rfl, fun c hc => (hname c hc).1⟩]
  show scopeHost scope rest = _
  unfold scopeHost
  rw [pseudoArguments?_eq_none hparen]

theorem scopeCompound_hostWith {args rest : List Char} (hargs : Closed compoundText true args) :
    scopeCompound scope (":host".toList ++ '(' :: (args ++ ')' :: rest)) =
      trimChars args ++ scope.host ++ rest := by
  have hname : ∀ c, ('(' :: (args ++ ')' :: rest)).head? = some c → continuesName c = false := by
    intro c hc
    obtain rfl := Option.some.inj hc
    decide
  unfold scopeCompound
  rw [hostContext?_host (by simp), hostRest?_eq_some_iff.2 ⟨rfl, hname⟩]
  show scopeHost scope ('(' :: (args ++ ')' :: rest)) = _
  unfold scopeHost
  rw [pseudoArguments?_closed hargs]

theorem scopeCompound_hostContext {args rest : List Char}
    (hargs : Closed compoundText true args) :
    scopeCompound scope (":host-context".toList ++ '(' :: (args ++ ')' :: rest)) =
      trimChars args ++ ' ' :: scope.host ++ rest := by
  unfold scopeCompound
  rw [hostContext?_closed hargs]

theorem scopeCompound_plain {s : List Char} (h : ¬ RefersToHost s) :
    scopeCompound scope s =
      (cut pseudoScanner 0 s).1 ++ scope.element ++ (cut pseudoScanner 0 s).2 := by
  obtain ⟨hcontext, hhost⟩ := not_refersToHost_iff.1 h
  unfold scopeCompound
  rw [hcontext, hhost]

end Scoped

theorem cut_pseudoScanner_cons {d : Nat} {c : Char} (h : ¬ (d = 0 ∧ c = ':')) (rest : List Char) :
    cut pseudoScanner d (c :: rest) =
      (c :: (cut pseudoScanner (weighBrackets c d) rest).1,
        (cut pseudoScanner (weighBrackets c d) rest).2) := by
  have hlexeme : lexeme pseudoScanner.skips c rest = ([c], rest) := rfl
  rw [cut, if_neg, hlexeme]
  · rfl
  · simpa [pseudoScanner] using h

theorem colons_cons {d : Nat} {c : Char} {s : List Char} :
    (∀ t u, c :: s = t ++ ':' :: u → openBrackets d t ≠ 0) ↔
      ¬ (d = 0 ∧ c = ':') ∧ ∀ t u, s = t ++ ':' :: u → openBrackets (weighBrackets c d) t ≠ 0 := by
  constructor
  · intro h
    refine ⟨fun ⟨hd, hc⟩ => ?_, fun t u heq => h (c :: t) u (by rw [heq, List.cons_append])⟩
    exact h [] s (by rw [hc, List.nil_append]) hd
  · rintro ⟨hc, hs⟩ t u heq
    cases t with
    | nil =>
      obtain ⟨rfl, -⟩ := List.cons.inj heq
      exact fun hd => hc ⟨hd, rfl⟩
    | cons a t =>
      obtain ⟨rfl, htail⟩ := List.cons.inj heq
      exact hs t u htail

/-- The scan for the first colon goes on behind a text if every colon of it stands where brackets
are open. -/
theorem cut_pseudoScanner_append {d : Nat} {s : List Char}
    (h : ∀ t u, s = t ++ ':' :: u → openBrackets d t ≠ 0) (rest : List Char) :
    cut pseudoScanner d (s ++ rest) =
      (s ++ (cut pseudoScanner (openBrackets d s) rest).1,
        (cut pseudoScanner (openBrackets d s) rest).2) := by
  induction s generalizing d with
  | nil => rfl
  | cons c s ih =>
    obtain ⟨hc, hs⟩ := colons_cons.1 h
    rw [List.cons_append, cut_pseudoScanner_cons hc, ih hs]
    rfl

/-- The scan for the first colon comes out between a base and its pseudo-classes exactly if it meets
no colon outside brackets before, and leaves no bracket open. -/
theorem cut_pseudoScanner_iff {pseudo : List Char} (hcolon : pseudo = [] ∨ pseudo.head? = some ':')
    (d : Nat) (base : List Char) :
    cut pseudoScanner d (base ++ pseudo) = (base, pseudo) ↔
      (∀ s t, base = s ++ ':' :: t → openBrackets d s ≠ 0) ∧
        (pseudo ≠ [] → openBrackets d base = 0) := by
  induction base generalizing d with
  | nil =>
    rw [List.nil_append]
    cases pseudo with
    | nil => simp [cut]
    | cons c rest =>
      obtain rfl : c = ':' := by simpa using hcolon
      by_cases hd : d = 0
      · subst hd
        rw [cut_of_stops rest rfl]
        simp [openBrackets]
      · rw [cut_pseudoScanner_cons (fun h => hd h.1)]
        simp [openBrackets, hd]
  | cons c base ih =>
    by_cases hstop : d = 0 ∧ c = ':'
    · obtain ⟨rfl, rfl⟩ := hstop
      rw [List.cons_append, cut_of_stops _ rfl]
      constructor
      · intro h
        cases congrArg Prod.fst h
      · intro h
        exact absurd rfl (h.1 [] base rfl)
    · have hsplit : cut pseudoScanner d (c :: base ++ pseudo) = (c :: base, pseudo) ↔
          cut pseudoScanner (weighBrackets c d) (base ++ pseudo) = (base, pseudo) := by
        rw [List.cons_append, cut_pseudoScanner_cons hstop, Prod.mk.injEq, List.cons.injEq,
          Prod.ext_iff]
        simp
      rw [hsplit, ih, colons_cons, and_iff_right hstop]
      rfl

theorem eq_of_insert_eq {p q b r : List Char} (h : ∀ e, p ++ e ++ q = b ++ e ++ r) : p = b := by
  have hempty := h []
  rw [List.append_nil, List.append_nil] at hempty
  -- a character other than the one behind the shorter text would tell the places apart
  have hother : ∀ x : Char, ∃ y, y ≠ x := fun x =>
    if hx : x = 'a' then ⟨'b', by rw [hx]; decide⟩ else ⟨'a', Ne.symm hx⟩
  rcases List.append_eq_append_iff.1 hempty with ⟨a, rfl, rfl⟩ | ⟨a, rfl, rfl⟩
  · cases a with
    | nil => rw [List.append_nil]
    | cons x a =>
      obtain ⟨y, hy⟩ := hother x
      have hins := h [y]
      simp only [List.append_assoc, List.append_cancel_left_eq, List.cons_append,
        List.nil_append] at hins
      exact absurd (List.cons.inj hins).1 hy
  · cases a with
    | nil => rw [List.append_nil]
    | cons x a =>
      obtain ⟨y, hy⟩ := hother x
      have hins := h [y]
      simp only [List.append_assoc, List.append_cancel_left_eq, List.cons_append,
        List.nil_append] at hins
      exact absurd (List.cons.inj hins).1.symm hy

/-- The scope is put in the right place of a compound selector, whatever it is, exactly if counting
brackets tells the base from what follows. -/
theorem scopeCompound_iff (c : Compound) :
    (∀ scope, scopeCompound scope c.text = c.qualified scope) ↔ c.CountsRight := by
  cases c with
  | plain base pseudo hbase hpseudo hcolon hne hhost =>
    show (∀ scope, scopeCompound scope (base ++ pseudo) = base ++ scope.element ++ pseudo) ↔
      (∀ s t, base = s ++ ':' :: t → openBrackets 0 s ≠ 0) ∧
        (pseudo ≠ [] → openBrackets 0 base = 0)
    rw [← cut_pseudoScanner_iff hcolon]
    simp only [scopeCompound_plain _ hhost]
    constructor
    · intro h
      have hfirst : (cut pseudoScanner 0 (base ++ pseudo)).1 = base :=
        eq_of_insert_eq fun e => h ⟨e, []⟩
      have happend := cut_append pseudoScanner 0 (base ++ pseudo)
      rw [hfirst, List.append_cancel_left_eq] at happend
      exact Prod.ext hfirst happend
    · intro h scope
      rw [h]
  | host rest hrest hname => exact iff_of_true (fun scope => scopeCompound_host scope hname) trivial
  | hostWith args rest hargs hrest =>
    exact iff_of_true (fun scope => scopeCompound_hostWith scope hargs) trivial
  | hostContext args rest hargs hrest =>
    exact iff_of_true (fun scope => scopeCompound_hostContext scope hargs) trivial

theorem length_scopeCompound (scope : Scope) (c : Compound) :
    (scopeCompound scope c.text).length = (c.qualified scope).length := by
  cases c with
  | plain base pseudo hbase hpseudo hcolon hne hhost =>
    have happend := congrArg List.length (cut_append pseudoScanner 0 (base ++ pseudo))
    show (scopeCompound scope (base ++ pseudo)).length = (base ++ scope.element ++ pseudo).length
    rw [scopeCompound_plain scope hhost]
    simp only [List.length_append] at happend ⊢
    omega
  | host rest hrest hname => exact congrArg List.length (scopeCompound_host scope hname)
  | hostWith args rest hargs hrest =>
    exact congrArg List.length (scopeCompound_hostWith scope hargs)
  | hostContext args rest hargs hrest =>
    exact congrArg List.length (scopeCompound_hostContext scope hargs)

end ComponentBundle.Css
