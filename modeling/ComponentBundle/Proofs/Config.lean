import ComponentBundle.Config

/-!
# What a valid configuration guarantees

The namespace is an identifier of ASCII characters, so the directory named after it is one name
below its tree (`outputDir_of_valid`).
-/

namespace ComponentBundle

/-! ## Identifiers -/

theorem continuesIdentifier_ascii {c : Char} (h : Config.continuesIdentifier c = true) :
    c.toNat < 128 := by
  unfold Config.continuesIdentifier Char.isAlphanum Char.isAlpha Char.isUpper Char.isLower
    Char.isDigit at h
  simp only [Bool.or_eq_true, Bool.and_eq_true, decide_eq_true_eq, beq_iff_eq,
    UInt32.le_iff_toNat_le, ge_iff_le] at h
  change ((((65 ≤ c.toNat ∧ c.toNat ≤ 90) ∨ (97 ≤ c.toNat ∧ c.toNat ≤ 122)) ∨
    (48 ≤ c.toNat ∧ c.toNat ≤ 57)) ∨ c = '_') ∨ c = '$' at h
  rcases h with (((h | h) | h) | rfl) | rfl
  · omega
  · omega
  · omega
  · decide
  · decide

theorem toLower_ne_slash {c : Char} (h : Config.continuesIdentifier c = true) :
    c.toLower ≠ '/' := by
  have hall : ∀ n : Fin 128, Config.continuesIdentifier (Char.ofNat n) = true →
      (Char.ofNat n).toLower ≠ '/' := by decide
  have hc := hall ⟨c.toNat, continuesIdentifier_ascii h⟩
  rw [Char.ofNat_toNat] at hc
  exact hc h

theorem chars_of_isIdentifier {s : String} (h : Config.isIdentifier s = true) :
    s.toList ≠ [] ∧ ∀ c ∈ s.toList, Config.continuesIdentifier c = true := by
  unfold Config.isIdentifier at h
  cases hs : s.toList with
  | nil => simp [hs] at h
  | cons c rest =>
    simp only [hs, Bool.and_eq_true, List.all_eq_true] at h
    refine ⟨List.cons_ne_nil _ _, List.forall_mem_cons.2 ⟨?_, h.2⟩⟩
    have hstart := h.1
    simp only [Config.startsIdentifier, Config.continuesIdentifier, Char.isAlphanum,
      Bool.or_eq_true] at hstart ⊢
    exact hstart.imp_left (Or.imp_left Or.inl)

theorem lowerChars_of_ascii {s : List Char} (h : ∀ c ∈ s, c.toNat < 128) (before : List Char) :
    Text.lowerChars before s = s.map Char.toLower := by
  induction s generalizing before with
  | nil => rfl
  | cons c s ih =>
    have hc := h c List.mem_cons_self
    have hsigma : (c == 'Σ') = false := by
      rw [beq_eq_false_iff_ne]
      rintro rfl
      exact absurd hc (by decide)
    rw [Text.lowerChars, ih fun d hd => h d (.tail c hd), hsigma]
    simp [Text.lowerChar, hc]

/-! ## Valid configurations -/

section Valid

variable {config : Config}

theorem isIdentifier_of_valid (hvalid : config.problem? = none) :
    Config.isIdentifier config.appName = true := by
  unfold Config.problem? at hvalid
  split at hvalid
  · cases hvalid
  · rename_i h
    simpa using h

theorem outputDir_of_valid (hvalid : config.problem? = none) :
    config.outputDir.text.toList ≠ [] ∧ '/' ∉ config.outputDir.text.toList := by
  obtain ⟨hne, hchars⟩ := chars_of_isIdentifier (isIdentifier_of_valid hvalid)
  unfold Config.outputDir Text.lowercase
  rw [String.toList_ofList, lowerChars_of_ascii fun d hd => continuesIdentifier_ascii (hchars d hd)]
  constructor
  · exact fun h => hne (List.map_eq_nil_iff.1 h)
  · intro hslash
    obtain ⟨d, hd, hlower⟩ := List.mem_map.1 hslash
    exact toLower_ne_slash (hchars d hd) hlower

end Valid

end ComponentBundle
