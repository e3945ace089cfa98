import HostProfile.Charset
import Mathlib.Data.List.Basic

/-! Registered names of character sets are not renamed again. -/
namespace HostProfile.Charset

/-- The names that a change of name ends in. -/
def registered : List String :=
  [utf8, latin1, ascii, latin9]

theorem canonical_cases (name : String) :
    canonical name = name ∨ canonical name ∈ registered := by
  unfold canonical
  split_ifs
  · exact Or.inr (by decide)
  · exact Or.inr (by decide)
  · exact Or.inr (by decide)
  · exact Or.inl rfl

theorem canonicalCodeset_cases (name : String) :
    canonicalCodeset name = name ∨ canonicalCodeset name ∈ registered := by
  unfold canonicalCodeset
  split_ifs
  · exact Or.inr (by decide)
  · exact canonical_cases name

theorem canonical_registered : ∀ name ∈ registered, canonical name = name := by
  decide

theorem canonical_canonical (name : String) : canonical (canonical name) = canonical name := by
  rcases canonical_cases name with h | h
  · rw [h, h]
  · exact canonical_registered _ h

theorem canonicalCodeset_registered : ∀ name ∈ registered, canonicalCodeset name = name := by
  decide

theorem canonicalCodeset_canonicalCodeset (name : String) :
    canonicalCodeset (canonicalCodeset name) = canonicalCodeset name := by
  rcases canonicalCodeset_cases name with h | h
  · rw [h, h]
  · exact canonicalCodeset_registered _ h

/-- What a codeset is called in a locale is not renamed by the other reading either. -/
theorem canonical_canonicalCodeset (name : String) :
    canonical (canonicalCodeset name) = canonicalCodeset name := by
  unfold canonicalCodeset
  split_ifs
  · exact canonical_registered _ (by decide)
  · exact canonical_canonical name

/-- What holds of every registered name is kept by a change of name. -/
theorem canonicalCodeset_induction {p : String → Prop} (hr : ∀ name ∈ registered, p name)
    {name : String} (h : p name) : p (canonicalCodeset name) := by
  rcases canonicalCodeset_cases name with he | he
  · rwa [he]
  · exact hr _ he

private theorem eq_empty_iff_of_cases {f : String → String} (h0 : f "" = "")
    (hf : ∀ name, f name = name ∨ f name ∈ registered) (name : String) :
    f name = "" ↔ name = "" := by
  constructor
  · intro h
    rcases hf name with he | he
    · rw [← he, h]
    · rw [h] at he
      exact absurd he (by decide)
  · rintro rfl
    exact h0

theorem canonical_eq_empty_iff (name : String) : canonical name = "" ↔ name = "" :=
  eq_empty_iff_of_cases (by decide) canonical_cases name

theorem canonicalCodeset_eq_empty_iff (name : String) :
    canonicalCodeset name = "" ↔ name = "" :=
  eq_empty_iff_of_cases (by decide) canonicalCodeset_cases name

/-! ### The two readings of a name -/

/-- The names from before the registry, with the registered names. -/
def aliases : List (String × String) :=
  [("ISO8859-1", latin1), ("ISO8859-15", latin9), ("ANSI_X3.4-1968", ascii), ("ISO646-US", ascii)]

/-- UTF-8 in any case, with the dash or without. -/
def SpellsUtf8 (name : String) : Prop :=
  Text.lower name = "utf8" ∨ Text.lower name = "utf-8"

instance : DecidablePred SpellsUtf8 := fun _ => instDecidableOr

theorem equalsIgnoringCase_utf8_iff (name : String) :
    (Text.equalsIgnoringCase name "utf8" || Text.equalsIgnoringCase name "utf-8") = true ↔
      SpellsUtf8 name := by
  have hu : Text.lower "utf8" = "utf8" := by decide
  have hd : Text.lower "utf-8" = "utf-8" := by decide
  simp only [Text.equalsIgnoringCase, hu, hd, Bool.or_eq_true, beq_iff_eq, SpellsUtf8]

theorem canonical_alias : ∀ e ∈ aliases, canonical e.1 = e.2 := by
  decide

theorem not_spellsUtf8_alias : ∀ e ∈ aliases, ¬ SpellsUtf8 e.1 := by
  decide

theorem canonical_of_not_alias {name : String} (h : ∀ e ∈ aliases, e.1 ≠ name) :
    canonical name = name := by
  simp only [aliases, List.forall_mem_cons] at h
  obtain ⟨h₁, h₂, h₃, h₄, -⟩ := h
  simp [canonical, Ne.symm h₁, Ne.symm h₂, Ne.symm h₃, Ne.symm h₄]

theorem canonicalCodeset_of_spellsUtf8 {name : String} (h : SpellsUtf8 name) :
    canonicalCodeset name = utf8 := by
  rw [canonicalCodeset, if_pos ((equalsIgnoringCase_utf8_iff name).mpr h)]

theorem canonicalCodeset_of_not_spellsUtf8 {name : String} (h : ¬ SpellsUtf8 name) :
    canonicalCodeset name = canonical name := by
  rw [canonicalCodeset, if_neg ((equalsIgnoringCase_utf8_iff name).not.mpr h)]

theorem canonical_of_spellsUtf8 {name : String} (h : SpellsUtf8 name) : canonical name = name :=
  canonical_of_not_alias fun e he hn => not_spellsUtf8_alias e he (hn ▸ h)

/-- The two readings differ on the other spellings of UTF-8 only. -/
theorem canonicalCodeset_eq_canonical_iff (name : String) :
    canonicalCodeset name = canonical name ↔ (SpellsUtf8 name → name = utf8) := by
  by_cases h : SpellsUtf8 name
  · rw [canonicalCodeset_of_spellsUtf8 h, canonical_of_spellsUtf8 h]
    simp [h, eq_comm]
  · simp [canonicalCodeset_of_not_spellsUtf8 h, h]

/-! ### Names with one meaning -/

/-- The names of one character set each, the registered one last. -/
def synonyms : List (List String) :=
  [["ISO8859-1", "ISO-8859-1"], ["ISO8859-15", "ISO-8859-15"],
    ["ANSI_X3.4-1968", "ISO646-US", "US-ASCII"]]

theorem eq_of_mem_synonyms :
    ∀ names ∈ synonyms, ∀ others ∈ synonyms, ∀ name ∈ names, name ∈ others → names = others := by
  decide

theorem canonical_eq_of_mem_synonyms :
    ∀ names ∈ synonyms, ∀ name ∈ names, ∀ other ∈ names, canonical name = canonical other := by
  decide

theorem not_spellsUtf8_of_mem_synonyms : ∀ names ∈ synonyms, ∀ name ∈ names, ¬ SpellsUtf8 name := by
  decide

/-- A name is changed only to another one of the same character set. -/
theorem canonical_eq_self_or_synonym (name : String) :
    canonical name = name ∨ ∃ names ∈ synonyms, name ∈ names ∧ canonical name ∈ names := by
  by_cases h : ∀ e ∈ aliases, e.1 ≠ name
  · exact .inl (canonical_of_not_alias h)
  · push Not at h
    obtain ⟨e, he, rfl⟩ := h
    right
    revert e
    decide

theorem canonical_eq_canonical_iff (name other : String) :
    canonical name = canonical other ↔
      name = other ∨ ∃ names ∈ synonyms, name ∈ names ∧ other ∈ names := by
  constructor
  · intro h
    rcases canonical_eq_self_or_synonym name with hn | ⟨names, hs, hn, hc⟩
    · rcases canonical_eq_self_or_synonym other with ho | ⟨others, ht, ho, hd⟩
      · exact .inl (hn.symm.trans (h.trans ho))
      · rw [← h, hn] at hd
        exact .inr ⟨others, ht, hd, ho⟩
    · rcases canonical_eq_self_or_synonym other with ho | ⟨others, ht, ho, hd⟩
      · rw [h, ho] at hc
        exact .inr ⟨names, hs, hn, hc⟩
      · -- the name that both are changed to is in one list of synonyms only
        rw [← h] at hd
        obtain rfl := eq_of_mem_synonyms names hs others ht _ hc hd
        exact .inr ⟨names, hs, hn, ho⟩
  · rintro (rfl | ⟨names, hs, hn, ho⟩)
    · rfl
    · exact canonical_eq_of_mem_synonyms names hs _ hn _ ho

theorem spellsUtf8_canonical_iff (name : String) : SpellsUtf8 (canonical name) ↔ SpellsUtf8 name := by
  rcases canonical_eq_self_or_synonym name with h | ⟨names, hs, hn, hc⟩
  · rw [h]
  · exact iff_of_false (not_spellsUtf8_of_mem_synonyms names hs _ hc)
      (not_spellsUtf8_of_mem_synonyms names hs _ hn)

theorem canonicalCodeset_canonical (name : String) :
    canonicalCodeset (canonical name) = canonicalCodeset name := by
  by_cases h : SpellsUtf8 name
  · rw [canonical_of_spellsUtf8 h]
  · rw [canonicalCodeset_of_not_spellsUtf8 h,
      canonicalCodeset_of_not_spellsUtf8 ((spellsUtf8_canonical_iff name).not.mpr h),
      canonical_canonical]

/-- Only the spellings of UTF-8 are called UTF-8. -/
theorem canonicalCodeset_eq_utf8_iff (name : String) :
    canonicalCodeset name = utf8 ↔ SpellsUtf8 name := by
  constructor
  · intro h
    by_contra hn
    have hc : SpellsUtf8 (canonical name) := by
      rw [← canonicalCodeset_of_not_spellsUtf8 hn, h]
      decide
    exact hn ((spellsUtf8_canonical_iff name).mp hc)
  · exact canonicalCodeset_of_spellsUtf8

/-- Both readings leave alone what either has given, and the reading in a locale name takes two names
for one exactly if they are one, spell UTF-8 both or are synonyms. -/
theorem canonicalCodeset_exact (name : String) :
    canonical (canonical name) = canonical name ∧
    canonicalCodeset (canonicalCodeset name) = canonicalCodeset name ∧
    canonical (canonicalCodeset name) = canonicalCodeset name ∧
    canonicalCodeset (canonical name) = canonicalCodeset name ∧
    ∀ other, canonicalCodeset name = canonicalCodeset other ↔
      name = other ∨ (SpellsUtf8 name ∧ SpellsUtf8 other) ∨
        ∃ names ∈ synonyms, name ∈ names ∧ other ∈ names := by
  refine ⟨canonical_canonical name, canonicalCodeset_canonicalCodeset name,
    canonical_canonicalCodeset name, canonicalCodeset_canonical name, fun other => ?_⟩
  by_cases hn : SpellsUtf8 name
  · have hs : ¬ ∃ names ∈ synonyms, name ∈ names ∧ other ∈ names := by
      rintro ⟨names, hs, hm, -⟩
      exact not_spellsUtf8_of_mem_synonyms names hs name hm hn
    rw [canonicalCodeset_of_spellsUtf8 hn, eq_comm, canonicalCodeset_eq_utf8_iff]
    simp only [hn, hs, true_and, or_false]
    exact ⟨.inr, fun h => h.elim (fun he => he ▸ hn) id⟩
  · by_cases ho : SpellsUtf8 other
    · have hs : ¬ ∃ names ∈ synonyms, name ∈ names ∧ other ∈ names := by
        rintro ⟨names, hs, -, hm⟩
        exact not_spellsUtf8_of_mem_synonyms names hs other hm ho
      rw [canonicalCodeset_of_spellsUtf8 ho, canonicalCodeset_eq_utf8_iff]
      simp only [hn, hs, false_and, or_false, false_iff]
      rintro rfl
      exact hn ho
    · rw [canonicalCodeset_of_not_spellsUtf8 hn, canonicalCodeset_of_not_spellsUtf8 ho,
        canonical_eq_canonical_iff]
      simp only [hn, false_and, false_or]

end HostProfile.Charset
