import HostProfile.Proofs.Locale.Decoding

/-! The locales that names denote, and that each of them is denoted by the name written for it. -/
namespace HostProfile

open Text

theorem Without.lower {marks : List Char} {s : String} (h : Without marks s)
    (hm : ∀ m ∈ marks, m.isAlpha = false) : Without marks (lower s) :=
  fun m hmem => (mem_toList_lower (hm m hmem) s).not.mpr (h m hmem)

theorem Without.upper {marks : List Char} {s : String} (h : Without marks s)
    (hm : ∀ m ∈ marks, m.isAlpha = false) : Without marks (upper s) :=
  fun m hmem => (mem_toList_upper (hm m hmem) s).not.mpr (h m hmem)

namespace Locale

open LocaleName

/-- Every part is in its final spelling, and no part contains a mark that would end it in a name. -/
structure Canonical (l : Locale) : Prop where
  language : ∀ s ∈ l.language, s ≠ "" ∧ lower s = s ∧ Without ['_', '.', '@'] s
  country : ∀ s ∈ l.country, s ≠ "" ∧ upper s = s ∧ Without ['.', '@'] s
  codeset : ∀ s ∈ l.codeset, s ≠ "" ∧ Charset.canonicalCodeset s = s ∧ Without ['@'] s
  script : ∀ s ∈ l.script, (∃ m, (m, s) ∈ scripts) ∧ l.variant = none
  variant : ∀ s ∈ l.variant, s ≠ "" ∧ upper s = s

/-! ### Denoted locales are canonical -/

theorem canonicalCodeset_spec {c : String} (hne : c ≠ "") (hc : Without ['@'] c) :
    Charset.canonicalCodeset c ≠ "" ∧
      Charset.canonicalCodeset (Charset.canonicalCodeset c) = Charset.canonicalCodeset c ∧
      Without ['@'] (Charset.canonicalCodeset c) :=
  ⟨(Charset.canonicalCodeset_eq_empty_iff c).not.mpr hne,
    Charset.canonicalCodeset_canonicalCodeset c,
    Charset.canonicalCodeset_induction (by decide) hc⟩

theorem canonical_of_denotes {n : LocaleName} {l : Locale} (hn : n.WellFormed)
    (h : n.Denotes l) : l.Canonical := by
  cases h with
  | posix _ hl hs hc hv hcs =>
    constructor
    · rw [hl]
      decide
    · simp [hc]
    · intro s h
      obtain ⟨c, hc, hne, rfl⟩ := (hcs s).mp h
      exact canonicalCodeset_spec hne (hn.codeset c hc)
    · simp [hs]
    · simp [hv]
  | plain _ hl hc hcs hs hv =>
    constructor
    · intro s h
      obtain ⟨c, hc, hne, rfl⟩ := (hl s).mp h
      obtain rfl := Option.some.inj hc
      exact ⟨(lower_eq_empty_iff _).not.mpr hne, lower_lower _, hn.language.lower (by simp)⟩
    · intro s h
      obtain ⟨c, hc, hne, rfl⟩ := (hc s).mp h
      exact ⟨(upper_eq_empty_iff _).not.mpr hne, upper_upper _,
        (hn.country c hc).upper (by simp)⟩
    · intro s h
      rcases (hcs s).mp h with ⟨c, hc, hne, rfl⟩ | ⟨-, -, rfl⟩
      · exact canonicalCodeset_spec hne (hn.codeset c hc)
      · decide
    · intro s h
      obtain ⟨m, hm, hsm⟩ := (hs s).mp h
      refine ⟨⟨m, hsm⟩, Option.eq_none_iff_forall_ne_some.mpr fun v hv' => ?_⟩
      -- one modifier does not name a script and a variant
      obtain ⟨m', hm', -, -, hno, -⟩ := (hv v).mp hv'
      rw [hm] at hm'
      obtain rfl := Option.some.inj hm'
      exact hno s hsm
    · intro s h
      obtain ⟨m, -, hne, -, -, rfl⟩ := (hv s).mp h
      exact ⟨(upper_eq_empty_iff m).not.mpr hne, upper_upper m⟩

theorem canonical_of_parse? {name : String} {l : Locale} (h : parse? name = some l) :
    l.Canonical := by
  obtain ⟨n, hn, hd⟩ := exists_denotes_of_parse? h
  exact canonical_of_denotes hn.toWellFormed hd

/-! ### The name of a canonical locale -/

theorem modifier?_of_script {l : Locale} {m s : String} (h : l.script = some s)
    (hm : (m, s) ∈ scripts) : l.modifier? = some m := by
  simp only [scripts, List.mem_cons, Prod.mk.injEq, List.not_mem_nil, or_false] at hm
  rcases hm with ⟨rfl, rfl⟩ | ⟨rfl, rfl⟩ | ⟨rfl, rfl⟩ <;> simp [modifier?, h]

theorem modifier?_of_script_eq_none {l : Locale} (h : l.script = none) :
    l.modifier? = l.variant := by
  simp [modifier?, h]

theorem Canonical.wellFormed_toName {l : Locale} (h : l.Canonical) : l.toName.WellFormed := by
  refine ⟨?_, fun s hs => (h.country s hs).2.2, fun s hs => (h.codeset s hs).2.2⟩
  change Without _ (l.language.getD "")
  cases hl : l.language with
  | none => decide
  | some s => exact (h.language s hl).2.2

/-- A text in capitals is not one of the modifiers with a meaning of their own. -/
theorem not_special_of_upper {m : String} (h : upper m = m) :
    m ≠ "euro" ∧ ∀ script, (m, script) ∉ scripts := by
  constructor
  · rintro rfl
    exact absurd h (by decide)
  · intro script hm
    simp only [scripts, List.mem_cons, Prod.mk.injEq, List.not_mem_nil, or_false] at hm
    rcases hm with ⟨rfl, -⟩ | ⟨rfl, -⟩ | ⟨rfl, -⟩ <;> exact absurd h (by decide)

theorem Canonical.modifier?_eq_some_iff {l : Locale} (h : l.Canonical) (m : String) :
    l.modifier? = some m ↔
      (∃ s, l.script = some s ∧ (m, s) ∈ scripts) ∨ (l.script = none ∧ l.variant = some m) := by
  constructor
  · intro hm
    cases hs : l.script with
    | none => exact Or.inr ⟨rfl, (modifier?_of_script_eq_none hs).symm.trans hm⟩
    | some s =>
      obtain ⟨⟨m', hm'⟩, -⟩ := h.script s hs
      rw [modifier?_of_script hs hm'] at hm
      obtain rfl := Option.some.inj hm
      exact Or.inl ⟨s, rfl, hm'⟩
  · intro hh
    rcases hh with ⟨s, hs, hm⟩ | ⟨hs, hv⟩
    · exact modifier?_of_script hs hm
    · exact (modifier?_of_script_eq_none hs).trans hv

theorem Canonical.modifier?_ne_euro {l : Locale} (h : l.Canonical) :
    l.modifier? ≠ some "euro" := by
  intro he
  rcases (h.modifier?_eq_some_iff "euro").mp he with ⟨s, -, hs⟩ | ⟨-, hv⟩
  · simp [scripts] at hs
  · exact (not_special_of_upper (h.variant _ hv).2).1 rfl

theorem gives_self {f : String → String} {part : Option String}
    (h : ∀ s ∈ part, s ≠ "" ∧ f s = s) : Gives f part part := by
  intro s
  constructor
  · intro hs
    exact ⟨s, hs, (h s hs).1, (h s hs).2⟩
  · intro hh
    obtain ⟨c, hc, -, rfl⟩ := hh
    rw [(h c hc).2, hc]

theorem Canonical.not_isPosix_toName {l : Locale} (h : l.Canonical) : ¬ l.toName.IsPosix := by
  have hl : lower l.toName.language = l.toName.language := by
    change lower (l.language.getD "") = l.language.getD ""
    cases hl : l.language with
    | none => decide
    | some s => exact (h.language s hl).2.1
  intro hp
  rcases hp with hn | hn
  · rw [hn] at hl
    exact absurd hl (by decide)
  · rw [hn] at hl
    exact absurd hl (by decide)

/-- The name that is written for a canonical locale denotes it. -/
theorem Canonical.denotes_toName {l : Locale} (h : l.Canonical) : l.toName.Denotes l := by
  refine .plain h.not_isPosix_toName ?language (gives_self fun s hs => ?country) ?codeset
    ?script ?variant
  case language =>
    change Gives lower (some (l.language.getD "")) l.language
    cases hl : l.language with
    | none => simp [Gives]
    | some s =>
      refine gives_self fun t ht => ?_
      obtain ⟨hne, hs, -⟩ := h.language t (hl.trans ht)
      exact ⟨hne, hs⟩
  case country => exact ⟨(h.country s hs).1, (h.country s hs).2.1⟩
  case codeset =>
    have hc : Gives Charset.canonicalCodeset l.codeset l.codeset :=
      gives_self fun s hs => ⟨(h.codeset s hs).1, (h.codeset s hs).2.1⟩
    intro s
    rw [hc s]
    exact (or_iff_left fun he => h.modifier?_ne_euro he.2.1).symm
  case script =>
    intro s
    constructor
    · intro hs
      obtain ⟨⟨m, hm⟩, -⟩ := h.script s hs
      exact ⟨m, modifier?_of_script hs hm, hm⟩
    · intro hh
      obtain ⟨m, hm, hms⟩ := hh
      rcases (h.modifier?_eq_some_iff m).mp hm with ⟨t, ht, hmt⟩ | ⟨-, hv⟩
      · rw [ht, ← (scriptOf?_eq_some_iff m t).mpr hmt, (scriptOf?_eq_some_iff m s).mpr hms]
      · exact absurd hms ((not_special_of_upper (h.variant m hv).2).2 s)
  case variant =>
    intro s
    constructor
    · intro hv
      obtain ⟨hne, hu⟩ := h.variant s hv
      have hs : l.script = none := by
        refine Option.eq_none_iff_forall_ne_some.mpr fun t ht => ?_
        rw [(h.script t ht).2] at hv
        cases hv
      exact ⟨s, (modifier?_of_script_eq_none hs).trans hv, hne, (not_special_of_upper hu).1,
        (not_special_of_upper hu).2, hu⟩
    · intro hh
      obtain ⟨m, hm, -, -, hno, rfl⟩ := hh
      rcases (h.modifier?_eq_some_iff m).mp hm with ⟨t, -, hmt⟩ | ⟨-, hv⟩
      · exact absurd hmt (hno t)
      · rw [(h.variant m hv).2, hv]

theorem Canonical.ofName_toName {l : Locale} (h : l.Canonical) : ofName l.toName = l :=
  (denotes_ofName l.toName).unique h.denotes_toName

end Locale

end HostProfile
