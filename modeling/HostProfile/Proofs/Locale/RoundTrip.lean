import HostProfile.Proofs.Locale.Canonical

/-! A name that was read is written in a form that is read as the same locale. Blanks inside a name
are left out of account: one at the start or the end of a part can come to stand at the end of the
written name, where it is trimmed. -/
namespace HostProfile

open Text

namespace LocaleName

/-! ### Blanks -/

theorem forall_mem_marked {m : Char} (hm : isBlank m = false) (part : Option String) :
    (∀ c ∈ marked m part, isBlank c = false) ↔ ∀ s ∈ part, NoBlank s := by
  cases part with
  | none => simp [marked]
  | some s => simp [marked, hm, NoBlank]

theorem noBlank_toText_iff (n : LocaleName) :
    NoBlank n.toText ↔ NoBlank n.language ∧ (∀ s ∈ n.country, NoBlank s) ∧
      (∀ s ∈ n.codeset, NoBlank s) ∧ ∀ s ∈ n.modifier, NoBlank s := by
  unfold NoBlank
  rw [toList_toText]
  simp only [List.forall_mem_append, and_assoc]
  rw [forall_mem_marked (by decide), forall_mem_marked (by decide), forall_mem_marked (by decide)]
  rfl

theorem Gives.noBlank {f : String → String} {part result : Option String}
    (h : Gives f part result) (hf : ∀ s, NoBlank s → NoBlank (f s))
    (hp : ∀ s ∈ part, NoBlank s) : ∀ s ∈ result, NoBlank s := by
  intro s hs
  obtain ⟨c, hc, -, rfl⟩ := (h s).mp hs
  exact hf c (hp c hc)

theorem noBlank_canonicalCodeset (s : String) (h : NoBlank s) :
    NoBlank (Charset.canonicalCodeset s) :=
  Charset.canonicalCodeset_induction (by decide) h

theorem noBlank_of_mem_scripts : ∀ entry ∈ scripts, NoBlank entry.1 := by
  decide

theorem Denotes.noBlank_language {n : LocaleName} {l : Locale} (h : n.Denotes l)
    (hb : NoBlank n.language) : ∀ s ∈ l.language, NoBlank s := by
  cases h with
  | posix _ hl =>
    rw [hl]
    decide
  | plain _ hl =>
    refine hl.noBlank (fun _ hs => hs.lower) fun s hs => ?_
    obtain rfl := Option.some.inj hs
    exact hb

theorem Denotes.noBlank_country {n : LocaleName} {l : Locale} (h : n.Denotes l)
    (hb : ∀ s ∈ n.country, NoBlank s) : ∀ s ∈ l.country, NoBlank s := by
  cases h with
  | posix _ _ _ hc => simp [hc]
  | plain _ _ hc => exact hc.noBlank (fun _ hs => hs.upper) hb

theorem Denotes.noBlank_codeset {n : LocaleName} {l : Locale} (h : n.Denotes l)
    (hb : ∀ s ∈ n.codeset, NoBlank s) : ∀ s ∈ l.codeset, NoBlank s := by
  cases h with
  | posix _ _ _ _ _ hcs => exact hcs.noBlank noBlank_canonicalCodeset hb
  | plain _ _ _ hcs =>
    intro s hs
    rcases (hcs s).mp hs with ⟨c, hc, -, rfl⟩ | ⟨-, -, rfl⟩
    · exact noBlank_canonicalCodeset c (hb c hc)
    · decide

theorem Denotes.noBlank_variant {n : LocaleName} {l : Locale} (h : n.Denotes l)
    (hb : ∀ s ∈ n.modifier, NoBlank s) : ∀ s ∈ l.variant, NoBlank s := by
  cases h with
  | posix _ _ _ _ hv => simp [hv]
  | plain _ _ _ _ _ hv =>
    intro s hs
    obtain ⟨m, hm, -, -, -, rfl⟩ := (hv s).mp hs
    exact (hb m hm).upper

/-- Neither a change of spelling nor a part that is put in brings a blank into the name. -/
theorem Denotes.noBlank_toName {n : LocaleName} {l : Locale} (h : n.Denotes l)
    (hl : l.Canonical) (hb : NoBlank n.toText) : NoBlank l.toName.toText := by
  obtain ⟨hbl, hbc, hbs, hbm⟩ := (noBlank_toText_iff n).mp hb
  rw [noBlank_toText_iff]
  refine ⟨?language, h.noBlank_country hbc, h.noBlank_codeset hbs, fun m hm => ?modifier⟩
  case language =>
    change NoBlank (l.language.getD "")
    cases hs : l.language with
    | none => decide
    | some s => exact h.noBlank_language hbl s hs
  case modifier =>
    rcases (hl.modifier?_eq_some_iff m).mp hm with ⟨s, -, hs⟩ | ⟨-, hv⟩
    · exact noBlank_of_mem_scripts (m, s) hs
    · exact h.noBlank_variant hbm m hv

end LocaleName

namespace Locale

open LocaleName

/-! ### The written name -/

theorem Canonical.toText_ne_nil {l : Locale} (h : l.Canonical) (hl : l ≠ {}) :
    l.toName.toText.toList ≠ [] := by
  intro he
  have hn : l.toName = ofText [] := by
    rw [← he, ofText_toText h.wellFormed_toName]
  apply hl
  rw [← h.ofName_toName, hn]
  decide

/-- A canonical locale is read from the name written for it, unless trimming changes the name. -/
theorem Canonical.parse?_toText_toName {l : Locale} (h : l.Canonical)
    (ht : Trimmed l.toName.toText.toList) (hl : l ≠ {}) : parse? l.toName.toText = some l := by
  have hs : l.toName.Spells l.toName.toText := ⟨h.wellFormed_toName, (trim_of_trimmed ht).symm⟩
  have hb : ¬ AllBlank l.toName.toText.toList := by
    rw [← trim_eq_nil_iff, ← hs.text]
    exact h.toText_ne_nil hl
  rw [parse?_eq_some hb hs, h.ofName_toName]

/-- Reading the written name of a locale that was read gives the locale again. -/
theorem parse?_toName {name : String} {l : Locale} (hb : NoBlank name)
    (h : parse? name = some l) (hl : l ≠ {}) : parse? l.toName.toText = some l := by
  have hcan : l.Canonical := canonical_of_parse? h
  obtain ⟨n, hn, hd⟩ := exists_denotes_of_parse? h
  have hbn : NoBlank n.toText := by
    intro c hc
    rw [hn.text] at hc
    exact hb c (mem_of_mem_trim hc)
  have hbl : NoBlank l.toName.toText := hd.noBlank_toName hcan hbn
  exact hcan.parse?_toText_toName (trimmed_of_noBlank hbl) hl

theorem parse?_toName_marks_in_parts :
    let name := "_u_v.Utf8@latin.x@euro"
    let l : Locale := ⟨none, none, some "U_V", some "LATIN.X@EURO", some "UTF-8"⟩
    NoBlank name ∧ parse? name = some l ∧ l ≠ {} ∧
      l.toName.toText = "_U_V.UTF-8@LATIN.X@EURO" ∧ parse? l.toName.toText = some l := by
  intro name l
  have hb : NoBlank name := by decide
  have h : parse? name = some l := by decide
  have hl : l ≠ {} := by decide
  exact ⟨hb, h, hl, by decide, parse?_toName hb h hl⟩

end Locale

end HostProfile
