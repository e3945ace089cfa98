import HostProfile.Proofs.Collect.Fields
import HostProfile.Proofs.Locale.Canonical
import HostProfile.Proofs.Processor
import HostProfile.Proofs.Record.Filled

/-! Collected records are well-formed on every host: there is no empty text in them, the parts of a
locale are spelled one way, and no instruction set is listed twice. -/
namespace HostProfile

open Text

/-! ### Locales -/

/-- The spelling of each part, in terms of its characters. -/
structure Locale.WellFormed (l : Locale) : Prop where
  filled : l.Filled
  language : ∀ s, l.language = some s →
    (∀ c ∈ s.toList, c.isUpper = false) ∧ Without ['_', '.', '@'] s
  country : ∀ s, l.country = some s →
    (∀ c ∈ s.toList, c.isLower = false) ∧ Without ['.', '@'] s
  script : ∀ s, l.script = some s → s ∈ ["Latn", "Cyrl", "Deva"] ∧ l.variant = none
  variant : ∀ s, l.variant = some s → ∀ c ∈ s.toList, c.isLower = false
  codeset : ∀ s, l.codeset = some s → Without ['@'] s ∧ Charset.canonicalCodeset s = s

theorem isUpper_eq_false_of_lower {s : String} (h : lower s = s) :
    ∀ c ∈ s.toList, c.isUpper = false := by
  intro c hc
  rw [← h, lower, String.toList_ofList] at hc
  obtain ⟨d, -, rfl⟩ := List.mem_map.mp hc
  exact d.isUpper_toLower_eq_false

theorem isLower_eq_false_of_upper {s : String} (h : upper s = s) :
    ∀ c ∈ s.toList, c.isLower = false := by
  intro c hc
  rw [← h, upper, String.toList_ofList] at hc
  obtain ⟨d, -, rfl⟩ := List.mem_map.mp hc
  exact d.isLower_toUpper_eq_false

namespace Locale

theorem script_of_mem_scripts {m s : String} (h : (m, s) ∈ LocaleName.scripts) :
    s ∈ ["Latn", "Cyrl", "Deva"] := by
  have hs : s ∈ LocaleName.scripts.map Prod.snd := List.mem_map_of_mem h
  exact hs

theorem Canonical.filled {l : Locale} (h : l.Canonical) : l.Filled := by
  constructor
  · intro p hp
    cases p with
    | language => exact (h.language _ hp).1 rfl
    | script =>
      obtain ⟨⟨m, hm⟩, -⟩ := h.script _ hp
      exact absurd (script_of_mem_scripts hm) (by decide)
    | country => exact (h.country _ hp).1 rfl
    | variant => exact (h.variant _ hp).1 rfl
  · intro hc
    exact (h.codeset _ hc).1 rfl

theorem Canonical.wellFormed {l : Locale} (h : l.Canonical) : l.WellFormed := by
  refine ⟨h.filled, fun s hs => ?_, fun s hs => ?_, fun s hs => ?_, fun s hs => ?_, fun s hs => ?_⟩
  · obtain ⟨-, hl, hw⟩ := h.language s hs
    exact ⟨isUpper_eq_false_of_lower hl, hw⟩
  · obtain ⟨-, hu, hw⟩ := h.country s hs
    exact ⟨isLower_eq_false_of_upper hu, hw⟩
  · obtain ⟨⟨m, hm⟩, hv⟩ := h.script s hs
    exact ⟨script_of_mem_scripts hm, hv⟩
  · exact isLower_eq_false_of_upper (h.variant s hs).2
  · obtain ⟨-, hc, hw⟩ := h.codeset s hs
    exact ⟨hw, hc⟩

theorem canonical_empty : Canonical {} := by
  constructor <;> simp

end Locale

/-! ### Records -/

namespace Collect

theorem canonical_locale (h : Host) (category : Locale.Category) :
    (locale h category).Canonical := by
  unfold locale
  cases hr : Locale.resolve? category h.textValue? with
  | none => exact Locale.canonical_empty
  | some l => exact Locale.canonical_of_parse? hr

theorem instructionSets_spec {h : Host} {sets : List String}
    (hs : (instructionSets h).value = some sets) : sets ≠ [] ∧ "" ∉ sets ∧ sets.Nodup := by
  unfold instructionSets at hs
  split at hs
  · obtain ⟨hne, hd, hm⟩ := Processor.instructionSets?_spec hs
    exact ⟨hne, fun he => (hm "" he).1 rfl, hd⟩
  · cases hs

theorem clean_found (c : Config) (h : Host) (f : Field) : (found c h f).Clean := by
  cases f with
  | formatLocale => exact (canonical_locale h .format).filled
  | displayLocale => exact (canonical_locale h .display).filled
  | instructionSets => exact fun sets hs => (instructionSets_spec hs).2.1
  | proxy => exact fun p hp => by cases hp
  | _ => trivial

end Collect

open Collect

/-- No text is empty, both locales are spelled one way, and a list of instruction sets has no
repetitions. -/
structure Record.WellFormed (r : Record) : Prop where
  filled : r.Filled
  formatLocale : r.formatLocale.WellFormed
  displayLocale : r.displayLocale.WellFormed
  instructionSets : ∀ sets, r.instructionSets = some sets → sets.Nodup

/-- The record with the proxies that a listing names, under a policy. -/
def Record.withListing (r : Record) (listing : String) (policy : Proxy.Policy) : Record :=
  { r with proxy := some ((Proxy.Settings.ofListing listing).applyPolicy policy).1 }

theorem Record.WellFormed.withListing {r : Record} (h : r.WellFormed) (listing : String)
    (policy : Proxy.Policy) : (r.withListing listing policy).WellFormed := by
  have hp : ∀ p, (r.withListing listing policy).proxy = some p → p.Filled := by
    rintro p ⟨⟩
    exact (Proxy.Settings.filled_ofListing listing).applyPolicy policy
  exact { h with filled := { h.filled with proxy := hp } }

theorem instructionSets_collect (c : Config) (h : Host) :
    (collect c h).instructionSets = (instructionSets h).value.filter (!·.isEmpty) :=
  Assignment.instructionSets.inj (content_collect c h .instructionSets)

theorem filled_collect (c : Config) (h : Host) : (collect c h).Filled := by
  refine (Record.filled_iff_content _).mpr fun f => ?_
  rw [content_collect, Assignment.filled_stored_iff]
  exact clean_found c h f

/-- A collection gives a well-formed record, and none of its properties is empty; and so it is with
proxies from any listing. -/
theorem wellFormed_collect (c : Config) (h : Host) :
    (collect c h).WellFormed ∧ (∀ k, (collect c h).properties.get? k ≠ some "") ∧
    ∀ listing : String,
      ((collect c h).withListing listing c.partialProxy).WellFormed ∧
      ∀ k, ((collect c h).withListing listing c.partialProxy).properties.get? k ≠ some "" := by
  have hw : (collect c h).WellFormed := by
    refine ⟨filled_collect c h, ?_, ?_, fun sets hs => ?_⟩
    · rw [formatLocale_collect]
      exact (canonical_locale h .format).wellFormed
    · rw [displayLocale_collect]
      exact (canonical_locale h .display).wellFormed
    · rw [instructionSets_collect, Option.filter_eq_some_iff] at hs
      exact (instructionSets_spec hs.1).2.2
  refine ⟨hw, hw.filled.get?_properties_ne_empty, fun listing => ?_⟩
  have hl := hw.withListing listing c.partialProxy
  exact ⟨hl, hl.filled.get?_properties_ne_empty⟩

end HostProfile
