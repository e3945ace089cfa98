import HostProfile.Proofs.Locale.Canonical

/-! A tag is taken apart at its dashes, as long as no part has a dash in it. Names give no empty
parts, so that a tag is empty only where a name gives no part at all. -/
namespace HostProfile

open Text

/-- The pieces between the dashes of a text; the empty text is one piece. -/
def dashPieces (s : String) : List String :=
  (splitAll (· == '-') s.toList).map .ofList

theorem dashPieces_of_not_mem {s : String} (h : '-' ∉ s.toList) : dashPieces s = [s] := by
  have hc : ∀ c ∈ s.toList, (c == '-') = false := by
    intro c hc
    simpa using fun he : c = '-' => h (he ▸ hc)
  rw [dashPieces, splitAll_of_none hc, List.map_singleton, String.ofList_toList]

namespace Locale

open LocaleName

/-- The parts that are there, in the order of the tag. -/
def parts (l : Locale) : List String :=
  l.language.toList ++ l.script.toList ++ l.country.toList ++ l.variant.toList

/-- All there is of the locale is a language. -/
structure IsJust (l : Locale) (language : String) : Prop where
  language : l.language = some language
  script : l.script = none
  country : l.country = none
  variant : l.variant = none

variable {l : Locale}

theorem filterMap_part (l : Locale) : Part.all.filterMap l.part = l.parts := by
  obtain ⟨language, script, country, variant, codeset⟩ := l
  cases language <;> cases script <;> cases country <;> cases variant <;> rfl

theorem mem_parts_iff (s : String) : s ∈ l.parts ↔
    l.language = some s ∨ l.script = some s ∨ l.country = some s ∨ l.variant = some s := by
  simp only [parts, List.mem_append, Option.mem_toList, or_assoc]

theorem tag_eq (l : Locale) : l.tag = "-".intercalate l.parts := by
  rw [tag, filterMap_part]

theorem tag_codeset (l : Locale) (codeset : Option String) : { l with codeset }.tag = l.tag := by
  rw [tag_eq, tag_eq]
  rfl

/-- A tag tells its parts apart. -/
theorem dashPieces_tag (h : ∀ s ∈ l.parts, '-' ∉ s.toList) (hne : l.parts ≠ []) :
    dashPieces l.tag = l.parts := by
  have hl : l.tag.toList = ['-'].intercalate (l.parts.map String.toList) := by
    rw [tag_eq, String.toList_intercalate]
    rfl
  have hp : ∀ cs ∈ l.parts.map String.toList, ∀ c ∈ cs, (c == '-') = false := by
    intro cs hcs c hc
    obtain ⟨s, hs, rfl⟩ := List.mem_map.mp hcs
    simpa using fun he : c = '-' => h s hs (he ▸ hc)
  rw [dashPieces, hl, splitAll_intercalate (by simp) (by simpa using hne) hp, List.map_map]
  simp [Function.comp_def]

theorem tag_eq_empty_iff (h : ∀ s ∈ l.parts, s ≠ "") : l.tag = "" ↔ l.parts = [] := by
  rw [tag_eq]
  cases hp : l.parts with
  | nil => exact iff_of_true rfl rfl
  | cons s ss =>
    refine iff_of_false (fun he => ?_) (List.cons_ne_nil s ss)
    have hs : s ≠ "" := h s (hp ▸ List.mem_cons_self ..)
    cases ss with
    | nil => exact hs (by simpa using he)
    | cons t ss => simp [String.intercalate_cons_cons] at he

/-! ### Locales of names -/

theorem Canonical.ne_empty_of_mem_parts (hl : l.Canonical) {s : String} (hs : s ∈ l.parts) :
    s ≠ "" := by
  rcases (mem_parts_iff s).mp hs with h | h | h | h
  · exact (hl.language s h).1
  · rintro rfl
    obtain ⟨⟨m, hm⟩, -⟩ := hl.script "" h
    simp [scripts] at hm
  · exact (hl.country s h).1
  · exact (hl.variant s h).1

/-- A name without a dash denotes a locale without one. -/
theorem dash_not_mem_of_denotes {n : LocaleName} (hn : '-' ∉ n.toText.toList) (hd : n.Denotes l)
    {s : String} (hs : s ∈ l.parts) : '-' ∉ s.toList := by
  have halpha : Char.isAlpha '-' = false := by decide
  rw [toList_toText] at hn
  simp only [List.mem_append, not_or] at hn
  obtain ⟨⟨⟨hlanguage, hcountry⟩, -⟩, hmodifier⟩ := hn
  have hmark {m : Char} {part : Option String} (h : '-' ∉ marked m part) {t : String}
      (ht : part = some t) : '-' ∉ t.toList := by
    intro hm
    exact h (by simp [marked, ht, hm])
  rw [mem_parts_iff] at hs
  cases hd with
  | posix _ hl hsc hc hv =>
    rw [hl, hsc, hc, hv] at hs
    simp only [Option.some.injEq, reduceCtorEq, or_false] at hs
    subst hs
    decide
  | plain _ hl hc _ hsc hv =>
    rcases hs with h | h | h | h
    · obtain ⟨t, ht, -, rfl⟩ := (hl s).mp h
      obtain rfl := Option.some.inj ht
      exact (mem_toList_lower halpha _).not.mpr hlanguage
    · obtain ⟨m, -, hm⟩ := (hsc s).mp h
      simp only [scripts, List.mem_cons, Prod.mk.injEq, List.not_mem_nil, or_false] at hm
      rcases hm with ⟨-, rfl⟩ | ⟨-, rfl⟩ | ⟨-, rfl⟩ <;> decide
    · obtain ⟨t, ht, -, rfl⟩ := (hc s).mp h
      exact (mem_toList_upper halpha t).not.mpr (hmark hcountry ht)
    · obtain ⟨m, hm, -, -, -, rfl⟩ := (hv s).mp h
      exact (mem_toList_upper halpha m).not.mpr (hmark hmodifier hm)

theorem dash_not_mem_of_parse? {name : String} (h : parse? name = some l) (hd : '-' ∉ name.toList)
    {s : String} (hs : s ∈ l.parts) : '-' ∉ s.toList := by
  obtain ⟨n, hn, hl⟩ := exists_denotes_of_parse? h
  have ht : '-' ∉ n.toText.toList := by
    rw [hn.text]
    exact fun hm => hd (mem_of_mem_trim hm)
  exact dash_not_mem_of_denotes ht hl hs

/-- A tag that is neither in capitals nor a script, and has no dash, is a language. -/
theorem Canonical.tag_eq_iff (hl : l.Canonical) (hd : ∀ s ∈ l.parts, '-' ∉ s.toList) {m : String}
    (hne : m ≠ "") (hm : '-' ∉ m.toList) (hu : upper m ≠ m) (hs : ∀ name, (name, m) ∉ scripts) :
    l.tag = m ↔ l.IsJust m := by
  constructor
  · intro ht
    have hp : l.parts ≠ [] := by
      intro hp
      rw [tag_eq, hp] at ht
      exact hne ht.symm
    have hone : l.parts = [m] := by
      rw [← dashPieces_tag hd hp, ht, dashPieces_of_not_mem hm]
    have hmem : m ∈ l.parts := hone ▸ List.mem_singleton_self m
    have hscript : l.script ≠ some m := fun h => hs _ (hl.script m h).1.choose_spec
    have hcountry : l.country ≠ some m := fun h => hu (hl.country m h).2.1
    have hvariant : l.variant ≠ some m := fun h => hu (hl.variant m h).2
    have hlanguage : l.language = some m := by
      simpa [hscript, hcountry, hvariant] using (mem_parts_iff m).mp hmem
    rw [parts, hlanguage] at hone
    obtain ⟨hsc, hc, hv⟩ : l.script = none ∧ l.country = none ∧ l.variant = none := by
      simpa [and_assoc] using hone
    exact ⟨hlanguage, hsc, hc, hv⟩
  · intro h
    rw [tag_eq, parts, h.language, h.script, h.country, h.variant]
    simp

end Locale

end HostProfile
