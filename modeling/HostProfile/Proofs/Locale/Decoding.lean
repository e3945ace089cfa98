import HostProfile.Proofs.Charset
import HostProfile.Proofs.Locale.Grammar
import HostProfile.Proofs.Text.Case

/-! What a locale name denotes, part by part, and that reading a name finds exactly that. -/
namespace HostProfile

open Text

namespace LocaleName

/-- The result is `f` of the part, and nothing where the part is missing or empty. -/
def Gives (f : String → String) (part result : Option String) : Prop :=
  ∀ s, result = some s ↔ ∃ c, part = some c ∧ c ≠ "" ∧ f c = s

theorem Gives.eq_none_iff {f : String → String} {part result : Option String}
    (h : Gives f part result) : result = none ↔ part = none ∨ part = some "" := by
  constructor
  · intro hr
    cases part with
    | none => exact Or.inl rfl
    | some c =>
      by_contra hc
      have hs : result = some (f c) := (h _).mpr ⟨c, rfl, fun he => hc (by simp [he]), rfl⟩
      rw [hr] at hs
      cases hs
  · intro hp
    rw [Option.eq_none_iff_forall_ne_some]
    intro s hs
    obtain ⟨c, hc, hne, -⟩ := (h s).mp hs
    rcases hp with hp | hp
    · rw [hp] at hc
      cases hc
    · rw [hp] at hc
      exact hne (Option.some.inj hc).symm

/-- The modifiers that name a script. -/
def scripts : List (String × String) :=
  [("latin", "Latn"), ("cyrillic", "Cyrl"), ("devanagari", "Deva")]

def IsPosix (n : LocaleName) : Prop :=
  n.language = "C" ∨ n.language = "POSIX"

inductive Denotes (n : LocaleName) (l : Locale) : Prop where
  | posix (name : n.IsPosix) (language : l.language = some "en") (script : l.script = none)
      (country : l.country = none) (variant : l.variant = none)
      (codeset : Gives Charset.canonicalCodeset n.codeset l.codeset)
  | plain (name : ¬ n.IsPosix) (language : Gives lower (some n.language) l.language)
      (country : Gives upper n.country l.country)
      (codeset : ∀ s, l.codeset = some s ↔
        (∃ c, n.codeset = some c ∧ c ≠ "" ∧ Charset.canonicalCodeset c = s) ∨
        ((n.codeset = none ∨ n.codeset = some "") ∧ n.modifier = some "euro" ∧
          s = "ISO-8859-15"))
      (script : ∀ s, l.script = some s ↔ ∃ m, n.modifier = some m ∧ (m, s) ∈ scripts)
      (variant : ∀ s, l.variant = some s ↔ ∃ m, n.modifier = some m ∧ m ≠ "" ∧ m ≠ "euro" ∧
        (∀ script, (m, script) ∉ scripts) ∧ upper m = s)

private theorem eq_of_iff {r r' : Option String} {p : String → Prop}
    (h : ∀ s, r = some s ↔ p s) (h' : ∀ s, r' = some s ↔ p s) : r = r' :=
  Option.ext fun s => (h s).trans (h' s).symm

/-- A name denotes at most one locale. -/
theorem Denotes.unique {n : LocaleName} {l l' : Locale} (h : n.Denotes l) (h' : n.Denotes l') :
    l = l' := by
  obtain ⟨language, script, country, variant, codeset⟩ := l
  obtain ⟨language', script', country', variant', codeset'⟩ := l'
  cases h with
  | posix hn hl hs hc hv hcs =>
    cases h' with
    | posix _ hl' hs' hc' hv' hcs' =>
      rw [Locale.mk.injEq]
      exact ⟨hl.trans hl'.symm, hs.trans hs'.symm, hc.trans hc'.symm, hv.trans hv'.symm,
        eq_of_iff hcs hcs'⟩
    | plain hn' => exact absurd hn hn'
  | plain hn hl hc hcs hs hv =>
    cases h' with
    | posix hn' => exact absurd hn' hn
    | plain _ hl' hc' hcs' hs' hv' =>
      rw [Locale.mk.injEq]
      exact ⟨eq_of_iff hl hl', eq_of_iff hs hs', eq_of_iff hc hc', eq_of_iff hv hv',
        eq_of_iff hcs hcs'⟩

end LocaleName

namespace Locale

open LocaleName

theorem scriptOf?_eq_some_iff (m s : String) : scriptOf? m = some s ↔ (m, s) ∈ scripts := by
  unfold scriptOf?
  split_ifs with hl hc hd <;> simp_all [scripts, eq_comm]

theorem scriptOf?_isSome_iff (m : String) :
    (scriptOf? m).isSome = true ↔ ∃ s, (m, s) ∈ scripts := by
  simp only [Option.isSome_iff_exists, scriptOf?_eq_some_iff]

theorem variantOf?_eq_some_iff (m s : String) :
    variantOf? m = some s ↔
      m ≠ "" ∧ m ≠ "euro" ∧ (∀ script, (m, script) ∉ scripts) ∧ upper m = s := by
  unfold variantOf?
  split
  · next h =>
    rw [Bool.or_eq_true, decide_eq_true_eq, scriptOf?_isSome_iff] at h
    simp only [false_iff, reduceCtorEq]
    intro hh
    obtain ⟨-, he, hs, -⟩ := hh
    rcases h with h | ⟨script, h⟩
    · exact he h
    · exact hs script h
  · next h =>
    rw [Bool.or_eq_true, decide_eq_true_eq, scriptOf?_isSome_iff, not_or, not_exists] at h
    rw [nonEmpty?_eq_some_iff, Ne, upper_eq_empty_iff]
    simp only [ne_eq, h.1, h.2, not_false_eq_true, implies_true, true_and]

/-- A change of spelling that keeps the empty text empty gives what a part gives. -/
theorem gives_bind {f : String → String} (hf : ∀ s, f s = "" ↔ s = "") (part : Option String) :
    Gives f part (part.bind fun c => nonEmpty? (f c)) := by
  intro s
  simp only [Option.bind_eq_some_iff, nonEmpty?_eq_some_iff, ne_eq, hf]

theorem denotes_ofName (n : LocaleName) : n.Denotes (ofName n) := by
  have hcs := gives_bind Charset.canonicalCodeset_eq_empty_iff n.codeset
  by_cases hn : n.IsPosix
  · have hp : (n.language = "C" || n.language = "POSIX") = true := by
      simpa [IsPosix] using hn
    unfold ofName
    rw [if_pos hp]
    exact .posix hn rfl rfl rfl rfl hcs
  · have hp : ¬ (n.language = "C" || n.language = "POSIX") = true := by
      simpa [IsPosix] using hn
    unfold ofName
    rw [if_neg hp]
    refine .plain hn (gives_bind lower_eq_empty_iff (some n.language))
      (gives_bind upper_eq_empty_iff n.country) (fun s => ?_) (fun s => ?_) (fun s => ?_)
    · rw [Option.orElse_eq_orElse, Option.orElse_eq_or, Option.or_eq_some_iff, hcs s,
        hcs.eq_none_iff, Option.ite_none_right_eq_some, Option.some.injEq, eq_comm (a := s)]
      rfl
    · simp only [Option.bind_eq_some_iff, scriptOf?_eq_some_iff]
    · simp only [Option.bind_eq_some_iff, variantOf?_eq_some_iff]

theorem parse?_eq_none_iff (name : String) : parse? name = none ↔ AllBlank name.toList := by
  rw [← trim_eq_nil_iff, ← List.isEmpty_iff]
  unfold parse?
  by_cases h : (trim name.toList).isEmpty = true
  · rw [if_pos h]
    exact iff_of_true rfl h
  · rw [if_neg h]
    exact iff_of_false (Option.some_ne_none _) h

theorem parse?_eq_some {n : LocaleName} {name : String} (hb : ¬ AllBlank name.toList)
    (hn : n.Spells name) : parse? name = some (ofName n) := by
  rw [← trim_eq_nil_iff, ← List.isEmpty_iff] at hb
  unfold parse?
  rw [if_neg hb, spells_iff.mp hn]

theorem exists_denotes_of_parse? {name : String} {l : Locale} (h : parse? name = some l) :
    ∃ n : LocaleName, n.Spells name ∧ n.Denotes l := by
  have hb : ¬ AllBlank name.toList := by
    intro hb
    rw [(parse?_eq_none_iff name).mpr hb] at h
    cases h
  obtain ⟨n, hn, -⟩ := existsUnique_spells name
  rw [parse?_eq_some hb hn] at h
  obtain rfl := Option.some.inj h
  exact ⟨n, hn, denotes_ofName n⟩

theorem parse?_append {before after : List Char} (hb : AllBlank before) (ha : AllBlank after)
    (name : String) : parse? (.ofList (before ++ name.toList ++ after)) = parse? name := by
  unfold parse?
  rw [String.toList_ofList, trim_append hb ha]

/-- Names are read by their grammar: one decomposition of the text between the blanks, which denotes
the result. -/
theorem parse?_decodes (name : String) :
    (parse? name = none ↔ AllBlank name.toList) ∧
    (¬ AllBlank name.toList →
      (∃! n : LocaleName, n.Spells name) ∧
      ∀ n : LocaleName, n.Spells name → ∀ l, parse? name = some l ↔ n.Denotes l) ∧
    ∀ before after, AllBlank before → AllBlank after →
      parse? (.ofList (before ++ name.toList ++ after)) = parse? name := by
  refine ⟨parse?_eq_none_iff name, fun hb => ⟨existsUnique_spells name, fun n hn l => ?_⟩,
    fun before after hb ha => parse?_append hb ha name⟩
  rw [parse?_eq_some hb hn, Option.some.injEq]
  constructor
  · rintro rfl
    exact denotes_ofName n
  · exact (denotes_ofName n).unique

theorem parse?_decodes_padded :
    let name := "\tsr_RS_x.iso8859-15.y@latin "
    let n : LocaleName := ⟨"sr", some "RS_x", some "iso8859-15.y", some "latin"⟩
    let l : Locale := ⟨some "sr", some "Latn", some "RS_X", none, some "iso8859-15.y"⟩
    ¬ AllBlank name.toList ∧ n.Spells name ∧ n.Denotes l ∧
      parse? (.ofList (['\n'] ++ name.toList ++ [' '])) = some l := by
  intro name n l
  have hb : ¬ AllBlank name.toList := by decide
  have hn : n.Spells name := ⟨⟨by decide, by decide, by decide⟩, by decide⟩
  have hl : parse? name = some l := by decide
  obtain ⟨-, hd, hp⟩ := parse?_decodes name
  exact ⟨hb, hn, ((hd hb).2 n hn l).mp hl, (hp _ _ (by decide) (by decide)).trans hl⟩

end Locale

end HostProfile
