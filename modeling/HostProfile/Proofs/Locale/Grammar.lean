import HostProfile.Locale.Name
import HostProfile.Proofs.Text.Split

/-! The grammar of locale names. Text has one decomposition into the four parts, and it is the one
that cutting the text at its marks finds. -/
namespace HostProfile

open Text

/-- None of the marks occurs in the text. -/
def Without (marks : List Char) (s : String) : Prop :=
  ∀ m ∈ marks, m ∉ s.toList

instance (marks : List Char) (s : String) : Decidable (Without marks s) :=
  List.decidableBAll (fun m => m ∉ s.toList) marks

theorem without_ofList (marks cs : List Char) :
    Without marks (.ofList cs) ↔ ∀ m ∈ marks, m ∉ cs := by
  simp [Without]

namespace LocaleName

/-- No part but the modifier contains a mark that would end it. -/
structure WellFormed (n : LocaleName) : Prop where
  language : Without ['_', '.', '@'] n.language
  country : ∀ s ∈ n.country, Without ['.', '@'] s
  codeset : ∀ s ∈ n.codeset, Without ['@'] s

/-! ### Parts and text -/

/-- A part with its mark in front, if it is there. -/
def marked (m : Char) (part : Option String) : List Char :=
  (part.map fun s => m :: s.toList).getD []

theorem toList_toText (n : LocaleName) :
    n.toText.toList =
      n.language.toList ++ marked '_' n.country ++ marked '.' n.codeset ++ marked '@' n.modifier := by
  obtain ⟨l, c, s, m⟩ := n
  cases c <;> cases s <;> cases m <;> simp [toText, marked]

theorem not_mem_marked {c m : Char} {part : Option String} (hc : c ≠ m)
    (h : ∀ s ∈ part, c ∉ s.toList) : c ∉ marked m part := by
  cases part with
  | none => simp [marked]
  | some s =>
    have hs := h s rfl
    simp [marked, hc, hs]

theorem cut_marked {m : Char} {a : List Char} (h : m ∉ a) (part : Option String) :
    cut [m] (a ++ marked m part) = (a, part.map String.toList) := by
  cases part with
  | none => simp [marked, cut_of_not_mem h]
  | some s => simp [marked, cut_append h]

/-- A well-formed name is read back as it was put together. -/
theorem ofText_toText {n : LocaleName} (h : n.WellFormed) : ofText n.toText.toList = n := by
  have hu : '_' ∉ n.language.toList := h.language '_' (by simp)
  have hp : '.' ∉ n.language.toList ++ marked '_' n.country := by
    rw [List.mem_append, not_or]
    exact ⟨h.language '.' (by simp),
      not_mem_marked (by decide) fun s hs => h.country s hs '.' (by simp)⟩
  have ha : '@' ∉ n.language.toList ++ marked '_' n.country ++ marked '.' n.codeset := by
    rw [List.mem_append, List.mem_append, not_or, not_or]
    exact ⟨⟨h.language '@' (by simp),
      not_mem_marked (by decide) fun s hs => h.country s hs '@' (by simp)⟩,
      not_mem_marked (by decide) fun s hs => h.codeset s hs '@' (by simp)⟩
  have hid : ∀ part : Option String, (part.map String.toList).map String.ofList = part := by
    intro part
    cases part <;> simp
  unfold ofText
  rw [toList_toText, cut_marked ha]
  simp only [cut_marked hp, cut_marked hu, hid, String.ofList_toList]

theorem marked_map_ofList (m : Char) (part : Option (List Char)) :
    marked m (part.map .ofList) = (part.map (m :: ·)).getD [] := by
  cases part <;> simp [marked]

/-- Nothing is lost when text is taken apart. -/
theorem toText_ofText (cs : List Char) : (ofText cs).toText.toList = cs := by
  rw [toList_toText]
  simp only [ofText, marked_map_ofList, String.toList_ofList]
  rw [← (cut_cases '_' _).2, ← (cut_cases '.' _).2, ← (cut_cases '@' _).2]

theorem wellFormed_ofText (cs : List Char) : (ofText cs).WellFormed := by
  let rest := (cut ['@'] cs).1
  let names := (cut ['.'] rest).1
  have ha : '@' ∉ rest := (cut_cases '@' cs).1
  have hp : '.' ∉ names := (cut_cases '.' rest).1
  have hu : '_' ∉ (cut ['_'] names).1 := (cut_cases '_' names).1
  have hn : names ⊆ rest := cut_fst_subset '.' rest
  have hl : (cut ['_'] names).1 ⊆ names := cut_fst_subset '_' names
  constructor
  · change Without _ (String.ofList (cut ['_'] names).1)
    simp only [without_ofList, List.forall_mem_cons, List.not_mem_nil]
    exact ⟨hu, fun h => hp (hl h), fun h => ha (hn (hl h)), by simp⟩
  · intro s hs
    obtain ⟨b, hb, rfl⟩ := Option.map_eq_some_iff.mp hs
    have hsub : b ⊆ names := cut_snd_subset hb
    simp only [without_ofList, List.forall_mem_cons]
    exact ⟨fun h => hp (hsub h), fun h => ha (hn (hsub h)), by simp⟩
  · intro s hs
    obtain ⟨b, hb, rfl⟩ := Option.map_eq_some_iff.mp hs
    have hsub : b ⊆ rest := cut_snd_subset hb
    simp only [without_ofList, List.forall_mem_cons]
    exact ⟨fun h => ha (hsub h), by simp⟩

/-- A well-formed name whose text is the given one without the blanks around it. -/
structure Spells (n : LocaleName) (name : String) : Prop extends WellFormed n where
  text : n.toText.toList = trim name.toList

theorem spells_iff {n : LocaleName} {name : String} :
    n.Spells name ↔ n = ofText (trim name.toList) := by
  constructor
  · intro h
    rw [← h.text, ofText_toText h.toWellFormed]
  · rintro rfl
    exact ⟨wellFormed_ofText _, toText_ofText _⟩

theorem existsUnique_spells (name : String) : ∃! n : LocaleName, n.Spells name :=
  ⟨ofText (trim name.toList), spells_iff.mpr rfl, fun _ h => spells_iff.mp h⟩

end LocaleName

end HostProfile
