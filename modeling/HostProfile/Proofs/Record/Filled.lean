import HostProfile.Proofs.NativeText.Narrow
import HostProfile.Proofs.NativeText.Wide
import HostProfile.Proofs.Proxy.Filled
import HostProfile.Proofs.Record.Fields
import HostProfile.Proofs.Record.Properties

/-! Records without empty text. An assignment makes an empty value absent, but does not look into
the values that have parts: what a locale, the settings of a proxy or a list of instruction sets
brings along stays. -/
namespace HostProfile

open Text

/-! ### Filled values -/

structure Locale.Filled (l : Locale) : Prop where
  part : ∀ p, l.part p ≠ some ""
  codeset : l.codeset ≠ some ""

theorem Locale.filled_empty : Locale.Filled {} :=
  ⟨fun p => by cases p <;> simp [Locale.part], by simp⟩

theorem ByteOrder.unicodeName_ne_empty (b : ByteOrder) : b.unicodeName ≠ "" := by
  cases b <;> decide

theorem intercalate_ne_empty {sep : String} {xs : List String} (hne : xs ≠ []) (h : "" ∉ xs) :
    sep.intercalate xs ≠ "" := by
  cases xs with
  | nil => exact absurd rfl hne
  | cons x xs =>
    have hx : x ≠ "" := fun he => h (he ▸ List.mem_cons_self ..)
    cases xs with
    | nil => simpa using hx
    | cons y ys => simp [String.intercalate_cons_cons, hx]

/-! ### Native text -/

/-- Text that is not empty does not become empty. -/
theorem NativeText.ne_empty_of_toString? {t : NativeText} {v : String} (h : t.isEmpty = false)
    (hv : t.toString? = .ok v) : v ≠ "" := by
  rintro rfl
  cases t with
  | narrow bytes =>
    have hd := (toString?_narrow_eq_ok_iff bytes "").mp hv
    have hb : bytes = [] := (Utf8.decode?_eq_some_iff bytes []).mp hd
    simp [isEmpty, hb] at h
  | wide units =>
    have hd := (toString?_wide_eq_ok_iff units "").mp hv
    have hu : units = [] := (Utf16.decode?_eq_some_iff units []).mp hd
    simp [isEmpty, hu] at h

/-! ### Assignments -/

namespace Assignment

/-- No text in the value is there but empty. -/
def Filled : Assignment → Prop
  | .text _ value => value ≠ some ""
  | .native _ value => ∀ t, value = some t → t.isEmpty = false
  | .formatLocale value | .displayLocale value => value.Filled
  | .unicodeOrder _ => True
  | .instructionSets value => ∀ sets, value = some sets → sets ≠ [] ∧ "" ∉ sets
  | .proxy value => ∀ p, value = some p → p.Filled

/-- No part of the value is there but empty. A value without parts may be empty itself. -/
def Clean : Assignment → Prop
  | .text .. | .native .. | .unicodeOrder _ => True
  | .formatLocale value | .displayLocale value => value.Filled
  | .instructionSets value => ∀ sets, value = some sets → "" ∉ sets
  | .proxy value => ∀ p, value = some p → p.Filled

theorem filled_stored_iff (a : Assignment) : a.stored.Filled ↔ a.Clean := by
  cases a with
  | text f value => simp [stored, Filled, Clean, Option.filter_eq_some_iff]
  | native f value =>
    simp only [stored, Filled, Clean, Option.filter_eq_some_iff, iff_true]
    intro t ht
    simpa using ht.2
  | instructionSets value =>
    simp only [stored, Filled, Clean, Option.filter_eq_some_iff]
    constructor
    · intro h sets hs he
      have hne : sets ≠ [] := List.ne_nil_of_mem he
      exact (h sets ⟨hs, by simpa using hne⟩).2 he
    · intro h sets hs
      exact ⟨by simpa using hs.2, h sets hs.1⟩
  | _ => rfl

end Assignment

namespace Record

/-- No text anywhere in the record is there but empty. -/
structure Filled (r : Record) : Prop where
  text : ∀ f, r.text f ≠ some ""
  native : ∀ f t, r.native f = some t → t.isEmpty = false
  formatLocale : r.formatLocale.Filled
  displayLocale : r.displayLocale.Filled
  instructionSets : ∀ sets, r.instructionSets = some sets → sets ≠ [] ∧ "" ∉ sets
  proxy : ∀ p, r.proxy = some p → p.Filled

theorem filled_iff_content (r : Record) : r.Filled ↔ ∀ f, (r.content f).Filled := by
  constructor
  · intro h f
    cases f with
    | text f => exact h.text f
    | native f => exact h.native f
    | formatLocale => exact h.formatLocale
    | displayLocale => exact h.displayLocale
    | unicodeOrder => trivial
    | instructionSets => exact h.instructionSets
    | proxy => exact h.proxy
  · intro h
    exact ⟨fun f => h (.text f), fun f => h (.native f), h .formatLocale, h .displayLocale,
      h .instructionSets, h .proxy⟩

theorem filled_empty : Filled {} := by
  constructor
  case formatLocale => exact Locale.filled_empty
  case displayLocale => exact Locale.filled_empty
  all_goals simp

/-! ### What a run of assignments leaves -/

theorem filled_content_iff (as : List Assignment) (f : Field) :
    ((ofAssignments as).content f).Filled ↔ ∀ a, lastTo? as f = some a → a.Clean := by
  rw [content_ofAssignments_eq]
  cases lastTo? as f with
  | none => simpa using (filled_iff_content {}).mp filled_empty f
  | some a => simp [a.filled_stored_iff]

/-! ### Properties of a filled record -/

theorem Gives.ne_empty {r : Record} (h : r.Filled) {s : Source} {v : String} (hg : r.Gives s v) :
    v ≠ "" := by
  cases hg with
  | text ht => exact fun he => h.text _ (he ▸ ht)
  | native ht hv => exact NativeText.ne_empty_of_toString? (h.native _ _ ht) hv
  | displayPart hp => exact fun he => h.displayLocale.part _ (he ▸ hp)
  | formatPart hp => exact fun he => h.formatLocale.part _ (he ▸ hp)
  | unicodeOrder => exact r.unicodeOrder.unicodeName_ne_empty
  | instructionSets hs =>
    obtain ⟨hne, he⟩ := h.instructionSets _ hs
    exact intercalate_ne_empty hne he
  | proxyHost hp _ hh => exact fun he => ((h.proxy _ hp).endpoint _).host (he ▸ hh)
  | proxyPort hp _ hh => exact fun he => ((h.proxy _ hp).endpoint _).port (he ▸ hh)
  | httpBypass hp hne => exact intercalate_ne_empty hne (h.proxy _ hp).exceptions
  | ftpBypass hp hne => exact intercalate_ne_empty hne (h.proxy _ hp).exceptions

theorem Filled.get?_properties_ne_empty {r : Record} (h : r.Filled) (k : String) :
    r.properties.get? k ≠ some "" := by
  intro hk
  obtain ⟨s, -, hg⟩ := (r.get?_properties_eq_some_iff k "").mp hk
  exact hg.ne_empty h rfl

/-- Plain and native text is never stored empty, and neither is a list of instruction sets. The
parts of a value are stored as they come: there is no empty text in a record exactly if there was
none in the last value assigned to each field that has parts. No property is empty then. -/
theorem filled_ofAssignments (as : List Assignment) :
    (∀ f, (ofAssignments as).text f ≠ some "") ∧
    (∀ f t, (ofAssignments as).native f = some t → t.isEmpty = false) ∧
    (ofAssignments as).instructionSets ≠ some [] ∧
    ((ofAssignments as).Filled ↔ ∀ f a, lastTo? as f = some a → a.Clean) ∧
    ((ofAssignments as).Filled → ∀ k, (ofAssignments as).properties.get? k ≠ some "") := by
  have hs (f : Field) (hf : ∀ a : Assignment, a.field = f → a.Clean) :
      ((ofAssignments as).content f).Filled :=
    (filled_content_iff as f).mpr fun a ha => hf a (field_of_lastTo? ha)
  refine ⟨fun f => hs (.text f) ?text, fun f => hs (.native f) ?native, fun hi => ?sets, ?_,
    Filled.get?_properties_ne_empty⟩
  case text => rintro ⟨⟩ <;> simp [Assignment.field, Assignment.Clean]
  case native => rintro ⟨⟩ <;> simp [Assignment.field, Assignment.Clean]
  case sets =>
    have hc := content_ofAssignments_eq as .instructionSets
    cases hl : lastTo? as .instructionSets with
    | none => simp [content, hi, hl] at hc
    | some a =>
      have hf : a.field = .instructionSets := field_of_lastTo? hl
      cases a with
      | instructionSets value =>
        have hv : some [] = value.filter (!·.isEmpty) := by
          simpa [content, hi, hl, Assignment.stored] using hc
        simpa using (Option.filter_eq_some_iff.mp hv.symm).2
      | _ => cases hf
  · rw [filled_iff_content]
    exact forall_congr' (filled_content_iff as)

/-- A list of assignments that ends well: the empty language is replaced, the empty name dropped. -/
theorem filled_ofAssignments_replaced :
    let as : List Assignment := [.displayLocale { language := some "" }, .text .osName (some ""),
      .native .userDir (some (.narrow [0x2F])), .displayLocale { language := some "en" }]
    (ofAssignments as).native .userDir = some (.narrow [0x2F]) ∧
      (NativeText.narrow [0x2F]).isEmpty = false ∧ (ofAssignments as).text .osName = none ∧
      (∀ f a, lastTo? as f = some a → a.Clean) ∧ (ofAssignments as).Filled ∧
      (ofAssignments as).properties.get? "user.language" ≠ some "" := by
  intro as
  obtain ⟨-, hn, -, hf, hp⟩ := filled_ofAssignments as
  have hc : ∀ f a, lastTo? as f = some a → a.Clean := by
    intro f a ha
    have hm : a ∈ as := (List.mem_filter.mp (List.mem_of_getLast? ha)).1
    simp only [as, List.mem_cons, List.not_mem_nil, or_false] at hm
    rcases hm with rfl | rfl | rfl | rfl
    · obtain rfl : .displayLocale = f := field_of_lastTo? ha
      have hl : lastTo? as .displayLocale = some (.displayLocale { language := some "en" }) := rfl
      simp [hl] at ha
    · trivial
    · trivial
    · exact ⟨fun p => by cases p <;> simp [Locale.part], by simp⟩
  exact ⟨rfl, hn .userDir _ rfl, rfl, hc, hf.mpr hc, hp (hf.mpr hc) _⟩

/-- An empty part of a locale is stored, and is a property. -/
theorem ofAssignments_empty_language :
    let r := ofAssignments [.displayLocale { language := some "" }]
    r.displayLocale.language = some "" ∧ r.properties.get? "user.language" = some "" ∧
      ¬ r.Filled := by
  intro r
  have hl : r.displayLocale.language = some "" := rfl
  refine ⟨hl, ?_, fun h => h.displayLocale.part .language hl⟩
  exact (r.get?_properties_eq_some_iff ..).mpr ⟨.displayPart .language, rfl, .displayPart hl⟩

end Record

end HostProfile
