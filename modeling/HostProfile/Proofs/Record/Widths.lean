import HostProfile.Cli.Report
import HostProfile.Proofs.NativeText.Lossy
import HostProfile.Proofs.Record.Properties

/-! One text in two widths. Nothing that is read off native text tells the narrow form of a text
from the wide one, and so no view of a record does either, whatever run of assignments has filled
it. -/
namespace HostProfile

open Text

/-! ### Native text -/

namespace NativeText

/-- Nothing that is read off two native texts tells them apart. -/
structure Alike (t u : NativeText) : Prop where
  isEmpty : t.isEmpty = u.isEmpty
  toString? : t.toString? = u.toString?
  toStringLossy : t.toStringLossy = u.toStringLossy

variable {t u : NativeText}

theorem Alike.refl (t : NativeText) : Alike t t := ⟨rfl, rfl, rfl⟩

theorem Alike.symm (h : Alike t u) : Alike u t :=
  ⟨h.isEmpty.symm, h.toString?.symm, h.toStringLossy.symm⟩

theorem Alike.describe (h : Alike t u) : t.describe = u.describe := by
  rw [NativeText.describe, NativeText.describe, h.toStringLossy]

theorem Alike.toJson (h : Alike t u) : t.toJson = u.toJson := by
  rw [NativeText.toJson, NativeText.toJson, h.toString?]

/-- The narrow form of a text and the wide one. -/
def narrowForm (s : String) : NativeText :=
  .narrow s.toUTF8.data.toList

def wideForm (s : String) : NativeText :=
  .wide (Utf16.encode s.toList)

theorem toString?_narrowForm (s : String) : (narrowForm s).toString? = .ok s :=
  (toString?_narrow_eq_ok_iff _ s).mpr (by rw [← Utf8.encode_toList, Utf8.decode?_encode])

theorem toString?_wideForm (s : String) : (wideForm s).toString? = .ok s :=
  (toString?_wide_eq_ok_iff _ s).mpr (Utf16.decode?_encode _)

theorem isEmpty_narrowForm (s : String) : (narrowForm s).isEmpty = s.isEmpty := by
  have hs : narrowForm s = ofString s := by rw [narrowForm, ofString, Utf8.encode_toList]
  rw [hs, Bool.eq_iff_iff, isEmpty_ofString, String.isEmpty_iff]

theorem isEmpty_wideForm (s : String) : (wideForm s).isEmpty = s.isEmpty := by
  rw [wideForm, isEmpty, Bool.eq_iff_iff, List.isEmpty_iff, Utf16.encode_eq_nil_iff,
    String.toList_eq_nil_iff, String.isEmpty_iff]

theorem alike_forms (s : String) : Alike (narrowForm s) (wideForm s) where
  isEmpty := (isEmpty_narrowForm s).trans (isEmpty_wideForm s).symm
  toString? := (toString?_narrowForm s).trans (toString?_wideForm s).symm
  toStringLossy :=
    (toStringLossy_of_toString? (toString?_narrowForm s)).trans
      (toStringLossy_of_toString? (toString?_wideForm s)).symm

end NativeText

/-! ### Assignments -/

/-- The same assignment, but that the text it sets may have changed its width. -/
inductive Assignment.SameText : Assignment → Assignment → Prop where
  | refl (a : Assignment) : SameText a a
  | widened (f : NativeField) (s : String) :
      SameText (.native f (some (.narrowForm s))) (.native f (some (.wideForm s)))
  | narrowed (f : NativeField) (s : String) :
      SameText (.native f (some (.wideForm s))) (.native f (some (.narrowForm s)))

namespace Record

/-- Records that differ at most in native text, and there in nothing that is read off it. -/
def NativeAlike (r q : Record) : Prop :=
  ∃ native, q = { r with native } ∧ ∀ f, Option.Rel NativeText.Alike (r.native f) (native f)

theorem rel_refl (v : Option NativeText) : Option.Rel NativeText.Alike v v := by
  cases v with
  | none => exact .none
  | some t => exact .some (.refl t)

theorem rel_filter {v w : Option NativeText} (h : Option.Rel NativeText.Alike v w) :
    Option.Rel NativeText.Alike (v.filter (!·.isEmpty)) (w.filter (!·.isEmpty)) := by
  cases h with
  | none => exact .none
  | @some t u h =>
    simp only [Option.filter_some, ← h.isEmpty]
    split
    · exact .some h
    · exact .none

theorem NativeAlike.refl (r : Record) : NativeAlike r r :=
  ⟨r.native, rfl, fun f => rel_refl (r.native f)⟩

theorem NativeAlike.assign_native {r q : Record} (h : NativeAlike r q) (f : NativeField)
    {v w : Option NativeText} (hv : Option.Rel NativeText.Alike v w) :
    NativeAlike (r.assign (.native f v)) (q.assign (.native f w)) := by
  obtain ⟨native, rfl, hn⟩ := h
  refine ⟨_, rfl, fun g => ?_⟩
  rw [native_assign_native]
  split
  · exact rel_filter hv
  · exact hn g

theorem NativeAlike.assign {r q : Record} (h : NativeAlike r q) {a b : Assignment}
    (hab : a.SameText b) : NativeAlike (r.assign a) (q.assign b) := by
  cases hab with
  | widened f s => exact h.assign_native f (.some (NativeText.alike_forms s))
  | narrowed f s => exact h.assign_native f (.some (NativeText.alike_forms s).symm)
  | refl a =>
    cases a with
    | native f v => exact h.assign_native f (rel_refl v)
    | _ =>
      obtain ⟨native, rfl, hn⟩ := h
      exact ⟨native, rfl, hn⟩

theorem nativeAlike_foldl {as bs : List Assignment} (h : List.Forall₂ Assignment.SameText as bs)
    {r q : Record} (hr : NativeAlike r q) :
    NativeAlike (as.foldl assign r) (bs.foldl assign q) := by
  induction h generalizing r q with
  | nil => exact hr
  | cons hab _ ih => exact ih (hr.assign hab)

theorem nativeAlike_ofAssignments {as bs : List Assignment}
    (h : List.Forall₂ Assignment.SameText as bs) :
    NativeAlike (ofAssignments as) (ofAssignments bs) :=
  nativeAlike_foldl h (.refl {})

/-! ### Views -/

theorem rel_cases {v w : Option NativeText} (h : Option.Rel NativeText.Alike v w) :
    v = none ∧ w = none ∨ ∃ t u, v = some t ∧ w = some u ∧ NativeText.Alike t u := by
  cases h with
  | none => exact Or.inl ⟨rfl, rfl⟩
  | some h => exact Or.inr ⟨_, _, rfl, rfl, h⟩

variable {r q : Record}

theorem NativeAlike.nativeEntry (h : NativeAlike r q) : q.nativeEntry = r.nativeEntry := by
  obtain ⟨native, rfl, hn⟩ := h
  funext f
  rcases rel_cases (hn f) with ⟨hr, hq⟩ | ⟨t, u, hr, hq, ht⟩
  · simp only [Record.nativeEntry, hr, hq]
  · simp only [Record.nativeEntry, hr, hq, ht.toJson]

theorem NativeAlike.toJson (h : NativeAlike r q) : q.toJson = r.toJson := by
  have hf := h.nativeEntry
  obtain ⟨native, rfl, -⟩ := h
  unfold Record.toJson
  rw [hf]
  rfl

theorem NativeAlike.property? (h : NativeAlike r q) : q.property? = r.property? := by
  obtain ⟨native, rfl, hn⟩ := h
  funext s
  cases s with
  | native f =>
    rcases rel_cases (hn f) with ⟨hr, hq⟩ | ⟨t, u, hr, hq, ht⟩
    · simp only [Record.property?, hr, hq]
    · simp only [Record.property?, hr, hq, Option.bind_some, ht.toString?]
  | _ => rfl

theorem NativeAlike.properties (h : NativeAlike r q) : q.properties = r.properties := by
  rw [Record.properties, Record.properties, h.property?]

theorem NativeAlike.propertyEvents (h : NativeAlike r q) : q.propertyEvents = r.propertyEvents := by
  obtain ⟨native, rfl, hn⟩ := h
  unfold Record.propertyEvents
  refine List.filterMap_congr fun f _ => Option.ext fun e => ?_
  rw [unconvertible?_eq_some_iff, unconvertible?_eq_some_iff]
  rcases rel_cases (hn f) with ⟨hr, hq⟩ | ⟨t, u, hr, hq, ht⟩
  · simp [hr, hq]
  · simp [hr, hq, ht.toString?]

theorem NativeAlike.nativeCell (h : NativeAlike r q) (colours : Bool) (f : NativeField) :
    Cli.nativeCell colours (q.native f) = Cli.nativeCell colours (r.native f) := by
  obtain ⟨native, rfl, hn⟩ := h
  rcases rel_cases (hn f) with ⟨hr, hq⟩ | ⟨t, u, hr, hq, ht⟩
  · simp only [hr, hq]
  · simp only [hr, hq, Cli.nativeCell, ht.toString?, ht.toStringLossy]

theorem NativeAlike.tableLines (h : NativeAlike r q) (colours : Bool) :
    Cli.tableLines colours q = Cli.tableLines colours r := by
  have hc := h.nativeCell colours
  obtain ⟨native, rfl, -⟩ := h
  have he : Cli.environmentLines colours { r with native } = Cli.environmentLines colours r := by
    simp only [Cli.environmentLines, hc]
  unfold Cli.tableLines
  rw [he]
  rfl

theorem NativeAlike.report (h : NativeAlike r q) (colours : Bool) (form : Cli.Format) :
    Cli.report colours q form = Cli.report colours r form := by
  cases form with
  | table => rw [Cli.report, Cli.report, h.tableLines]
  | json => rw [Cli.report, Cli.report, h.toJson]
  | properties =>
    rw [Cli.report, Cli.report, Cli.propertyLines, Cli.propertyLines, h.properties]

/-- The narrow form of a text and the wide one are empty together, convert to the text, and show,
describe and write it alike. Runs of assignments that differ only in the width of the native text
they set fill records with the same JSON form, properties, warnings and reports. -/
theorem views_of_sameText :
    (∀ s : String,
      (NativeText.narrowForm s).isEmpty = (NativeText.wideForm s).isEmpty ∧
      (NativeText.narrowForm s).toString? = .ok s ∧ (NativeText.wideForm s).toString? = .ok s ∧
      (NativeText.narrowForm s).toStringLossy = (NativeText.wideForm s).toStringLossy ∧
      (NativeText.narrowForm s).describe = (NativeText.wideForm s).describe ∧
      (NativeText.narrowForm s).toJson = (NativeText.wideForm s).toJson) ∧
    ∀ as bs : List Assignment, List.Forall₂ Assignment.SameText as bs →
      (ofAssignments bs).toJson = (ofAssignments as).toJson ∧
      (ofAssignments bs).properties = (ofAssignments as).properties ∧
      (ofAssignments bs).propertyEvents = (ofAssignments as).propertyEvents ∧
      ∀ (colours : Bool) (form : Cli.Format),
        Cli.report colours (ofAssignments bs) form =
          Cli.report colours (ofAssignments as) form := by
  refine ⟨fun s => ?_, fun as bs h => ?_⟩
  · have ha := NativeText.alike_forms s
    exact ⟨ha.isEmpty, NativeText.toString?_narrowForm s, NativeText.toString?_wideForm s,
      ha.toStringLossy, ha.describe, ha.toJson⟩
  · have ha := nativeAlike_ofAssignments h
    exact ⟨ha.toJson, ha.properties, ha.propertyEvents, ha.report⟩

/-- A directory whose name needs four bytes and two units, set wide in place of narrow, and a user
name that is dropped in either width because it is empty. -/
theorem views_of_sameText_smile :
    let as : List Assignment := [.native .userName (some (.narrow [0x61])),
      .native .userDir (some (.narrowForm "/😀")), .native .userName (some (.wideForm ""))]
    let bs : List Assignment := [.native .userName (some (.narrow [0x61])),
      .native .userDir (some (.wideForm "/😀")), .native .userName (some (.narrowForm ""))]
    List.Forall₂ Assignment.SameText as bs ∧
      (ofAssignments as).native .userDir = some (.narrow [0x2F, 0xF0, 0x9F, 0x98, 0x80]) ∧
      (ofAssignments bs).native .userDir = some (.wide [0x2F, 0xD83D, 0xDE00]) ∧
      (ofAssignments bs).toJson = (ofAssignments as).toJson ∧
      (ofAssignments bs).properties = (ofAssignments as).properties ∧
      Cli.report true (ofAssignments bs) .table = Cli.report true (ofAssignments as) .table := by
  intro as bs
  have h : List.Forall₂ Assignment.SameText as bs :=
    .cons (.refl _) (.cons (.widened .userDir "/😀") (.cons (.narrowed .userName "") .nil))
  obtain ⟨hj, hp, -, hr⟩ := views_of_sameText.2 as bs h
  exact ⟨h, by decide +kernel, by decide +kernel, hj, hp, hr true .table⟩

end Record

end HostProfile
