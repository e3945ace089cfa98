import HostProfile.Cli.Report
import HostProfile.Proofs.Record.Properties
import HostProfile.Proofs.Text.Escape
import HostProfile.Proofs.Text.Split
import HostProfile.Proofs.Text.Utf8

/-! The printed properties are read back. No value breaks a line, since its line feeds are escaped,
and no key does or moves the first `=`, since keys are fixed texts. So the text tells the map, entry by
entry and in the order of the keys. -/
namespace HostProfile

open Text

/-- No key of a property has an equals sign or a line feed in it. -/
theorem Record.Source.not_mem_key :
    ∀ s ∈ all, '=' ∉ s.key.toList ∧ '\n' ∉ s.key.toList := by
  decide +kernel

theorem Dictionary.ascending_bytes {α : Type} (d : Dictionary α) :
    d.entries.Pairwise fun a b => Utf8.encode a.1.toList < Utf8.encode b.1.toList :=
  d.ascending.imp fun h => Utf8.encode_lt_encode (String.lt_iff_toList_lt.mp h)

namespace Cli

/-! ### Reading -/

/-- A line is a key, the first equals sign and an escaped value. -/
def readProperty? (line : List Char) : Option (String × String) := do
  let (k, v) ← splitOnce? ['='] line
  return (.ofList k, .ofList (← unescapeList? v))

/-- The pieces between the line feeds of a text. -/
def pieces (text : String) : List (List Char) :=
  splitAll (· == '\n') text.toList

/-- Each line feed ends a property. -/
def readProperties? (text : String) : Option (List (String × String)) :=
  (pieces text).dropLast.mapM readProperty?

/-! ### One line -/

/-- The line of an entry. -/
def propertyLine (e : String × String) : String :=
  e.1 ++ "=" ++ escape e.2

theorem propertyLines_eq (r : Record) :
    propertyLines r = r.properties.entries.map propertyLine := rfl

theorem toList_propertyLine (e : String × String) :
    (propertyLine e).toList = e.1.toList ++ ['='] ++ (escape e.2).toList := by
  simp [propertyLine]

theorem readProperty?_propertyLine {e : String × String} (h : '=' ∉ e.1.toList) :
    readProperty? (propertyLine e).toList = some e := by
  unfold readProperty?
  rw [toList_propertyLine, splitOnce?_append h [] _]
  simp [unescapeList?_escape]

theorem not_mem_propertyLine {e : String × String} (h : '\n' ∉ e.1.toList) :
    '\n' ∉ (propertyLine e).toList := by
  have hv : '\n' ∉ (escape e.2).toList := not_mem_escape (by simp) e.2
  simp [toList_propertyLine, h, hv]

/-! ### All lines -/

theorem joinLines_cons (l : String) (ls : List String) :
    joinLines (l :: ls) = l ++ "\n" ++ joinLines ls := by
  simp [joinLines, String.join_cons]

theorem toList_joinLines (ls : List String) :
    (joinLines ls).toList = (ls.map String.toList).flatMap fun l => l ++ ['\n'] := by
  simp [joinLines, String.toList_join, List.flatMap_map]

/-- Lines without line feeds are told apart. -/
theorem pieces_joinLines {ls : List String} (h : ∀ l ∈ ls, '\n' ∉ l.toList) :
    pieces (joinLines ls) = ls.map String.toList ++ [[]] := by
  rw [pieces, toList_joinLines]
  refine splitAll_ended (s := '\n') (by simp) fun a ha c hc => ?_
  obtain ⟨l, hl, rfl⟩ := List.mem_map.mp ha
  have hn : c ≠ '\n' := fun he => h l hl (he ▸ hc)
  simpa using hn

theorem mapM_readProperty? {es : List (String × String)} (h : ∀ e ∈ es, '=' ∉ e.1.toList) :
    (es.map fun e => (propertyLine e).toList).mapM readProperty? = some es := by
  induction es with
  | nil => rfl
  | cons e es ih =>
    have he : readProperty? (propertyLine e).toList = some e :=
      readProperty?_propertyLine (h e (List.mem_cons_self ..))
    have hr := ih fun x hx => h x (List.mem_cons_of_mem _ hx)
    rw [List.map_cons, List.mapM_cons, he, hr]
    rfl

/-! ### Printed properties -/

theorem exists_key_eq_of_mem_entries {r : Record} {e : String × String}
    (h : e ∈ r.properties.entries) : ∃ s ∈ Record.Source.all, s.key = e.1 := by
  have hg : r.properties.get? e.1 = some e.2 := (r.properties.get?_eq_some_iff e.1 e.2).mpr h
  obtain ⟨s, hs, -⟩ := (r.get?_properties_eq_some_iff e.1 e.2).mp hg
  exact ⟨s, s.mem_all, hs⟩

theorem not_mem_key_of_mem_entries {r : Record} {e : String × String}
    (h : e ∈ r.properties.entries) : '=' ∉ e.1.toList ∧ '\n' ∉ e.1.toList := by
  obtain ⟨s, hs, he⟩ := exists_key_eq_of_mem_entries h
  rw [← he]
  exact Record.Source.not_mem_key s hs

theorem pieces_report (colours : Bool) (r : Record) :
    pieces (report colours r .properties) =
      r.properties.entries.map (fun e => (propertyLine e).toList) ++ [[]] := by
  have hl : ∀ l ∈ propertyLines r, '\n' ∉ l.toList := by
    intro l hl
    rw [propertyLines_eq] at hl
    obtain ⟨e, he, rfl⟩ := List.mem_map.mp hl
    exact not_mem_propertyLine (not_mem_key_of_mem_entries he).2
  rw [report, pieces_joinLines hl, propertyLines_eq, List.map_map]
  rfl

theorem readProperties?_of_report (colours : Bool) (r : Record) :
    readProperties? (report colours r .properties) = some r.properties.entries := by
  rw [readProperties?, pieces_report, List.dropLast_concat]
  exact mapM_readProperty? fun e he => (not_mem_key_of_mem_entries he).1

/-- The printed properties are read back as the entries of the map. There is a line for each entry and
nothing behind the last, the keys ascend in the order of their bytes, and records that print alike have
the same properties. -/
theorem report_properties_exact (colours : Bool) (r : Record) :
    readProperties? (report colours r .properties) = some r.properties.entries ∧
    (∃ lines, pieces (report colours r .properties) = lines ++ [[]] ∧
      lines.length = r.properties.entries.length) ∧
    (∀ k v, (k, v) ∈ r.properties.entries ↔ r.properties.get? k = some v) ∧
    (r.properties.entries.Pairwise fun a b => Utf8.encode a.1.toList < Utf8.encode b.1.toList) ∧
    ∀ (colours' : Bool) (s : Record),
      report colours r .properties = report colours' s .properties ↔
        r.properties = s.properties := by
  refine ⟨readProperties?_of_report colours r, ⟨_, pieces_report colours r, List.length_map _⟩,
    fun k v => (r.properties.get?_eq_some_iff k v).symm, r.properties.ascending_bytes,
    fun colours' s => ⟨fun h => ?_, fun h => ?_⟩⟩
  · have he : some r.properties.entries = some s.properties.entries := by
      rw [← readProperties?_of_report colours r, h, readProperties?_of_report]
    refine Dictionary.ext_get? fun k => ?_
    rw [Dictionary.get?, Dictionary.get?, Option.some.inj he]
  · rw [report, report, propertyLines_eq, propertyLines_eq, h]

end Cli

end HostProfile
