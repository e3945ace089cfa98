import HostProfile.Proofs.Settings.Merge

/-! JSON objects as settings. An object is a map: where it has several entries with one key the last
counts, and the settings have just that at the end of each path of keys. -/
namespace HostProfile

open Setting

namespace Json

/-- The value of a key in an object. -/
def member? (k : String) (es : List (String × Json)) : Option Json :=
  valueAt? k es.reverse

/-- The value at the end of a path of keys, each of them in an object. -/
def memberAt? : List String → Json → Option Json
  | [], v => some v
  | k :: ks, .object es => (member? k es).bind (memberAt? ks)
  | _ :: _, _ => none

/-- The object maps the key to the value and has no other key. -/
def Only (k : String) (v : Json) (es : List (String × Json)) : Prop :=
  ∀ k', member? k' es = if k' = k then some v else none

end Json

open Json (member? memberAt? Only)

theorem ofJsonEntries_eq_map (es : List (String × Json)) :
    ofJsonEntries es = es.map fun e => (e.1, Setting.ofJson e.2) := by
  induction es with
  | nil => rw [ofJsonEntries, List.map_nil]
  | cons e es ih => rw [ofJsonEntries, List.map_cons, ih]

/-- The entries of an object, in the order of their keys. -/
def objectEntries (es : List (String × Json)) : List (String × Setting) :=
  orderEntries (ofJsonEntries es)

theorem ofJson_object (es : List (String × Json)) :
    Setting.ofJson (.object es) = .table (objectEntries es) := by
  rw [Setting.ofJson]
  rfl

theorem valueAt?_objectEntries (es : List (String × Json)) (k : String) :
    valueAt? k (objectEntries es) = (member? k es).map Setting.ofJson := by
  rw [objectEntries, valueAt?_orderEntries, ofJsonEntries_eq_map, ← List.map_reverse, valueAt?_map]
  rfl

theorem ofJson_eq_null_iff {v : Json} : Setting.ofJson v = .null ↔ v = .null := by
  cases v with
  | integer n =>
    rw [Setting.ofJson, ofJsonInteger]
    split <;> simp
  | _ => simp [Setting.ofJson]

theorem ofJson_eq_text_iff {v : Json} {s : String} :
    Setting.ofJson v = .text s ↔ v = .text s := by
  cases v with
  | integer n =>
    rw [Setting.ofJson, ofJsonInteger]
    split <;> simp
  | _ => simp [Setting.ofJson]

theorem ofJson_ne_letter (v : Json) (c : Char) : Setting.ofJson v ≠ .letter c := by
  cases v with
  | integer n =>
    rw [Setting.ofJson, ofJsonInteger]
    split <;> simp
  | _ => simp [Setting.ofJson]

theorem ofJson_eq_table_iff {v : Json} {es : List (String × Setting)} :
    Setting.ofJson v = .table es ↔ ∃ os, v = .object os ∧ objectEntries os = es := by
  cases v with
  | object os => simp [ofJson_object]
  | integer n =>
    rw [Setting.ofJson, ofJsonInteger]
    split <;> simp
  | _ => simp [Setting.ofJson]

theorem at?_ofJson (path : List String) (v : Json) :
    at? path (Setting.ofJson v) = (memberAt? path v).map Setting.ofJson := by
  induction path generalizing v with
  | nil => rfl
  | cons k ks ih =>
    cases v with
    | object es =>
      rw [ofJson_object, at?, memberAt?, valueAt?_objectEntries]
      cases member? k es with
      | none => rfl
      | some w => exact ih w
    | integer n =>
      rw [Setting.ofJson, ofJsonInteger]
      split <;> rfl
    | _ => simp [Setting.ofJson, at?, memberAt?]

/-! ### Objects with one key -/

theorem Json.Only.objectEntries_eq {k : String} {v : Json} {es : List (String × Json)}
    (h : Only k v es) : objectEntries es = [(k, Setting.ofJson v)] := by
  refine Dictionary.ext_entries (ascending_orderEntries _) (List.pairwise_singleton ..) fun k' => ?_
  rw [valueAt?_objectEntries, h, valueAt?_cons]
  by_cases hk : k' = k
  · rw [if_pos hk, if_pos hk.symm]
    rfl
  · rw [if_neg hk, if_neg (Ne.symm hk)]
    rfl

theorem exists_only_of_objectEntries {k : String} {w : Setting} {es : List (String × Json)}
    (h : objectEntries es = [(k, w)]) : ∃ v, Only k v es := by
  have hm (k' : String) : (member? k' es).map Setting.ofJson = if k = k' then some w else none := by
    rw [← valueAt?_objectEntries, h, valueAt?_cons]
    rfl
  have hk := hm k
  rw [if_pos rfl, Option.map_eq_some_iff] at hk
  obtain ⟨v, hv, -⟩ := hk
  refine ⟨v, fun k' => ?_⟩
  by_cases he : k' = k
  · rw [if_pos he, he, hv]
  · have hn := hm k'
    rw [if_neg (Ne.symm he), Option.map_eq_none_iff] at hn
    rw [if_neg he, hn]

end HostProfile
