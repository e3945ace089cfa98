import HostProfile.Json
import HostProfile.Proofs.Dictionary
import Mathlib.Data.List.Forall2

/-! JSON values as values: the order of an object's entries does not count. What stands at the end
of a path of keys is the same in values that are the same. -/
namespace HostProfile.Json

/-- Equality of values, where objects are maps. -/
inductive Same : Json → Json → Prop where
  | null : Same .null .null
  | bool (b : Bool) : Same (.bool b) (.bool b)
  | integer (n : Int) : Same (.integer n) (.integer n)
  | decimal (x : Binary64) : Same (.decimal x) (.decimal x)
  | text (s : String) : Same (.text s) (.text s)
  | array {xs ys : List Json} (h : List.Forall₂ Same xs ys) : Same (.array xs) (.array ys)
  | object {es fs : List (String × Json)}
      (h : ∀ k, Option.Rel Same (valueAt? k es) (valueAt? k fs)) : Same (.object es) (.object fs)

theorem Same.refl : ∀ v, Same v v
  | .null => .null
  | .bool b => .bool b
  | .integer n => .integer n
  | .decimal x => .decimal x
  | .text s => .text s
  | .array xs => .array (List.forall₂_same.mpr fun x hx => refl x)
  | .object es => .object fun k => by
    cases hv : valueAt? k es with
    | none => exact .none
    | some v =>
      have hm : (k, v) ∈ es := mem_of_valueAt?_eq_some hv
      exact .some (refl v)
termination_by v => sizeOf v
decreasing_by
  · have hs := List.sizeOf_lt_of_mem hx
    simp only [array.sizeOf_spec]
    omega
  · have hs := List.sizeOf_lt_of_mem hm
    simp only [object.sizeOf_spec, Prod.mk.sizeOf_spec] at hs ⊢
    omega

/-! ### Reading -/

def bool? : Json → Option Bool
  | .bool b => some b
  | _ => none

def text? : Json → Option String
  | .text s => some s
  | _ => none

def texts? : Json → Option (List String)
  | .array xs => xs.mapM text?
  | _ => none

/-- The value at the end of a path of keys. -/
def at? : List String → Json → Option Json
  | [], v => some v
  | k :: ks, .object es => (valueAt? k es).bind (at? ks)
  | _ :: _, _ => none

theorem text?_ofText? (s : Option String) : text? (ofText? s) = s := by
  cases s <;> rfl

theorem texts?_array (xs : List String) : texts? (.array (xs.map .text)) = some xs := by
  induction xs with
  | nil => rfl
  | cons x xs ih =>
    simp only [texts?] at ih ⊢
    rw [List.map_cons, List.mapM_cons, ih]
    rfl

theorem Same.bool?_eq {v w : Json} (h : Same v w) : bool? v = bool? w := by
  cases h <;> rfl

theorem Same.text?_eq {v w : Json} (h : Same v w) : text? v = text? w := by
  cases h <;> rfl

theorem Same.texts?_eq {v w : Json} (h : Same v w) : texts? v = texts? w := by
  cases h with
  | array h =>
    simp only [texts?]
    induction h with
    | nil => rfl
    | cons hx _ ih => rw [List.mapM_cons, List.mapM_cons, hx.text?_eq, ih]
  | _ => rfl

theorem Same.rel_at? {v w : Json} (h : Same v w) (path : List String) :
    Option.Rel Same (at? path v) (at? path w) := by
  induction path generalizing v w with
  | nil => exact .some h
  | cons k ks ih =>
    cases h with
    | @object es fs h =>
      have hk : Option.Rel Same (valueAt? k es) (valueAt? k fs) := h k
      simp only [Json.at?]
      revert hk
      generalize valueAt? k es = a, valueAt? k fs = b
      intro hk
      cases hk with
      | some hk => exact ih hk
      | none => exact .none
    | _ => exact .none

/-- A reader that does not tell same values apart does not do so at the end of a path either. -/
theorem Same.bind_at? {α : Type} {read : Json → Option α} (hr : ∀ {v w}, Same v w → read v = read w)
    {v w : Json} (h : Same v w) (path : List String) :
    (Json.at? path v).bind read = (Json.at? path w).bind read := by
  have hp := h.rel_at? path
  revert hp
  generalize Json.at? path v = a, Json.at? path w = b
  intro hp
  cases hp with
  | some hp => exact hr hp
  | none => rfl

end HostProfile.Json
