import HostProfile.Record.Basic
import Mathlib.Data.List.Induction
import Mathlib.Data.List.Nodup

/-! The fields of a record, one by one: an assignment sets its own field and leaves the others, so
that assignments to different fields all hold in the end, and of several to one field the last. -/
namespace HostProfile

/-- The fields of a record. -/
inductive Field where
  | text (field : TextField)
  | native (field : NativeField)
  | formatLocale | displayLocale | unicodeOrder | instructionSets | proxy
  deriving DecidableEq, Repr

namespace Assignment

/-- The field that an assignment sets. -/
def field : Assignment → Field
  | .text f _ => .text f
  | .native f _ => .native f
  | .formatLocale _ => .formatLocale
  | .displayLocale _ => .displayLocale
  | .unicodeOrder _ => .unicodeOrder
  | .instructionSets _ => .instructionSets
  | .proxy _ => .proxy

/-- The assignment with an empty value made absent. -/
def stored : Assignment → Assignment
  | .text f value => .text f (value.filter (!·.isEmpty))
  | .native f value => .native f (value.filter (!·.isEmpty))
  | .instructionSets value => .instructionSets (value.filter (!·.isEmpty))
  | a => a

end Assignment

namespace Record

/-- What a field holds, as the assignment that sets it so. -/
def content (r : Record) : Field → Assignment
  | .text f => .text f (r.text f)
  | .native f => .native f (r.native f)
  | .formatLocale => .formatLocale r.formatLocale
  | .displayLocale => .displayLocale r.displayLocale
  | .unicodeOrder => .unicodeOrder r.unicodeOrder
  | .instructionSets => .instructionSets r.instructionSets
  | .proxy => .proxy r.proxy

theorem content_assign (r : Record) (a : Assignment) (f : Field) :
    (r.assign a).content f = if f = a.field then a.stored else r.content f := by
  cases a with
  | text g value =>
    cases f with
    | text f =>
      by_cases h : f = g
      · simp [content, assign, Assignment.field, Assignment.stored, h]
      · simp [content, assign, Assignment.field, h]
    | _ => rfl
  | native g value =>
    cases f with
    | native f =>
      by_cases h : f = g
      · simp [content, assign, Assignment.field, Assignment.stored, h]
      · simp [content, assign, Assignment.field, h]
    | _ => rfl
  | _ => cases f <;> rfl

theorem content_foldl_of_not_mem {as : List Assignment} {f : Field}
    (h : f ∉ as.map Assignment.field) (r : Record) :
    (as.foldl assign r).content f = r.content f := by
  induction as generalizing r with
  | nil => rfl
  | cons a as ih =>
    rw [List.map_cons, List.mem_cons, not_or] at h
    rw [List.foldl_cons, ih h.2, content_assign, if_neg h.1]

theorem content_foldl_of_mem {as : List Assignment} (hn : (as.map Assignment.field).Nodup)
    {a : Assignment} (ha : a ∈ as) (r : Record) :
    (as.foldl assign r).content a.field = a.stored := by
  induction as generalizing r with
  | nil => cases ha
  | cons b as ih =>
    rw [List.map_cons, List.nodup_cons] at hn
    rw [List.foldl_cons]
    rcases List.mem_cons.mp ha with rfl | ha
    · rw [content_foldl_of_not_mem hn.1, content_assign, if_pos rfl]
    · exact ih hn.2 ha _

/-- Where no field is assigned twice, every assignment holds. -/
theorem content_ofAssignments {as : List Assignment} (hn : (as.map Assignment.field).Nodup)
    {a : Assignment} (ha : a ∈ as) : (ofAssignments as).content a.field = a.stored :=
  content_foldl_of_mem hn ha {}

/-! ### The last assignment to a field -/

/-- The last of the assignments to a field. -/
def lastTo? (as : List Assignment) (f : Field) : Option Assignment :=
  (as.filter fun a => a.field = f).getLast?

theorem field_of_lastTo? {as : List Assignment} {f : Field} {a : Assignment}
    (h : lastTo? as f = some a) : a.field = f := by
  have hm : a ∈ as.filter fun a => a.field = f := List.mem_of_getLast? h
  simpa using (List.mem_filter.mp hm).2

theorem ofAssignments_append_singleton (as : List Assignment) (a : Assignment) :
    ofAssignments (as ++ [a]) = (ofAssignments as).assign a := by
  rw [ofAssignments, List.foldl_append]
  rfl

/-- Only the last assignment to a field matters to it. -/
theorem content_ofAssignments_eq (as : List Assignment) (f : Field) :
    (ofAssignments as).content f =
      ((lastTo? as f).map Assignment.stored).getD (({} : Record).content f) := by
  induction as using List.reverseRecOn with
  | nil => rfl
  | append_singleton as a ih =>
    rw [ofAssignments_append_singleton, content_assign]
    by_cases hf : a.field = f
    · simp [lastTo?, hf]
    · have hl : lastTo? (as ++ [a]) f = lastTo? as f := by simp [lastTo?, hf]
      rw [if_neg (Ne.symm hf), ih, hl]

end Record

end HostProfile
