import HostProfile.Dictionary
import Mathlib.Data.List.Induction
import Mathlib.Data.List.Nodup

/-! Dictionaries by their entries: a dictionary is determined by what it maps each key to, and where
no key is written twice it does not depend on the order of the writes. -/
namespace HostProfile

variable {α : Type}

theorem valueAt?_nil (k : String) : valueAt? k ([] : List (String × α)) = none := rfl

theorem valueAt?_map {β : Type} (f : α → β) (k : String) (es : List (String × α)) :
    valueAt? k (es.map fun e => (e.1, f e.2)) = (valueAt? k es).map f := by
  rw [valueAt?, valueAt?, List.find?_map, Option.map_map, Option.map_map]
  rfl

theorem valueAt?_eq_none_iff {es : List (String × α)} {k : String} :
    valueAt? k es = none ↔ k ∉ es.map Prod.fst := by
  rw [valueAt?, Option.map_eq_none_iff, List.find?_eq_none]
  simp only [beq_iff_eq, List.mem_map, not_exists, not_and]

theorem valueAt?_eq_some_iff {es : List (String × α)} (hn : (es.map Prod.fst).Nodup) (k : String)
    (v : α) : valueAt? k es = some v ↔ (k, v) ∈ es := by
  induction es with
  | nil => simp [valueAt?]
  | cons e r ih =>
    obtain ⟨l, w⟩ := e
    rw [List.map_cons, List.nodup_cons] at hn
    rw [valueAt?_cons, List.mem_cons, Prod.mk.injEq]
    split
    · next hl =>
      subst hl
      have hr : ∀ x, (l, x) ∉ r := fun x hx => hn.1 (List.mem_map.mpr ⟨_, hx, rfl⟩)
      simp [hr, eq_comm]
    · next hl =>
      rw [ih hn.2]
      simp [Ne.symm hl]

theorem Ascending.nodup_keys {es : List (String × α)} (h : Ascending es) :
    (es.map Prod.fst).Nodup := by
  rw [List.Nodup, List.pairwise_map]
  refine List.Pairwise.imp (fun hlt heq => ?_) h
  rw [heq] at hlt
  exact String.lt_irrefl _ hlt

namespace Dictionary

theorem get?_eq_some_iff (d : Dictionary α) (k : String) (v : α) :
    d.get? k = some v ↔ (k, v) ∈ d.entries :=
  valueAt?_eq_some_iff d.ascending.nodup_keys k v

/-- Entries in ascending order are a normal form. -/
theorem ext_get? {d e : Dictionary α} (h : ∀ k, d.get? k = e.get? k) : d = e := by
  have hmem : ∀ x, x ∈ d.entries ↔ x ∈ e.entries := by
    intro ⟨k, v⟩
    rw [← get?_eq_some_iff, ← get?_eq_some_iff, h]
  have hperm : d.entries.Perm e.entries :=
    (List.perm_ext_iff_of_nodup (.of_map _ d.ascending.nodup_keys)
      (.of_map _ e.ascending.nodup_keys)).mpr hmem
  have heq : d.entries = e.entries := by
    refine List.Perm.eq_of_pairwise (fun a b _ _ hab hba => ?_) d.ascending e.ascending hperm
    exact absurd (String.lt_trans hab hba) (String.lt_irrefl _)
  cases d
  cases e
  cases heq
  rfl

theorem ext_entries {es fs : List (String × α)} (he : Ascending es) (hf : Ascending fs)
    (h : ∀ k, valueAt? k es = valueAt? k fs) : es = fs :=
  congrArg entries (ext_get? (d := ⟨es, he⟩) (e := ⟨fs, hf⟩) h)

/-- Of several entries with one key the last counts. -/
theorem get?_ofList (es : List (String × α)) (k : String) :
    (ofList es).get? k = valueAt? k es.reverse := by
  induction es using List.reverseRecOn with
  | nil => rfl
  | append_singleton es e ih =>
    have ho : ofList (es ++ [e]) = (ofList es).insert e.1 e.2 := by simp [ofList]
    rw [ho, get?_insert, ih, List.reverse_append, List.reverse_singleton, List.singleton_append,
      valueAt?_cons]

theorem get?_ofList_eq_some_iff {es : List (String × α)} (hn : (es.map Prod.fst).Nodup)
    (k : String) (v : α) : (ofList es).get? k = some v ↔ (k, v) ∈ es := by
  have hr : (es.reverse.map Prod.fst).Nodup := by
    rw [List.map_reverse]
    exact List.nodup_reverse.mpr hn
  rw [get?_ofList, valueAt?_eq_some_iff hr, List.mem_reverse]

theorem ofList_perm {es fs : List (String × α)} (hp : es.Perm fs)
    (hn : (es.map Prod.fst).Nodup) : ofList es = ofList fs := by
  have hf : (fs.map Prod.fst).Nodup := (hp.map Prod.fst).nodup_iff.mp hn
  refine ext_get? fun k => Option.ext fun v => ?_
  rw [get?_ofList_eq_some_iff hn, get?_ofList_eq_some_iff hf, hp.mem_iff]

theorem entries_ofList (es : List (String × α)) : (ofList es).entries = orderEntries es := by
  rw [ofList, orderEntries]
  exact (List.foldl_hom entries fun _ _ => rfl).symm

end Dictionary

theorem ascending_orderEntries (es : List (String × α)) : Ascending (orderEntries es) := by
  rw [← Dictionary.entries_ofList]
  exact (Dictionary.ofList es).ascending

theorem valueAt?_orderEntries (es : List (String × α)) (k : String) :
    valueAt? k (orderEntries es) = valueAt? k es.reverse := by
  rw [← Dictionary.entries_ofList]
  exact Dictionary.get?_ofList es k

theorem mem_of_valueAt?_eq_some {es : List (String × α)} {k : String} {v : α}
    (h : valueAt? k es = some v) : (k, v) ∈ es := by
  obtain ⟨⟨l, w⟩, he, rfl⟩ := Option.map_eq_some_iff.mp h
  obtain rfl : l = k := by simpa using List.find?_some he
  exact List.mem_of_find?_eq_some he

theorem mem_of_mem_orderEntries {es : List (String × α)} {e : String × α}
    (h : e ∈ orderEntries es) : e ∈ es := by
  have hv := (valueAt?_eq_some_iff (ascending_orderEntries es).nodup_keys e.1 e.2).mpr h
  rw [valueAt?_orderEntries] at hv
  exact List.mem_reverse.mp (mem_of_valueAt?_eq_some hv)

end HostProfile
