/-! Maps from text, kept in strictly increasing order of their keys. Text is ordered by code point,
which is also the byte order of its UTF-8 form. -/
namespace HostProfile

/-- Sets the value of one key in an ordered list of entries. -/
def setEntry {α : Type} (k : String) (v : α) : List (String × α) → List (String × α)
  | [] => [(k, v)]
  | (k', v') :: r =>
    if k < k' then (k, v) :: (k', v') :: r
    else if k = k' then (k, v) :: r
    else (k', v') :: setEntry k v r

/-- The value of a key in a list of entries. -/
def valueAt? {α : Type} (k : String) (es : List (String × α)) : Option α :=
  (es.find? fun e => e.1 == k).map Prod.snd

/-- Later entries of a list win over earlier ones with the same key. -/
def orderEntries {α : Type} (es : List (String × α)) : List (String × α) :=
  es.foldl (fun acc e => setEntry e.1 e.2 acc) []

theorem valueAt?_cons {α : Type} (k l : String) (v : α) (es : List (String × α)) :
    valueAt? k ((l, v) :: es) = if l = k then some v else valueAt? k es := by
  by_cases h : l = k <;> simp [valueAt?, h]

theorem valueAt?_setEntry {α : Type} (k k' : String) (v : α) (es : List (String × α)) :
    valueAt? k' (setEntry k v es) = if k = k' then some v else valueAt? k' es := by
  induction es with
  | nil => exact valueAt?_cons k' k v []
  | cons e r ih =>
    obtain ⟨l, w⟩ := e
    simp only [setEntry]
    split
    · rw [valueAt?_cons]
    · split
      · rename_i h
        simp only [valueAt?_cons, ← h]
        split <;> rfl
      · rename_i h
        rw [valueAt?_cons, valueAt?_cons, ih]
        by_cases hl : l = k'
        · simp [hl, show k ≠ k' from fun hk => h (hk.trans hl.symm)]
        · simp [hl]

/-- The keys are in strictly increasing order. -/
def Ascending {α : Type} (es : List (String × α)) : Prop :=
  es.Pairwise fun a b => a.1 < b.1

private theorem mem_setEntry {α : Type} {k : String} {v : α} {es : List (String × α)}
    {e : String × α} (h : e ∈ setEntry k v es) : e = (k, v) ∨ e ∈ es := by
  induction es with
  | nil => simpa [setEntry] using h
  | cons x r ih =>
    simp only [setEntry] at h
    split at h
    · simpa using h
    · split at h
      · rcases List.mem_cons.1 h with h | h
        · exact .inl h
        · exact .inr (List.mem_cons_of_mem _ h)
      · rcases List.mem_cons.1 h with h | h
        · exact .inr (h ▸ List.mem_cons_self ..)
        · exact (ih h).imp_right (List.mem_cons_of_mem _)

private theorem lt_of_not_lt_of_ne {a b : String} (h : ¬ a < b) (hne : a ≠ b) : b < a :=
  Decidable.byContradiction fun h' =>
    hne (String.le_antisymm (String.not_lt.1 h') (String.not_lt.1 h))

theorem Ascending.setEntry {α : Type} {es : List (String × α)} (h : Ascending es) (k : String)
    (v : α) : Ascending (setEntry k v es) := by
  induction es with
  | nil => simp [HostProfile.setEntry, Ascending]
  | cons x r ih =>
    obtain ⟨hx, hr⟩ := List.pairwise_cons.1 h
    simp only [HostProfile.setEntry]
    split
    · rename_i hlt
      refine List.pairwise_cons.2 ⟨?_, h⟩
      intro e he
      rcases List.mem_cons.1 he with rfl | he
      · exact hlt
      · exact String.lt_trans hlt (hx e he)
    · rename_i hlt
      split
      · rename_i heq
        exact List.pairwise_cons.2 ⟨fun e he => heq ▸ hx e he, hr⟩
      · rename_i hne
        refine List.pairwise_cons.2 ⟨fun e he => ?_, ih hr⟩
        rcases mem_setEntry he with rfl | he
        · exact lt_of_not_lt_of_ne hlt hne
        · exact hx e he

structure Dictionary (α : Type) where
  entries : List (String × α)
  ascending : Ascending entries

namespace Dictionary

variable {α : Type}

def empty : Dictionary α :=
  ⟨[], List.Pairwise.nil⟩

def insert (d : Dictionary α) (k : String) (v : α) : Dictionary α :=
  ⟨setEntry k v d.entries, d.ascending.setEntry k v⟩

/-- Later entries of a list win over earlier ones with the same key. -/
def ofList (es : List (String × α)) : Dictionary α :=
  es.foldl (fun d e => d.insert e.1 e.2) empty

def get? (d : Dictionary α) (k : String) : Option α :=
  valueAt? k d.entries

@[simp] theorem get?_empty (k : String) : (empty : Dictionary α).get? k = none := rfl

@[simp] theorem get?_insert (d : Dictionary α) (k k' : String) (v : α) :
    (d.insert k v).get? k' = if k = k' then some v else d.get? k' :=
  valueAt?_setEntry k k' v d.entries

end Dictionary

end HostProfile
