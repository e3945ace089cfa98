import HostProfile.Proofs.Dictionary
import HostProfile.Settings.Setting

/-! Laying one setting over another, seen along the paths of keys: what stands at a path afterwards is
what the upper setting has there, or else what the lower one has. -/
namespace HostProfile

open Setting

/-! ### Merged entries -/

/-- What an entry becomes over the one below it. -/
def Setting.mergeOver (below : Option Setting) (v : Setting) : Setting :=
  match below with
  | some lower => merge lower v
  | none => v

theorem mergeEntries_cons (below : List (String × Setting)) (k : String) (v : Setting)
    (es : List (String × Setting)) :
    mergeEntries below ((k, v) :: es) =
      mergeEntries (setEntry k (mergeOver (valueAt? k below) v) below) es := by
  rw [mergeEntries]
  cases valueAt? k below <;> rfl

theorem Ascending.mergeEntries {below : List (String × Setting)} (h : Ascending below)
    (es : List (String × Setting)) : Ascending (mergeEntries below es) := by
  induction es generalizing below with
  | nil => rwa [Setting.mergeEntries]
  | cons e es ih =>
    rw [mergeEntries_cons]
    exact ih (h.setEntry _ _)

theorem valueAt?_eq_none_of_lt {α : Type} {k : String} {es : List (String × α)}
    (h : ∀ e ∈ es, k < e.1) : valueAt? k es = none := by
  rw [valueAt?_eq_none_iff, List.mem_map]
  rintro ⟨e, he, rfl⟩
  exact String.lt_irrefl _ (h e he)

/-- A key that the upper table lacks keeps its value, and every other is merged once. -/
theorem valueAt?_mergeEntries {es : List (String × Setting)} (h : Ascending es)
    (below : List (String × Setting)) (k : String) :
    valueAt? k (mergeEntries below es) =
      match valueAt? k es with
      | some v => some (mergeOver (valueAt? k below) v)
      | none => valueAt? k below := by
  induction es generalizing below with
  | nil => rw [mergeEntries]; rfl
  | cons e es ih =>
    obtain ⟨l, w⟩ := e
    obtain ⟨hl, hes⟩ := List.pairwise_cons.mp h
    rw [mergeEntries_cons, ih hes, valueAt?_setEntry, valueAt?_cons]
    by_cases hk : l = k
    · subst hk
      rw [valueAt?_eq_none_of_lt hl, if_pos rfl, if_pos rfl]
    · rw [if_neg hk, if_neg hk]

/-! ### Ordered tables -/

/-- Every table in a setting lists each key once, in order. -/
inductive Setting.Ordered : Setting → Prop where
  | table {es : List (String × Setting)} (ha : Ascending es)
      (hv : ∀ k v, valueAt? k es = some v → Ordered v) : Ordered (.table es)
  | array {xs : List Setting} (hx : ∀ x ∈ xs, Ordered x) : Ordered (.array xs)
  | atom {v : Setting} (ht : ∀ es, v ≠ .table es) (hx : ∀ xs, v ≠ .array xs) : Ordered v

theorem Setting.ordered_table_iff (es : List (String × Setting)) :
    (Setting.table es).Ordered ↔ Ascending es ∧ ∀ k v, valueAt? k es = some v → v.Ordered := by
  constructor
  · intro h
    cases h with
    | table ha hv => exact ⟨ha, hv⟩
    | atom ht => exact absurd rfl (ht es)
  · intro h
    exact .table h.1 h.2

theorem Setting.merge_table (below : Setting) (es : List (String × Setting)) :
    merge below (.table es) = match below with
      | .table lower => .table (mergeEntries lower es)
      | _ => .table es := by
  cases below <;> simp only [merge]

theorem Setting.merge_of_not_table (below : Setting) {v : Setting} (h : ∀ es, v ≠ .table es) :
    merge below v = v := by
  cases v with
  | table es => exact absurd rfl (h es)
  | _ => rw [merge]; exact h

theorem Setting.Ordered.merge {below above : Setting} (hb : below.Ordered) (ha : above.Ordered) :
    (merge below above).Ordered := by
  induction ha generalizing below with
  | table hes hv ih =>
    rw [merge_table]
    split
    · next lower =>
      obtain ⟨hl, hlv⟩ := (ordered_table_iff lower).mp hb
      refine .table (hl.mergeEntries _) fun k v hk => ?_
      rw [valueAt?_mergeEntries hes] at hk
      split at hk
      · next w hw =>
        cases hk
        unfold mergeOver
        split
        · next u hu => exact ih k w hw (hlv k u hu)
        · exact hv k w hw
      · exact hlv k v hk
    · exact .table hes hv
  | array hx =>
    rw [merge_of_not_table _ fun _ h => by cases h]
    exact .array hx
  | atom ht hx =>
    rw [merge_of_not_table _ ht]
    exact .atom ht hx

theorem Setting.merge_self {v : Setting} (h : v.Ordered) : merge v v = v := by
  induction h with
  | @table es ha hv ih =>
    rw [merge_table]
    refine congrArg Setting.table (Dictionary.ext_entries (ha.mergeEntries es) ha fun k => ?_)
    rw [valueAt?_mergeEntries ha]
    cases hk : valueAt? k es with
    | none => rfl
    | some v => exact congrArg some (ih k v hk)
  | array hx => exact merge_of_not_table _ nofun
  | atom ht hx => exact merge_of_not_table _ ht

/-! ### Paths -/

/-- The setting at the end of a path of keys. -/
def Setting.at? : List String → Setting → Option Setting
  | [], v => some v
  | k :: ks, .table es => (valueAt? k es).bind (at? ks)
  | _ :: _, _ => none

/-- As far as a path goes, it leads through tables. -/
def Setting.Passes : List String → Setting → Prop
  | [], _ => True
  | k :: ks, v => ∃ es, v = .table es ∧ ∀ w, valueAt? k es = some w → Passes ks w

theorem Setting.at?_merge {path : List String} {below above : Setting} (ho : above.Ordered)
    (hp : Passes path above) (hv : ∀ v, at? path above = some v → ∀ es, v ≠ .table es) :
    at? path (merge below above) = (at? path above <|> at? path below) := by
  -- `below` is any setting: where it is not a table the path ends in it, and `above` takes its place
  induction path generalizing below above with
  | nil => rw [merge_of_not_table _ (hv above rfl)]; rfl
  | cons k ks ih =>
    obtain ⟨es, rfl, hp⟩ := hp
    obtain ⟨ha, ho⟩ := (ordered_table_iff es).mp ho
    rw [merge_table]
    split
    · next lower =>
      simp only [at?, valueAt?_mergeEntries ha]
      cases hk : valueAt? k es with
      | none => rfl
      | some w =>
        have hw : ∀ v, at? ks w = some v → ∀ es, v ≠ .table es := by
          intro v hv'
          exact hv v (by rw [at?, hk]; exact hv')
        cases hu : valueAt? k lower with
        | none => simp [mergeOver]
        | some u => exact ih (ho k w hk) (hp w hk) hw
    · next hn =>
      cases below with
      | table lower => exact absurd rfl (hn lower)
      | _ => simp [at?]

theorem Setting.Passes.merge {path : List String} {below above : Setting} (ho : above.Ordered)
    (hb : Passes path below) (ha : Passes path above) : Passes path (merge below above) := by
  induction path generalizing below above with
  | nil => trivial
  | cons k ks ih =>
    obtain ⟨lower, rfl, hb⟩ := hb
    obtain ⟨es, rfl, ha⟩ := ha
    obtain ⟨hes, ho⟩ := (ordered_table_iff es).mp ho
    refine ⟨Setting.mergeEntries lower es, merge_table _ es, fun w hw => ?_⟩
    rw [valueAt?_mergeEntries hes] at hw
    split at hw
    · next v hv =>
      cases hw
      unfold mergeOver
      split
      · next u hu => exact ih (ho k v hv) (hb u hu) (ha v hv)
      · exact ha v hv
    · exact hb w hw

/-! ### Nested settings -/

/-- Neither path leads along the other. -/
def Apart (p q : List String) : Prop :=
  ¬ p <+: q ∧ ¬ q <+: p

theorem Setting.Ordered.nest {v : Setting} (h : v.Ordered) (path : List String) :
    (nest path v).Ordered := by
  induction path with
  | nil => exact h
  | cons k ks ih =>
    refine .table (List.pairwise_singleton ..) fun k' w hw => ?_
    rw [valueAt?_cons] at hw
    split at hw
    · cases hw
      exact ih
    · cases hw

theorem Setting.at?_nest (path : List String) (v : Setting) : at? path (nest path v) = some v := by
  induction path with
  | nil => rfl
  | cons k ks ih => rw [nest, at?, valueAt?_cons, if_pos rfl]; exact ih

theorem Setting.passes_nest (path : List String) (v : Setting) : Passes path (nest path v) := by
  induction path with
  | nil => trivial
  | cons k ks ih =>
    refine ⟨_, rfl, fun w hw => ?_⟩
    rw [valueAt?_cons, if_pos rfl] at hw
    cases hw
    exact ih

theorem Setting.nest_of_apart {p q : List String} (h : Apart p q) (v : Setting) :
    at? q (nest p v) = none ∧ Passes q (nest p v) := by
  induction p generalizing q with
  | nil => exact absurd List.nil_prefix h.1
  | cons k ks ih =>
    cases q with
    | nil => exact absurd List.nil_prefix h.2
    | cons l ls =>
      rw [nest]
      by_cases hk : k = l
      · subst hk
        have ha : Apart ks ls := by
          simpa [Apart, List.cons_prefix_cons] using h
        obtain ⟨hn, hp⟩ := ih ha
        refine ⟨by rw [at?, valueAt?_cons, if_pos rfl]; exact hn, _, rfl, fun w hw => ?_⟩
        rw [valueAt?_cons, if_pos rfl] at hw
        cases hw
        exact hp
      · refine ⟨by rw [at?, valueAt?_cons, if_neg hk]; rfl, _, rfl, fun w hw => ?_⟩
        rw [valueAt?_cons, if_neg hk] at hw
        cases hw

end HostProfile
