import HostProfile.Proofs.Settings.Leaves
import HostProfile.Settings.Environment

/-! The settings that an environment makes. -/
namespace HostProfile

theorem exists_of_bind_eq_ok {ε α β : Type} {x : Except ε α} {f : α → Except ε β} {b : β}
    (h : x >>= f = .ok b) : ∃ a, x = .ok a ∧ f a = .ok b := by
  cases x with
  | error e => cases h
  | ok a => exact ⟨a, rfl, h⟩

theorem exists_of_map_eq_ok {ε α β : Type} {x : Except ε α} {f : α → β} {b : β}
    (h : x.map f = .ok b) : ∃ a, x = .ok a ∧ f a = b := by
  cases x with
  | error e => cases h
  | ok a => exact ⟨a, rfl, Except.ok.inj h⟩

theorem map_eq_error {ε α β : Type} {x : Except ε α} {f : α → β} {e : ε} (h : x.map f = .error e) :
    x = .error e := by
  cases x with
  | error e' => exact congrArg Except.error (Except.error.inj h)
  | ok a => cases h

theorem bind_eq_error {ε α β : Type} {x : Except ε α} {f : α → Except ε β} {e : ε}
    (h : x >>= f = .error e) : x = .error e ∨ ∃ a, x = .ok a ∧ f a = .error e := by
  cases x with
  | error e' => exact .inl (congrArg Except.error (Except.error.inj h))
  | ok a => exact .inr ⟨a, rfl, h⟩

theorem Setting.ordered_table_orderEntries {es : List (String × Setting)}
    (h : ∀ e ∈ es, e.2.Ordered) : (Setting.table (orderEntries es)).Ordered := by
  refine .table (ascending_orderEntries es) fun k v hv => ?_
  exact h (k, v) (mem_of_mem_orderEntries (mem_of_valueAt?_eq_some hv))

namespace Environment

open Text

/-! ### Values -/

theorem ordered_plain (cs : List Char) : (plain cs).Ordered := by
  unfold plain
  dsimp only
  repeat' split
  all_goals exact .atom nofun nofun

theorem ordered_of_scalar {cs rest : List Char} {v : Setting} (h : scalar cs = .ok (v, rest)) :
    v.Ordered := by
  unfold scalar at h
  split at h
  · cases h
    exact .atom nofun nofun
  · cases h
    exact .atom nofun nofun
  · obtain ⟨_, -, h⟩ := exists_of_map_eq_ok h
    cases h
    exact .atom nofun nofun
  · cases h
    exact .atom nofun nofun
  · cases h
  · cases h
    exact ordered_plain _

/-- The items of a list are all read by its reader of items. -/
theorem forall_of_items {α : Type} {p : α → Prop} {item : ValueReader α}
    (hi : ∀ cs x rest, item cs = .ok (x, rest) → p x) {close : Char} {cs rest : List Char}
    {xs : List α} (h : items close item cs = .ok (xs, rest)) : ∀ x ∈ xs, p x := by
  fun_induction items close item cs generalizing xs rest with
  | case2 =>
    cases h
    exact List.forall_mem_nil _
  | case5 _ _ _ x _ _ hx _ ih =>
    obtain ⟨_, hy, h⟩ := exists_of_map_eq_ok h
    cases h
    exact List.forall_mem_cons.mpr ⟨hi _ _ _ hx, ih hy⟩
  | case6 _ _ _ x _ _ hx =>
    cases h
    exact List.forall_mem_singleton.mpr (hi _ _ _ hx)
  | _ => cases h

theorem ordered_of_pair {item : ValueReader Setting}
    (hi : ∀ cs v rest, item cs = .ok (v, rest) → v.Ordered) {cs rest : List Char}
    {e : String × Setting} (h : pair item cs = .ok (e, rest)) : e.2.Ordered := by
  obtain ⟨_, -, h⟩ := exists_of_bind_eq_ok h
  obtain ⟨_, hv, h⟩ := exists_of_bind_eq_ok h
  cases h
  exact hi _ _ _ hv

theorem ordered_of_value {depth : Nat} {cs rest : List Char} {v : Setting}
    (h : value depth cs = .ok (v, rest)) : v.Ordered := by
  induction depth generalizing cs rest v with
  | zero =>
    obtain ⟨_, hv, h⟩ := exists_of_bind_eq_ok h
    cases h
    exact ordered_of_scalar hv
  | succ depth ih =>
    have hi : ∀ cs v rest, value depth cs = .ok (v, rest) → v.Ordered := fun cs v rest h => ih h
    unfold value at h
    dsimp only at h
    split at h
    · next hd _ =>
      cases hd
      obtain ⟨_, hm, h⟩ := exists_of_bind_eq_ok h
      obtain ⟨_, hx, rfl⟩ := exists_of_map_eq_ok hm
      cases h
      exact .array (forall_of_items hi hx)
    · next hd _ =>
      cases hd
      obtain ⟨_, hm, h⟩ := exists_of_bind_eq_ok h
      obtain ⟨_, hx, rfl⟩ := exists_of_map_eq_ok hm
      cases h
      exact Setting.ordered_table_orderEntries
        (forall_of_items (fun _ _ _ => ordered_of_pair hi) hx)
    · obtain ⟨_, hv, h⟩ := exists_of_bind_eq_ok h
      cases h
      exact ordered_of_scalar hv

theorem ordered_setting (s : String) : (setting s).Ordered := by
  unfold setting
  split
  · next h => exact ordered_of_value h
  · exact .atom nofun nofun

/-! ### Variables -/

/-- The variable that sets a leaf. -/
def variableName (l : Leaf) : String :=
  "PLATPROPS_" ++ upper ("__".intercalate l.path)

theorem path?_variableName (l : Leaf) : path? (variableName l) = some l.path := by
  cases l with
  | override o => cases o <;> decide +kernel
  | _ => decide +kernel

/-- A variable sets a leaf to the value it is meant to have, or has no part in any leaf. -/
def Fits (values : Leaf → Option String) (entry : String × String) : Prop :=
  ∀ path, path? entry.1 = some path →
    (∃ l value, path = Leaf.path l ∧ values l = some value ∧
      (setting entry.2).Spells (some value)) ∨
    ∀ l : Leaf, Apart path l.path

-- What a name leads to is only ever compared here, not computed.
attribute [local irreducible] path?

/-- The table with one more variable laid over it. -/
def overlay (es : List (String × Setting)) (entry : String × String) : List (String × Setting) :=
  match path? entry.1 with
  | some (k :: ks) => Setting.mergeEntries es [(k, Setting.nest ks (setting entry.2))]
  | _ => es

theorem table_eq_foldl (env : List (String × String)) :
    table env = env.foldl overlay [] :=
  rfl

variable {values : Leaf → Option String} {es : List (String × Setting)} {entry : String × String}
  {env : List (String × String)}

theorem overlay_of_path?_eq_none (hp : path? entry.1 = none) : overlay es entry = es := by
  rw [overlay, hp]

theorem overlay_eq_merge {path : List String} (hp : path? entry.1 = some path)
    (hne : path ≠ []) :
    Setting.table (overlay es entry) =
      Setting.merge (.table es) (Setting.nest path (setting entry.2)) := by
  cases path with
  | nil => exact absurd rfl hne
  | cons k ks => rw [Setting.nest, Setting.merge_table, overlay, hp]

theorem fits_of_path?_eq_none (hp : path? entry.1 = none) : Fits values entry := by
  intro path h
  rw [hp] at h
  cases h

theorem fits_of_path?_eq_path {l : Leaf} {value : String} (hp : path? entry.1 = some l.path)
    (hv : values l = some value) (hs : (setting entry.2).Spells (some value)) :
    Fits values entry := by
  intro path h
  rw [hp] at h
  cases h
  exact .inl ⟨l, value, rfl, hv, hs⟩

theorem Fits.path_ne_nil (h : Fits values entry) {path : List String}
    (hp : path? entry.1 = some path) : path ≠ [] := by
  rintro rfl
  rcases h [] hp with ⟨l, value, hl, -, -⟩ | ha
  · cases l <;> cases hl
  · exact (ha .logLevel).1 List.nil_prefix

/-- A variable that leads to a leaf has the value of the leaf. -/
theorem Fits.spells (h : Fits values entry) {l : Leaf} (hp : path? entry.1 = some l.path) :
    ∃ value, values l = some value ∧ (setting entry.2).Spells (some value) := by
  rcases h l.path hp with ⟨l', value, hl, hv, hs⟩ | ha
  · obtain rfl : l' = l := by
      by_contra hne
      exact (Leaf.apart_path hne).1 (hl ▸ List.prefix_rfl)
    exact ⟨value, hv, hs⟩
  · exact absurd List.prefix_rfl (ha l).1

/-- A variable that leads elsewhere leads away from a leaf. -/
theorem Fits.apart (h : Fits values entry) {path : List String} (hp : path? entry.1 = some path)
    {l : Leaf} (hl : path ≠ l.path) : Apart path l.path := by
  rcases h path hp with ⟨l', _, rfl, -, -⟩ | ha
  · exact Leaf.apart_path fun he => hl (congrArg Leaf.path he)
  · exact ha l

theorem Fits.passes_nest (h : Fits values entry) {path : List String}
    (hp : path? entry.1 = some path) (l : Leaf) :
    Setting.Passes l.path (Setting.nest path (setting entry.2)) := by
  by_cases hl : path = l.path
  · exact hl ▸ Setting.passes_nest ..
  · exact (Setting.nest_of_apart (h.apart hp hl) _).2

/-- A variable changes the leaf that it leads to, and no other. -/
theorem Fits.at?_overlay (h : Fits values entry) (l : Leaf) :
    Setting.at? l.path (.table (overlay es entry)) =
      if path? entry.1 = some l.path then some (setting entry.2)
      else Setting.at? l.path (.table es) := by
  cases hp : path? entry.1 with
  | none => rw [overlay_of_path?_eq_none hp, if_neg nofun]
  | some path =>
    have ho : (Setting.nest path (setting entry.2)).Ordered := (ordered_setting _).nest _
    rw [overlay_eq_merge hp (h.path_ne_nil hp)]
    by_cases hl : path = l.path
    · subst hl
      obtain ⟨value, -, hs⟩ := h.spells hp
      rw [if_pos rfl, Setting.at?_merge ho (Setting.passes_nest ..), Setting.at?_nest]
      · rfl
      · intro v hv
        rw [Setting.at?_nest] at hv
        cases hv
        exact hs.not_table
    · obtain ⟨hn, hps⟩ := Setting.nest_of_apart (h.apart hp hl) (setting entry.2)
      rw [if_neg fun he => hl (Option.some.inj he), Setting.at?_merge ho hps, hn]
      · rfl
      · rw [hn]
        exact nofun

/-- What the variables so far have set. -/
structure Built (values : Leaf → Option String) (es : List (String × Setting)) : Prop where
  ordered : (Setting.table es).Ordered
  passes : ∀ l : Leaf, Setting.Passes l.path (.table es)
  leaves : ∀ (l : Leaf) (v : Setting), Setting.at? l.path (.table es) = some v →
    ∃ value, values l = some value ∧ v.Spells (some value)

theorem built_nil : Built values [] where
  ordered := layer_nil.ordered
  passes := layer_nil.passes
  leaves l v hv := by cases l <;> cases hv

theorem Built.overlay (hb : Built values es) (h : Fits values entry) :
    Built values (overlay es entry) where
  ordered := by
    cases hp : path? entry.1 with
    | none =>
      rw [overlay_of_path?_eq_none hp]
      exact hb.ordered
    | some path =>
      rw [overlay_eq_merge hp (h.path_ne_nil hp)]
      exact hb.ordered.merge ((ordered_setting _).nest _)
  passes l := by
    cases hp : path? entry.1 with
    | none =>
      rw [overlay_of_path?_eq_none hp]
      exact hb.passes l
    | some path =>
      rw [overlay_eq_merge hp (h.path_ne_nil hp)]
      exact (hb.passes l).merge ((ordered_setting _).nest _) (h.passes_nest hp l)
  leaves l v hv := by
    rw [h.at?_overlay] at hv
    split at hv
    · next hp =>
      cases hv
      exact h.spells hp
    · exact hb.leaves l v hv

theorem Built.foldl_overlay (hb : Built values es) (h : ∀ entry ∈ env, Fits values entry) :
    Built values (env.foldl Environment.overlay es) := by
  induction env generalizing es with
  | nil => exact hb
  | cons entry env ih =>
    obtain ⟨he, h⟩ := List.forall_mem_cons.mp h
    exact ih (hb.overlay he) h

/-- A leaf that is set stays set. -/
theorem at?_foldl_overlay_ne_none (h : ∀ entry ∈ env, Fits values entry) {l : Leaf}
    (hl : Setting.at? l.path (.table es) ≠ none ∨ ∃ entry ∈ env, path? entry.1 = some l.path) :
    Setting.at? l.path (.table (env.foldl overlay es)) ≠ none := by
  induction env generalizing es with
  | nil => simpa using hl
  | cons entry env ih =>
    obtain ⟨he, h⟩ := List.forall_mem_cons.mp h
    refine ih h ?_
    rw [he.at?_overlay]
    by_cases hp : path? entry.1 = some l.path
    · exact .inl (by rw [if_pos hp]; exact nofun)
    · rw [if_neg hp]
      exact hl.imp_right fun hx => by simpa [hp] using hx

/-- The environment sets these leaves to these values. -/
structure Sets (env : List (String × String)) (values : Leaf → Option String) : Prop where
  fits : ∀ entry ∈ env, Fits values entry
  readable : hasTorn env = false
  complete : ∀ l, values l ≠ none → ∃ s, (variableName l, s) ∈ env

theorem layer_table (h : Sets env values) : Layer (table env) values := by
  rw [table_eq_foldl]
  obtain ⟨ho, hp, hl⟩ := built_nil.foldl_overlay h.fits
  refine ⟨ho, hp, fun l => ?_⟩
  cases hv : Setting.at? l.path (.table (env.foldl overlay [])) with
  | some v =>
    obtain ⟨value, he, hs⟩ := hl l v hv
    rw [he]
    exact .some hs
  | none =>
    -- a variable of the leaf would have set it, whatever came after
    have hn : values l = none := by
      by_contra hne
      obtain ⟨s, hs⟩ := h.complete l hne
      exact at?_foldl_overlay_ne_none h.fits (.inr ⟨_, hs, path?_variableName l⟩) hv
    rw [hn]
    exact .none

/-! ### Variables that set nothing -/

section Filter

variable {keep : String → Bool} (hk : ∀ name, keep name = false → path? name = none)

include hk

theorem foldl_overlay_filter (env : List (String × String)) (es : List (String × Setting)) :
    (env.filter fun e => keep e.1).foldl overlay es = env.foldl overlay es := by
  induction env generalizing es with
  | nil => rfl
  | cons entry env ih =>
    cases he : keep entry.1 with
    | true => rw [List.filter_cons_of_pos (by exact he), List.foldl_cons, List.foldl_cons, ih]
    | false =>
      rw [List.filter_cons_of_neg (by simp [he]), List.foldl_cons,
        overlay_of_path?_eq_none (hk _ he), ih]

/-- Variables whose names lead nowhere make no difference. -/
theorem table_filter (env : List (String × String)) :
    table (env.filter fun e => keep e.1) = table env := by
  rw [table_eq_foldl, table_eq_foldl, foldl_overlay_filter hk]

theorem hasTorn_filter (env : List (String × String)) :
    hasTorn (env.filter fun e => keep e.1) = hasTorn env := by
  rw [hasTorn, hasTorn, List.any_filter]
  congr 1
  funext entry
  cases he : keep entry.1 with
  | true => rfl
  | false => simp [hk _ he]

end Filter

end Environment

end HostProfile
