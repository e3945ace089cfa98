import HostProfile.Proofs.Settings.Merge
import HostProfile.Toml.Document

/-! The tables of a TOML document list each key once, in order: the reader builds them entry by
entry, and no edit of its tree leaves that form. -/
namespace HostProfile

namespace Toml

open Text

/-- Every table at or below a node lists each key once, in order. -/
inductive Node.Ordered : Node → Prop where
  | value {v : Setting} (h : v.Ordered) : Ordered (.value v)
  | table {origin : Origin} {es : Entries} (ha : Ascending es)
      (hn : ∀ k n, valueAt? k es = some n → Ordered n) : Ordered (.table origin es)
  | tables {earlier : List Entries} {last : Entries}
      (ht : ∀ es ∈ last :: earlier, Ordered (.table .header es)) : Ordered (.tables earlier last)

structure OrderedEntries (es : Entries) : Prop where
  ascending : Ascending es
  nodes : ∀ k n, valueAt? k es = some n → n.Ordered

theorem orderedEntries_nil : OrderedEntries [] :=
  ⟨List.Pairwise.nil, fun _ _ h => by cases h⟩

theorem Node.ordered_table_iff (origin : Origin) (es : Entries) :
    (Node.table origin es).Ordered ↔ OrderedEntries es := by
  constructor
  · intro h
    cases h with
    | table ha hn => exact ⟨ha, hn⟩
  · intro h
    exact .table h.ascending h.nodes

theorem Node.ordered_tables_iff (earlier : List Entries) (last : Entries) :
    (Node.tables earlier last).Ordered ↔
      OrderedEntries last ∧ ∀ es ∈ earlier, OrderedEntries es := by
  rw [← List.forall_mem_cons (p := OrderedEntries)]
  constructor
  · intro h
    cases h with
    | tables ht => exact fun es he => (ordered_table_iff _ _).mp (ht es he)
  · intro h
    exact .tables fun es he => (ordered_table_iff _ _).mpr (h es he)

theorem OrderedEntries.setEntry {es : Entries} (h : OrderedEntries es) (k : String) {n : Node}
    (hn : n.Ordered) : OrderedEntries (setEntry k n es) where
  ascending := h.ascending.setEntry k n
  nodes := by
    intro k' n' hk
    rw [valueAt?_setEntry] at hk
    split at hk
    · cases hk
      exact hn
    · exact h.nodes k' n' hk

/-- An edit of a table that keeps the form. -/
def Keeps (edit : Origin → Entries → Option Entries) : Prop :=
  ∀ origin es es', edit origin es = some es' → OrderedEntries es → OrderedEntries es'

/-- An edit deep inside keeps the form if it does so where it happens. -/
theorem Keeps.editAt? {edit : Origin → Entries → Option Entries} (he : Keeps edit) (dotted : Bool)
    (path : List String) : Keeps (editAt? dotted edit path) := by
  induction path with
  | nil => exact he
  | cons k ks ih =>
    intro origin es es' h ho
    simp only [Toml.editAt?] at h
    split at h
    · obtain ⟨inner, hi, h⟩ := Option.bind_eq_some_iff.mp h
      obtain rfl := Option.some.inj h
      have hn : OrderedEntries inner := ih _ _ _ hi orderedEntries_nil
      exact ho.setEntry k ((Node.ordered_table_iff _ _).mpr hn)
    · cases h
    · next origin' inner hk =>
      split at h
      · cases h
      · obtain ⟨inner', hi, h⟩ := Option.bind_eq_some_iff.mp h
        obtain rfl := Option.some.inj h
        have hn := (Node.ordered_table_iff _ _).mp (ho.nodes k _ hk)
        exact ho.setEntry k ((Node.ordered_table_iff _ _).mpr (ih _ _ _ hi hn))
    · next earlier last hk =>
      obtain ⟨last', hl, h⟩ := Option.bind_eq_some_iff.mp h
      obtain rfl := Option.some.inj h
      obtain ⟨hn, he⟩ := (Node.ordered_tables_iff _ _).mp (ho.nodes k _ hk)
      exact ho.setEntry k ((Node.ordered_tables_iff _ _).mpr ⟨ih _ _ _ hl hn, he⟩)

theorem keeps_assign? (path : List String) (k : String) {v : Setting} (hv : v.Ordered) :
    Keeps (assign? path k v) := by
  intro origin es es' h ho
  refine Keeps.editAt? (fun origin es es' h ho => ?_) true path origin es es' h ho
  split at h
  · cases h
  · split at h
    · cases h
    · obtain rfl := Option.some.inj h
      exact ho.setEntry k (.value hv)

theorem keeps_openTable? (k : String) : Keeps (openTable? k) := by
  intro origin es es' h ho
  unfold openTable? at h
  split at h
  · obtain rfl := Option.some.inj h
    exact ho.setEntry k ((Node.ordered_table_iff _ _).mpr orderedEntries_nil)
  · next inner hk =>
    obtain rfl := Option.some.inj h
    have hn := (Node.ordered_table_iff _ _).mp (ho.nodes k _ hk)
    exact ho.setEntry k ((Node.ordered_table_iff _ _).mpr hn)
  · cases h

theorem keeps_addTable? (k : String) : Keeps (addTable? k) := by
  intro origin es es' h ho
  unfold addTable? at h
  split at h
  · obtain rfl := Option.some.inj h
    exact ho.setEntry k ((Node.ordered_tables_iff _ _).mpr ⟨orderedEntries_nil, nofun⟩)
  · next earlier last hk =>
    obtain rfl := Option.some.inj h
    obtain ⟨hl, he⟩ := (Node.ordered_tables_iff _ _).mp (ho.nodes k _ hk)
    refine ho.setEntry k ((Node.ordered_tables_iff _ _).mpr ⟨orderedEntries_nil, ?_⟩)
    exact List.forall_mem_append.mpr ⟨he, List.forall_mem_singleton.mpr hl⟩
  · cases h

/-! ### Settings of a tree -/

theorem entrySettings_eq_map (es : Entries) :
    entrySettings es = es.map fun e => (e.1, e.2.toSetting) := by
  induction es with
  | nil => rfl
  | cons e es ih =>
    obtain ⟨k, n⟩ := e
    rw [entrySettings, ih, List.map_cons]

theorem tableSettings_eq_map (ts : List Entries) :
    tableSettings ts = ts.map fun es => .table (entrySettings es) := by
  induction ts with
  | nil => rfl
  | cons es ts ih => rw [tableSettings, ih, List.map_cons]

theorem ascending_entrySettings {es : Entries} (h : Ascending es) :
    Ascending (entrySettings es) := by
  rw [entrySettings_eq_map, Ascending, List.pairwise_map]
  exact h

theorem valueAt?_entrySettings (k : String) (es : Entries) :
    valueAt? k (entrySettings es) = (valueAt? k es).map Node.toSetting := by
  rw [entrySettings_eq_map]
  exact valueAt?_map Node.toSetting k es

theorem Node.Ordered.toSetting {n : Node} (h : n.Ordered) : n.toSetting.Ordered := by
  induction h with
  | value h => exact h
  | table ha _ ih =>
    refine .table (ascending_entrySettings ha) fun k v hv => ?_
    rw [valueAt?_entrySettings] at hv
    obtain ⟨n, hn, rfl⟩ := Option.map_eq_some_iff.mp hv
    exact ih k n hn
  | tables _ ih =>
    refine .array ?_
    rw [tableSettings_eq_map, List.forall_mem_append, List.forall_mem_map,
      List.forall_mem_singleton]
    exact ⟨fun es he => ih es (List.mem_cons_of_mem _ he), ih _ List.mem_cons_self⟩

theorem OrderedEntries.entrySettings {es : Entries} (h : OrderedEntries es) :
    (Setting.table (entrySettings es)).Ordered :=
  ((Node.ordered_table_iff .header es).mpr h).toSetting

/-! ### Values -/

theorem ordered_of_fits {n : Int} {v : Setting} (h : fits n = some v) : v.Ordered := by
  unfold fits at h
  split at h
  · cases h
    exact .atom nofun nofun
  · cases h

theorem ordered_of_natural? {base : Nat} {cs : List Char} {v : Setting}
    (h : natural? base cs = some v) : v.Ordered := by
  obtain ⟨digits, -, h⟩ := Option.bind_eq_some_iff.mp h
  obtain ⟨n, -, h⟩ := Option.bind_eq_some_iff.mp h
  exact ordered_of_fits h

theorem ordered_of_decimal? {negative : Bool} {whole cs : List Char} {v : Setting}
    (h : decimal? negative whole cs = some v) : v.Ordered := by
  unfold decimal? at h
  -- with a point or without, the rest is read alike
  extract_lets afterPlaces at h
  have hafter : ∀ x, afterPlaces x = some v → v.Ordered := by
    intro _ h
    obtain ⟨exponent, -, h⟩ := Option.bind_eq_some_iff.mp h
    obtain ⟨x, -, h⟩ := Option.bind_eq_some_iff.mp h
    split at h
    · cases h
    · cases h
      exact .atom nofun nofun
  split at h <;>
  · obtain ⟨_, -, h⟩ := Option.bind_eq_some_iff.mp h
    exact hafter _ h

theorem ordered_of_unsigned? {negative : Bool} {cs : List Char} {v : Setting}
    (h : unsigned? negative cs = some v) : v.Ordered := by
  unfold unsigned? at h
  split at h
  · cases h
    exact .atom nofun nofun
  · split at h
    · cases h
      exact .atom nofun nofun
    · obtain ⟨whole, -, h⟩ := Option.bind_eq_some_iff.mp h
      split at h
      · cases h
      · split at h
        · obtain ⟨n, -, h⟩ := Option.bind_eq_some_iff.mp h
          exact ordered_of_fits h
        · exact ordered_of_decimal? h

theorem ordered_of_word? {cs : List Char} {v : Setting} (h : word? cs = some v) : v.Ordered := by
  unfold word? at h
  split at h
  · cases h
    exact .atom nofun nofun
  · cases h
    exact .atom nofun nofun
  · exact ordered_of_natural? h
  · exact ordered_of_natural? h
  · exact ordered_of_natural? h
  · exact ordered_of_unsigned? h
  · exact ordered_of_unsigned? h
  · exact ordered_of_unsigned? h

theorem ordered_of_textValue {found : Option (List Char × List Char)} {v : Setting}
    {rest : List Char} (h : textValue found = some (v, rest)) : v.Ordered := by
  obtain ⟨_, -, h⟩ := Option.map_eq_some_iff.mp h
  cases h
  exact .atom nofun nofun

theorem ordered_of_dateTime? {cs rest : List Char} {v : Setting}
    (h : dateTime? cs = some (v, rest)) : v.Ordered := by
  obtain ⟨_, -, h⟩ := Option.map_eq_some_iff.mp h
  cases h
  refine .table (List.pairwise_singleton ..) fun k v hv => ?_
  rw [valueAt?_cons] at hv
  split at hv
  · cases hv
    exact .atom nofun nofun
  · cases hv

theorem ordered_of_scalar? {cs rest : List Char} {v : Setting}
    (h : scalar? cs = some (v, rest)) : v.Ordered := by
  unfold scalar? at h
  split at h
  · exact ordered_of_textValue h
  · exact ordered_of_textValue h
  · exact ordered_of_textValue h
  · exact ordered_of_textValue h
  · split at h
    · next found hd =>
      cases h
      exact ordered_of_dateTime? hd
    · obtain ⟨w, hw, h⟩ := Option.map_eq_some_iff.mp h
      cases h
      exact ordered_of_word? hw

/-- The items of a list are all read by its reader of items. -/
theorem forall_of_itemsFrom {α : Type} {p : α → Prop} {item : Reader α}
    (hi : ∀ cs x rest, item cs = some (x, rest) → p x) {trailingComma mayClose : Bool}
    {close : Char} {gap : List Char → Option (List Char)} {cs rest : List Char} {xs : List α}
    (h : Reader.itemsFrom trailingComma close gap item mayClose cs = some (xs, rest)) :
    ∀ x ∈ xs, p x := by
  fun_induction Reader.itemsFrom trailingComma close gap item mayClose cs generalizing
      xs rest with
  | case3 =>
    cases h
    exact List.forall_mem_nil _
  | case5 _ _ _ _ _ _ x _ hx _ _ _ _ ih =>
    obtain ⟨⟨ys, r⟩, hy, h⟩ := Option.map_eq_some_iff.mp h
    cases h
    exact List.forall_mem_cons.mpr ⟨hi _ _ _ hx, ih hy⟩
  | case6 _ _ _ _ _ _ x _ hx =>
    cases h
    exact List.forall_mem_singleton.mpr (hi _ _ _ hx)
  | _ => cases h

theorem ordered_foldlM_assign? {pairs : List ((List String × String) × Setting)}
    (hp : ∀ p ∈ pairs, p.2.Ordered) {es es' : Entries} (hs : OrderedEntries es)
    (h : pairs.foldlM (fun es ((path, k), v) => assign? path k v .header es) es = some es') :
    OrderedEntries es' := by
  induction pairs generalizing es with
  | nil =>
    cases h
    exact hs
  | cons p pairs ih =>
    obtain ⟨hp, hps⟩ := List.forall_mem_cons.mp hp
    rw [List.foldlM_cons] at h
    obtain ⟨es₁, h₁, h⟩ := Option.bind_eq_some_iff.mp h
    exact ih hps (keeps_assign? _ _ hp _ _ _ h₁ hs) h

theorem ordered_of_inlineTable? {pairs : List ((List String × String) × Setting)} {v : Setting}
    (hp : ∀ p ∈ pairs, p.2.Ordered) (h : inlineTable? pairs = some v) : v.Ordered := by
  obtain ⟨es, he, h⟩ := Option.bind_eq_some_iff.mp h
  cases h
  exact (ordered_foldlM_assign? hp orderedEntries_nil he).entrySettings

theorem ordered_of_pair? {item : Reader Setting}
    (hi : ∀ cs v rest, item cs = some (v, rest) → v.Ordered) {cs rest : List Char}
    {p : (List String × String) × Setting} (h : pair? item cs = some (p, rest)) : p.2.Ordered := by
  obtain ⟨⟨key, r⟩, -, h⟩ := Option.bind_eq_some_iff.mp h
  dsimp only at h
  split at h
  · obtain ⟨⟨v, r⟩, hv, h⟩ := Option.bind_eq_some_iff.mp h
    cases h
    exact hi _ _ _ hv
  · cases h

theorem ordered_of_value? {depth : Nat} {cs rest : List Char} {v : Setting}
    (h : value? depth cs = some (v, rest)) : v.Ordered := by
  induction depth generalizing cs rest v with
  | zero =>
    unfold value? at h
    exact ordered_of_scalar? h
  | succ depth ih =>
    have hi : ∀ cs v rest, value? depth cs = some (v, rest) → v.Ordered :=
      fun cs v rest h => ih h
    unfold value? at h
    split at h
    · next hd =>
      cases hd
      obtain ⟨⟨xs, r⟩, hx, h⟩ := Option.map_eq_some_iff.mp h
      cases h
      exact .array (forall_of_itemsFrom hi hx)
    · next hd =>
      cases hd
      obtain ⟨⟨pairs, r⟩, hp, h⟩ := Option.bind_eq_some_iff.mp h
      obtain ⟨v, hv, h⟩ := Option.bind_eq_some_iff.mp h
      cases h
      exact ordered_of_inlineTable? (forall_of_itemsFrom (fun _ _ _ => ordered_of_pair? hi) hp) hv
    · exact ordered_of_scalar? h

/-! ### Documents -/

namespace State

theorem ordered_assign? {s s' : State} {path : List String} {k : String} {v : Setting}
    (hs : OrderedEntries s.entries) (hv : v.Ordered) (h : s.assign? path k v = some s') :
    OrderedEntries s'.entries := by
  obtain ⟨es, he, h⟩ := Option.bind_eq_some_iff.mp h
  cases h
  exact (keeps_assign? path k hv).editAt? false _ _ _ _ he hs

theorem ordered_open? {s s' : State} {edit : String → Origin → Entries → Option Entries}
    {path : List String} {k : String} (hk : Keeps (edit k)) (hs : OrderedEntries s.entries)
    (h : s.open? edit path k = some s') : OrderedEntries s'.entries := by
  obtain ⟨es, he, h⟩ := Option.bind_eq_some_iff.mp h
  cases h
  exact hk.editAt? false _ _ _ _ he hs

/-- The end of a line changes nothing in the tree. -/
private theorem eq_some_of_lineEnd? {read? : Option (State × List Char)} {s' : State}
    {rest : List Char}
    (h : (do let x ← read?; let r ← lineEnd? x.2; pure (x.1, r)) = some (s', rest)) :
    ∃ r, read? = some (s', r) := by
  obtain ⟨⟨s, r⟩, hr, h⟩ := Option.bind_eq_some_iff.mp h
  obtain ⟨_, -, h⟩ := Option.bind_eq_some_iff.mp h
  cases h
  exact ⟨r, hr⟩

theorem ordered_step? {s s' : State} {cs rest : List Char} (hs : OrderedEntries s.entries)
    (h : s.step? cs = some (s', rest)) : OrderedEntries s'.entries := by
  unfold step? at h
  dsimp only at h
  split at h
  · obtain ⟨_, -, h⟩ := Option.bind_eq_some_iff.mp h
    obtain ⟨_, -, h⟩ := Option.bind_eq_some_iff.mp h
    obtain ⟨s₁, h₁, h⟩ := Option.bind_eq_some_iff.mp h
    obtain ⟨_, h⟩ := eq_some_of_lineEnd? h
    cases h
    exact ordered_open? (keeps_addTable? _) hs h₁
  · obtain ⟨_, -, h⟩ := Option.bind_eq_some_iff.mp h
    obtain ⟨_, -, h⟩ := Option.bind_eq_some_iff.mp h
    obtain ⟨s₁, h₁, h⟩ := Option.bind_eq_some_iff.mp h
    obtain ⟨_, h⟩ := eq_some_of_lineEnd? h
    cases h
    exact ordered_open? (keeps_openTable? _) hs h₁
  · obtain ⟨_, h⟩ := eq_some_of_lineEnd? h
    cases h
    exact hs
  · split at h
    · obtain ⟨_, h⟩ := eq_some_of_lineEnd? h
      cases h
      exact hs
    · obtain ⟨_, hp, h⟩ := Option.bind_eq_some_iff.mp h
      obtain ⟨s₁, h₁, h⟩ := Option.bind_eq_some_iff.mp h
      obtain ⟨_, h⟩ := eq_some_of_lineEnd? h
      cases h
      exact ordered_assign? hs (ordered_of_pair? (fun _ _ _ => ordered_of_value?) hp) h₁

theorem ordered_readAll? {s s' : State} {cs : List Char} (hs : OrderedEntries s.entries)
    (h : s.readAll? cs = some s') : OrderedEntries s'.entries := by
  fun_induction readAll? s cs with
  | case1 =>
    cases h
    exact hs
  | case2 => cases h
  | case3 s cs _ s₁ r hstep _ ih => exact ih (ordered_step? hs hstep) h
  | case4 => cases h

end State

/-- The table of a document, and every table in it, lists each key once, in order. -/
theorem ordered_document? {s : String} {es : List (String × Setting)} (h : document? s = some es) :
    (Setting.table es).Ordered := by
  obtain ⟨s', hs, rfl⟩ := Option.map_eq_some_iff.mp h
  exact (State.ordered_readAll? orderedEntries_nil hs).entrySettings

end Toml

end HostProfile
