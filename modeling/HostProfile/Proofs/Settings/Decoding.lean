import HostProfile.Proofs.Settings.Environment
import HostProfile.Proofs.Settings.Leaves
import HostProfile.Proofs.Settings.Objects

/-! Reading a configuration from a JSON object. Each leaf is read on its own, so that the object is a
configuration just if all leaves are right, and otherwise the first wrong one says why. -/
namespace HostProfile

open Setting

/-! ### The first error -/

/-- Of several readings, one after the other, the first that fails. -/
inductive FirstError {ι β : Type} (read : ι → Decoded β) : List ι → DecodeError → Prop
  | here {i : ι} {is : List ι} {e : DecodeError} (h : read i = .error e) :
      FirstError read (i :: is) e
  | later {i : ι} {is : List ι} {b : β} {e : DecodeError} (h : read i = .ok b)
      (ht : FirstError read is e) : FirstError read (i :: is) e

namespace FirstError

variable {ι κ β : Type} {read : ι → Decoded β} {is js : List ι} {e e' : DecodeError}

theorem append_left (h : FirstError read is e) (js : List ι) : FirstError read (is ++ js) e := by
  induction h with
  | here h => exact .here h
  | later h _ ih => exact .later h ih

theorem append_right (hok : ∀ i ∈ is, ∃ b, read i = .ok b) (h : FirstError read js e) :
    FirstError read (is ++ js) e := by
  induction is with
  | nil => exact h
  | cons i is ih =>
    obtain ⟨⟨b, hb⟩, hok⟩ := List.forall_mem_cons.mp hok
    exact .later hb (ih hok)

theorem map {f : κ → ι} {ks : List κ} (h : FirstError (fun k => read (f k)) ks e) :
    FirstError read (ks.map f) e := by
  induction h with
  | here h => exact .here h
  | later h _ ih => exact .later h ih

theorem unique (h : FirstError read is e) (h' : FirstError read is e') : e = e' := by
  induction h with
  | here h =>
    cases h' with
    | here h' => exact Except.error.inj (h.symm.trans h')
    | later h' => rw [h] at h'; cases h'
  | later h _ ih =>
    cases h' with
    | here h' => rw [h] at h'; cases h'
    | later _ ht => exact ih ht

theorem exists_error (h : FirstError read is e) : ∃ i ∈ is, read i = .error e := by
  induction h with
  | here h => exact ⟨_, List.mem_cons_self .., h⟩
  | later _ _ ih =>
    obtain ⟨i, hi, h⟩ := ih
    exact ⟨i, List.mem_cons_of_mem _ hi, h⟩

/-- In ascending order, the first is the one before which none fails. -/
theorem iff_of_pairwise {lt : ι → ι → Prop} (hlt : ∀ i j, lt i j → ¬ lt j i)
    (hs : is.Pairwise lt) :
    FirstError read is e ↔
      ∃ i ∈ is, read i = .error e ∧ ∀ j ∈ is, lt j i → ∃ b, read j = .ok b := by
  induction is with
  | nil =>
    constructor
    · intro h
      cases h
    · intro h
      obtain ⟨_, hi, -⟩ := h
      cases hi
  | cons i is ih =>
    obtain ⟨hi, hs⟩ := List.pairwise_cons.mp hs
    constructor
    · intro h
      cases h with
      | here h =>
        refine ⟨i, List.mem_cons_self .., h, fun j hj hji => ?_⟩
        rcases List.mem_cons.mp hj with rfl | hj
        · exact absurd hji (hlt _ _ hji)
        · exact absurd hji (hlt _ _ (hi j hj))
      | later h ht =>
        obtain ⟨k, hk, he, hb⟩ := (ih hs).mp ht
        refine ⟨k, List.mem_cons_of_mem i hk, he, fun j hj hjk => ?_⟩
        rcases List.mem_cons.mp hj with rfl | hj
        · exact ⟨_, h⟩
        · exact hb j hj hjk
    · intro h
      obtain ⟨k, hk, he, hb⟩ := h
      rcases List.mem_cons.mp hk with rfl | hk
      · exact .here he
      · obtain ⟨b, h⟩ := hb i (List.mem_cons_self ..) (hi k hk)
        exact .later h ((ih hs).mpr ⟨k, hk, he, fun j hj => hb j (List.mem_cons_of_mem i hj)⟩)

end FirstError

theorem firstError_of_readOverrides {read : Override → Decoded (Option String)}
    {os : List Override} {e : DecodeError} (h : readOverrides read os = .error e) :
    FirstError read os e := by
  induction os with
  | nil => cases h
  | cons o os ih =>
    rcases bind_eq_error h with ho | ⟨v, hv, h⟩
    · exact .here ho
    · rcases bind_eq_error h with hr | ⟨rest, -, h⟩
      · exact .later hv (ih hr)
      · cases h

theorem read_of_readOverrides {read : Override → Decoded (Option String)} {os : List Override}
    {found : Override → Option String} (h : readOverrides read os = .ok found) :
    ∀ o ∈ os, read o = .ok (found o) := by
  induction os generalizing found with
  | nil => exact List.forall_mem_nil _
  | cons o os ih =>
    obtain ⟨v, hv, h⟩ := exists_of_bind_eq_ok h
    obtain ⟨rest, hr, h⟩ := exists_of_bind_eq_ok h
    cases h
    intro o' ho'
    dsimp only
    by_cases he : o' = o
    · rw [if_pos he, he, hv]
    · rw [if_neg he]
      exact ih hr o' ((List.mem_cons.mp ho').resolve_left he)

theorem readOverrides_of_none {read : Override → Decoded (Option String)}
    (h : ∀ o, read o = .ok none) (os : List Override) :
    readOverrides read os = .ok fun _ => none := by
  induction os with
  | nil => rfl
  | cons o os ih =>
    rw [readOverrides, h o, ih]
    exact congrArg Except.ok (funext fun _ => ite_self none)

theorem mem_overridesByKey (o : Override) : o ∈ overridesByKey := by
  cases o <;> decide

/-! ### Leaf by leaf -/

/-- The leaves in the order of their keys. -/
def Leaf.byKey : List Leaf :=
  .defaultEncoding :: .logLevel :: (overridesByKey.map .override ++ [.partialProxy])

theorem Leaf.mem_byKey (l : Leaf) : l ∈ byKey := by
  cases l with
  | override o => simp [byKey, mem_overridesByKey]
  | _ => decide

theorem Leaf.pairwise_byKey : byKey.Pairwise fun l l' => l.path < l'.path := by
  decide +kernel

/-- A leaf as it is written, from the setting at its path. -/
def Leaf.decode (source : SettingSource) : Leaf → Setting → Decoded (Option String)
  | .logLevel, v => (toText ["log_level"] v).map some
  | .defaultEncoding, v => (toChoice source DefaultEncoding.choice ["default_encoding"] v).map
      fun a => some (DefaultEncoding.choice.nameOf a)
  | .partialProxy, v => (toChoice source Proxy.Policy.choice ["partial_proxy"] v).map
      fun a => some (Proxy.Policy.choice.nameOf a)
  | .override o, v => toText? ["overrides", o.key] v

/-- A leaf as it is written. It has its default where a setting has nothing at its path. -/
def Leaf.read (source : SettingSource) (v : Setting) (l : Leaf) : Decoded (Option String) :=
  match at? l.path v with
  | some w => l.decode source w
  | none => .ok (({} : Config).leaf l)

section Table

variable {source : SettingSource} {es : List (String × Setting)} {c : Config} {e : DecodeError}

theorem read_table {α : Type} {l : Leaf} {key : String} (hl : l.path = [key]) (missing : α)
    (read : List String → Setting → Decoded α) (f : α → Option String)
    (hd : ∀ v, (read [key] v).map f = l.decode source v) (hm : f missing = ({} : Config).leaf l) :
    l.read source (.table es) = (readEntry es [] key missing read).map f := by
  have ha : at? l.path (.table es) = valueAt? key es := by
    rw [hl, at?]
    cases valueAt? key es <;> rfl
  rw [readEntry, Leaf.read, ha]
  cases valueAt? key es with
  | some v => exact (hd v).symm
  | none => exact congrArg Except.ok hm.symm

theorem read_logLevel : Leaf.read source (.table es) .logLevel =
    (readEntry es [] "log_level" ({} : Config).logLevel toText).map some :=
  read_table rfl _ _ _ (fun _ => rfl) rfl

theorem read_defaultEncoding : Leaf.read source (.table es) .defaultEncoding =
    (readEntry es [] "default_encoding" ({} : Config).defaultEncoding
      (toChoice source DefaultEncoding.choice)).map
        fun a => some (DefaultEncoding.choice.nameOf a) :=
  read_table rfl _ _ _ (fun _ => rfl) rfl

theorem read_partialProxy : Leaf.read source (.table es) .partialProxy =
    (readEntry es [] "partial_proxy" ({} : Config).partialProxy
      (toChoice source Proxy.Policy.choice)).map fun a => some (Proxy.Policy.choice.nameOf a) :=
  read_table rfl _ _ _ (fun _ => rfl) rfl

theorem read_override {os : List (String × Setting)}
    (h : valueAt? "overrides" es = some (.table os)) (o : Override) :
    Leaf.read source (.table es) (.override o) = readEntry os ["overrides"] o.key none toText? := by
  have ha : at? (Leaf.override o).path (.table es) = valueAt? o.key os := by
    rw [Leaf.path, at?, h, Option.bind_some, at?]
    cases valueAt? o.key os <;> rfl
  rw [readEntry, Leaf.read, ha]
  cases valueAt? o.key os <;> rfl

variable (ho : ∀ v, valueAt? "overrides" es = some v → ∃ os, v = .table os)

include ho

theorem readEntry_overrides :
    readEntry es [] "overrides" ({} : Config).overrides (toOverrides source) =
      readOverrides (fun o => Leaf.read source (.table es) (.override o)) overridesByKey := by
  rw [readEntry]
  cases hv : valueAt? "overrides" es with
  | none =>
    have hread : ∀ o : Override, Leaf.read source (.table es) (.override o) = .ok none := by
      intro o
      rw [Leaf.read, Leaf.path, at?, hv]
      rfl
    exact (readOverrides_of_none hread overridesByKey).symm
  | some v =>
    obtain ⟨os, rfl⟩ := ho v hv
    exact congrArg (readOverrides · overridesByKey) (funext fun o => (read_override hv o).symm)

theorem read_of_ofSetting (h : Config.ofSetting source (.table es) = .ok c) (l : Leaf) :
    l.read source (.table es) = .ok (c.leaf l) := by
  obtain ⟨a, ha, h⟩ := exists_of_bind_eq_ok h
  obtain ⟨level, hlevel, h⟩ := exists_of_bind_eq_ok h
  obtain ⟨os, hos, h⟩ := exists_of_bind_eq_ok h
  obtain ⟨p, hp, h⟩ := exists_of_bind_eq_ok h
  cases h
  cases l with
  | logLevel => rw [read_logLevel, hlevel]; rfl
  | defaultEncoding => rw [read_defaultEncoding, ha]; rfl
  | partialProxy => rw [read_partialProxy, hp]; rfl
  | override o =>
    rw [readEntry_overrides ho] at hos
    exact read_of_readOverrides hos o (mem_overridesByKey o)

theorem firstError_of_ofSetting (h : Config.ofSetting source (.table es) = .error e) :
    FirstError (Leaf.read source (.table es)) Leaf.byKey e := by
  -- each reading in turn fails, or the ones after it decide
  rcases bind_eq_error h with h | ⟨a, ha, h⟩
  · exact .here (by rw [read_defaultEncoding, h]; rfl)
  refine .later (by rw [read_defaultEncoding, ha]; rfl) ?_
  rcases bind_eq_error h with h | ⟨level, hlevel, h⟩
  · exact .here (by rw [read_logLevel, h]; rfl)
  refine .later (by rw [read_logLevel, hlevel]; rfl) ?_
  rcases bind_eq_error h with h | ⟨os, hos, h⟩
  · rw [readEntry_overrides ho] at h
    exact (firstError_of_readOverrides h).map.append_left _
  rw [readEntry_overrides ho] at hos
  refine .append_right (List.forall_mem_map.mpr fun o hm => ?_) ?_
  · exact ⟨_, read_of_readOverrides hos o hm⟩
  rcases bind_eq_error h with h | ⟨p, hp, h⟩
  · exact .here (by rw [read_partialProxy, h]; rfl)
  · cases h

/-- A table is a configuration just if each of its leaves is right. -/
theorem ofSetting_eq_ok_iff : Config.ofSetting source (.table es) = .ok c ↔
    ∀ l : Leaf, l.read source (.table es) = .ok (c.leaf l) := by
  refine ⟨fun h => read_of_ofSetting ho h, fun h => ?_⟩
  cases hs : Config.ofSetting source (.table es) with
  | error e =>
    obtain ⟨l, -, he⟩ := (firstError_of_ofSetting ho hs).exists_error
    rw [h l] at he
    cases he
  | ok d =>
    refine congrArg Except.ok (Config.eq_of_leaf fun l => ?_)
    exact Except.ok.inj ((read_of_ofSetting ho hs l).symm.trans (h l))

/-- Of the leaves that are wrong the one with the first key says why. -/
theorem ofSetting_eq_error_iff : Config.ofSetting source (.table es) = .error e ↔
    ∃ l : Leaf, l.read source (.table es) = .error e ∧
      ∀ l' : Leaf, l'.path < l.path → ∃ value, l'.read source (.table es) = .ok value := by
  have hf : FirstError (Leaf.read source (.table es)) Leaf.byKey e ↔ _ :=
    FirstError.iff_of_pairwise (fun _ _ => List.lt_asymm) Leaf.pairwise_byKey
  simp only [Leaf.mem_byKey, true_and, forall_const] at hf
  rw [← hf]
  refine ⟨fun h => firstError_of_ofSetting ho h, fun h => ?_⟩
  cases hs : Config.ofSetting source (.table es) with
  | error e' => exact congrArg Except.error ((firstError_of_ofSetting ho hs).unique h)
  | ok d =>
    obtain ⟨l, -, he⟩ := h.exists_error
    rw [read_of_ofSetting ho hs l] at he
    cases he

/-- Tables that agree on every leaf are read alike. -/
theorem ofSetting_congr {fs : List (String × Setting)}
    (hf : ∀ v, valueAt? "overrides" fs = some v → ∃ os, v = .table os)
    (h : ∀ l : Leaf, l.read source (.table fs) = l.read source (.table es)) :
    Config.ofSetting source (.table fs) = Config.ofSetting source (.table es) := by
  cases hs : Config.ofSetting source (.table es) with
  | ok c =>
    rw [ofSetting_eq_ok_iff ho] at hs
    rw [ofSetting_eq_ok_iff hf]
    simpa only [h] using hs
  | error e =>
    rw [ofSetting_eq_error_iff ho] at hs
    rw [ofSetting_eq_error_iff hf]
    simpa only [h] using hs

end Table

/-! ### Tables that set all leaves -/

theorem toText_of_spells {v : Setting} {s : String} (h : v.Spells (some s)) (path : List String) :
    toText path v = .ok s := by
  cases h <;> rfl

theorem toText?_of_spells {v : Setting} {value : Option String} (h : v.Spells value)
    (path : List String) : toText? path v = .ok value := by
  cases h <;> rfl

theorem toChoice_of_spells {α : Type} [DecidableEq α] {c : Choice α} (hc : c.Named) {a : α}
    {v : Setting} (h : v.Spells (some (c.nameOf a))) (source : SettingSource)
    (path : List String) : toChoice source c path v = .ok a := by
  obtain ⟨ha, hl⟩ := hc a
  generalize c.nameOf a = name at h ha hl
  cases h with
  | text => rw [toChoice, variant, ha]
  | letter x => exact absurd (by simp) hl

theorem Leaf.decode_of_spells (source : SettingSource) {c : Config} {l : Leaf} {v : Setting}
    (h : v.Spells (c.leaf l)) : l.decode source v = .ok (c.leaf l) := by
  cases l with
  | logLevel => rw [Leaf.decode, toText_of_spells h]; rfl
  | defaultEncoding =>
    rw [Leaf.decode, toChoice_of_spells DefaultEncoding.named_choice h]
    rfl
  | partialProxy =>
    rw [Leaf.decode, toChoice_of_spells Proxy.Policy.named_choice h]
    rfl
  | override o => exact toText?_of_spells h _

/-- A table that sets all leaves, each to a value it may have, is that configuration. -/
theorem ofSetting_of_covers (source : SettingSource) {es : List (String × Setting)}
    {values : Leaf → Option String} (h : Covers es values) (ha : ∀ l : Leaf, l.Admits (values l)) :
    ∃ c : Config, Config.ofSetting source (.table es) = .ok c ∧ ∀ l, c.leaf l = values l := by
  obtain ⟨c, hc⟩ := Config.exists_leaf ha
  obtain rfl : c.leaf = values := funext hc
  have ho : ∀ v, valueAt? "overrides" es = some v → ∃ os, v = .table os := by
    intro v hv
    obtain ⟨_, he, ht⟩ := h.passes (.override .osName)
    cases he
    obtain ⟨os, rfl, -⟩ := ht v hv
    exact ⟨os, rfl⟩
  refine ⟨c, (ofSetting_eq_ok_iff ho).mpr fun l => ?_, hc⟩
  obtain ⟨v, hv, hs⟩ := h.leaves l
  rw [Leaf.read, hv]
  exact Leaf.decode_of_spells source hs

/-- A configuration is read back from its written form. -/
theorem Config.ofSetting_toJson (source : SettingSource) (c : Config) :
    ofSetting source (.ofJson c.toJson) = .ok c := by
  have ht : Setting.ofJson c.toJson = .table _ := ofJson_object _
  obtain ⟨d, hd, hl⟩ := ofSetting_of_covers source (c.covers_toJson ht) c.admits_leaf
  rw [ht, hd, eq_of_leaf hl]

end HostProfile
