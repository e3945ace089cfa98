import HostProfile.Proofs.Settings.Objects
import HostProfile.Settings.Decoding
import HostProfile.Text.Basic
import Mathlib.Data.Option.Basic

/-! The nine values of a configuration, each at the end of its path. Laying one table of settings over
another decides each of them for itself, and a table that has them all is a configuration. -/
namespace HostProfile

open Setting
open Json (memberAt?)

/-- The values that a configuration consists of. -/
inductive Leaf where
  | logLevel | defaultEncoding | partialProxy
  | override (o : Override)
  deriving DecidableEq, Repr

namespace Leaf

/-- The keys that lead to a leaf. -/
def path : Leaf → List String
  | .logLevel => ["log_level"]
  | .defaultEncoding => ["default_encoding"]
  | .partialProxy => ["partial_proxy"]
  | .override o => ["overrides", o.key]

/-- The values that a leaf may have; only an override may be without one. -/
def Admits : Leaf → Option String → Prop
  | .logLevel, value => value ≠ none
  | .defaultEncoding, value => value = some "utf8" ∨ value = some "native"
  | .partialProxy, value => value = some "disable" ∨ value = some "pass-through"
  | .override _, _ => True

theorem apart_path {l l' : Leaf} (h : l ≠ l') : Apart l.path l'.path := by
  have hk : ∀ o o' : Override, o.key = o'.key → o = o' := by
    intro o o'
    cases o <;> cases o' <;> decide
  cases l with
  | override o =>
    cases l' with
    | override o' =>
      have hne : o.key ≠ o'.key := fun he => h (congrArg override (hk o o' he))
      simp [Apart, path, List.cons_prefix_cons, hne, hne.symm]
    | _ => simp [Apart, path, List.cons_prefix_cons]
  | _ => cases l' <;> simp [Apart, path, List.cons_prefix_cons] at h ⊢

end Leaf

/-- The value of a leaf as it is written. -/
def Config.leaf (c : Config) : Leaf → Option String
  | .logLevel => some c.logLevel
  | .defaultEncoding => some (DefaultEncoding.choice.nameOf c.defaultEncoding)
  | .partialProxy => some (Proxy.Policy.choice.nameOf c.partialProxy)
  | .override o => c.overrides o

/-- A setting is read as a text, or as none. -/
inductive Setting.Spells : Setting → Option String → Prop where
  | null : Spells .null none
  | text (s : String) : Spells (.text s) (some s)
  | letter (c : Char) : Spells (.letter c) (some (.singleton c))

theorem Setting.Spells.not_table {v : Setting} {value : Option String} (h : v.Spells value)
    (es : List (String × Setting)) : v ≠ .table es := by
  cases h <;> nofun

/-! ### Layers -/

/-- A table that sets some of the leaves, each to a text. -/
structure Layer (es : List (String × Setting)) (values : Leaf → Option String) : Prop where
  ordered : (Setting.table es).Ordered
  passes : ∀ l : Leaf, Passes l.path (.table es)
  leaves : ∀ l : Leaf, Option.Rel (fun v value => v.Spells (some value))
    (at? l.path (.table es)) (values l)

theorem Layer.not_table {es : List (String × Setting)} {values : Leaf → Option String}
    (h : Layer es values) (l : Leaf) (v : Setting) (hv : at? l.path (.table es) = some v)
    (inner : List (String × Setting)) : v ≠ .table inner := by
  have hr := h.leaves l
  generalize values l = value at hr
  rw [hv] at hr
  cases hr with
  | some h => exact h.not_table inner

theorem passes_path {es : List (String × Setting)}
    (h : ∀ v, valueAt? "overrides" es = some v → ∃ os, v = .table os) (l : Leaf) :
    Passes l.path (.table es) := by
  cases l with
  | override o =>
    refine ⟨es, rfl, fun v hv => ?_⟩
    obtain ⟨os, rfl⟩ := h v hv
    exact ⟨os, rfl, fun _ _ => trivial⟩
  | _ => exact ⟨es, rfl, fun _ _ => trivial⟩

theorem layer_nil : Layer [] fun _ => none where
  ordered := .table List.Pairwise.nil nofun
  passes := passes_path nofun
  leaves l := by cases l <;> exact .none

/-- A table that sets all leaves. -/
structure Covers (es : List (String × Setting)) (values : Leaf → Option String) : Prop where
  passes : ∀ l : Leaf, Passes l.path (.table es)
  leaves : ∀ l : Leaf, ∃ v, at? l.path (.table es) = some v ∧ v.Spells (values l)

theorem Covers.merge {below es : List (String × Setting)} {values values' : Leaf → Option String}
    (hb : Covers below values) (ha : Layer es values') :
    Covers (mergeEntries below es) fun l => values' l <|> values l := by
  have hm : Setting.merge (.table below) (.table es) = .table (mergeEntries below es) :=
    merge_table _ es
  refine ⟨fun l => hm ▸ (hb.passes l).merge ha.ordered (ha.passes l), fun l => ?_⟩
  have hr := ha.leaves l
  rw [← hm, at?_merge ha.ordered (ha.passes l) (ha.not_table l)]
  generalize at? l.path (.table es) = found, values' l = value at hr
  cases hr with
  | some h => exact ⟨_, rfl, h⟩
  | none => exact hb.leaves l

/-! ### Configurations -/

/-- Every value has a name of its own, of more than one character. -/
def Choice.Named {α : Type} [DecidableEq α] (c : Choice α) : Prop :=
  ∀ a, valueAt? (c.nameOf a) c.variants = some a ∧ (c.nameOf a).toList.length ≠ 1

theorem DefaultEncoding.named_choice : choice.Named := by
  intro a
  cases a <;> decide

theorem Proxy.Policy.named_choice : choice.Named := by
  intro a
  cases a <;> decide

theorem Choice.Named.eq_of_nameOf {α : Type} [DecidableEq α] {c : Choice α} (hc : c.Named) {a b : α}
    (h : c.nameOf a = c.nameOf b) : a = b := by
  have ha := (hc a).1
  rw [h, (hc b).1] at ha
  exact (Option.some.inj ha).symm

/-- A configuration is determined by its leaves. -/
theorem Config.eq_of_leaf {c d : Config} (h : ∀ l, c.leaf l = d.leaf l) : c = d := by
  have hl : c.logLevel = d.logLevel := Option.some.inj (h .logLevel)
  have he : c.defaultEncoding = d.defaultEncoding :=
    DefaultEncoding.named_choice.eq_of_nameOf (Option.some.inj (h .defaultEncoding))
  have hp : c.partialProxy = d.partialProxy :=
    Proxy.Policy.named_choice.eq_of_nameOf (Option.some.inj (h .partialProxy))
  have ho : c.overrides = d.overrides := funext fun o => h (.override o)
  cases c
  cases d
  cases hl
  cases he
  cases hp
  cases ho
  rfl

theorem Config.admits_leaf (c : Config) (l : Leaf) : l.Admits (c.leaf l) := by
  cases l with
  | logLevel => exact nofun
  | defaultEncoding =>
    rw [leaf]
    cases c.defaultEncoding with
    | utf8 => exact .inl rfl
    | native => exact .inr rfl
  | partialProxy =>
    rw [leaf]
    cases c.partialProxy with
    | disable => exact .inl rfl
    | passThrough => exact .inr rfl
  | override o => trivial

theorem Config.exists_leaf {values : Leaf → Option String} (h : ∀ l : Leaf, l.Admits (values l)) :
    ∃ c : Config, ∀ l, c.leaf l = values l := by
  obtain ⟨level, hl⟩ := Option.ne_none_iff_exists'.mp (h .logLevel)
  have he : ∃ a, values .defaultEncoding = some (DefaultEncoding.choice.nameOf a) := by
    rcases h .defaultEncoding with h | h
    · exact ⟨.utf8, h⟩
    · exact ⟨.native, h⟩
  have hp : ∃ a, values .partialProxy = some (Proxy.Policy.choice.nameOf a) := by
    rcases h .partialProxy with h | h
    · exact ⟨.disable, h⟩
    · exact ⟨.passThrough, h⟩
  obtain ⟨e, he⟩ := he
  obtain ⟨p, hp⟩ := hp
  refine ⟨⟨level, e, p, fun o => values (.override o)⟩, fun l => ?_⟩
  cases l with
  | logLevel => exact hl.symm
  | defaultEncoding => exact he.symm
  | partialProxy => exact hp.symm
  | override o => rfl

namespace Config

theorem memberAt?_toJson (c : Config) (l : Leaf) :
    memberAt? l.path c.toJson = some (.ofText? (c.leaf l)) := by
  cases l with
  | override o => cases o <;> rfl
  | _ => rfl

theorem covers_toJson (c : Config) {es : List (String × Setting)}
    (h : Setting.ofJson c.toJson = .table es) : Covers es c.leaf where
  passes := by
    refine passes_path fun v hv => ?_
    rw [toJson, ofJson_object] at h
    cases h
    rw [valueAt?_objectEntries] at hv
    cases hv
    exact ⟨_, ofJson_object _⟩
  leaves l := by
    refine ⟨.ofJson (.ofText? (c.leaf l)), ?_, ?_⟩
    · rw [← h, at?_ofJson, memberAt?_toJson]
      rfl
    · cases c.leaf l with
      | none => exact .null
      | some s => exact .text s

end Config

end HostProfile
