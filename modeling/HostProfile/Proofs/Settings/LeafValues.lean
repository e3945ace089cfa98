import HostProfile.Proofs.Settings.Layers

/-! What a JSON object may give for each leaf of a configuration, and why anything else is refused. A
configuration is read from an object just if nothing is refused, and reading undoes writing. -/
namespace HostProfile

open Setting
open Json (member? memberAt? Only)

namespace Leaf

/-- The type and the names of a leaf that is one of a few names. -/
def choice? : Leaf → Option (String × List String)
  | .defaultEncoding => some ("DefaultEncoding", ["utf8", "native"])
  | .partialProxy => some ("PartialProxyPolicy", ["disable", "pass-through"])
  | _ => none

/-- The leaf is given by the value: by a text, by null where it may be absent, or where it is a name
also by an object that maps just this name to null. -/
inductive Given : Leaf → Json → Option String → Prop where
  | text {l : Leaf} {s : String} (hs : l.Admits (some s)) : Given l (.text s) (some s)
  | null (o : Override) : Given (.override o) .null none
  | entry {l : Leaf} {s : String} {es : List (String × Json)} (hc : l.choice? ≠ none)
      (hs : l.Admits (some s)) (he : Only s .null es) : Given l (.object es) (some s)

/-- Why a value does not give the leaf. -/
inductive Misfit : Leaf → Json → DecodeError → Prop where
  | notText {l : Leaf} {v : Json} (hc : l.choice? = none) (hv : ∀ s, v ≠ .text s)
      (hn : v = .null → l = .logLevel) : Misfit l v (.wrongType l.path (.ofJson v) .text)
  | noName {l : Leaf} {type s : String} {names : List String} (hc : l.choice? = some (type, names))
      (hs : s ∉ names) : Misfit l (.text s) (.unknownVariant l.path s names)
  | noEntry {l : Leaf} {es : List (String × Json)} (hc : l.choice? ≠ none)
      (he : ∀ k v, ¬ Only k v es) : Misfit l (.object es) .notOneVariant
  | noKey {l : Leaf} {type k : String} {names : List String} {v : Json}
      {es : List (String × Json)} (hc : l.choice? = some (type, names)) (he : Only k v es)
      (hk : k ∉ names) : Misfit l (.object es) (.unknownVariant (l.path ++ [k]) k names)
  | notNull {l : Leaf} {type k : String} {names : List String} {v : Json}
      {es : List (String × Json)} (hc : l.choice? = some (type, names)) (he : Only k v es)
      (hk : k ∈ names) (hv : v ≠ .null) :
      Misfit l (.object es) (.wrongType (l.path ++ [k]) (.ofJson v) .nothing)
  | notChoice {l : Leaf} {type : String} {names : List String} {v : Json}
      (hc : l.choice? = some (type, names)) (hv : ∀ s, v ≠ .text s) (he : ∀ es, v ≠ .object es) :
      Misfit l v (.wrongType l.path (.ofJson v) (.choice type))

/-! ### Names -/

/-- The leaf is read as one of the names of a choice. -/
structure ReadAs {α : Type} [DecidableEq α] (l : Leaf) (c : Choice α) : Prop where
  named : ∀ s a, valueAt? s c.variants = some a → c.nameOf a = s
  admits : ∀ s, l.Admits (some s) ↔ s ∈ c.variants.map Prod.fst
  decode : ∀ v, l.decode .json v = (toChoice .json c l.path v).map fun a => some (c.nameOf a)

theorem readAs_defaultEncoding : ReadAs .defaultEncoding DefaultEncoding.choice where
  named s a h := by
    have hm := mem_of_valueAt?_eq_some h
    simp only [DefaultEncoding.choice, List.mem_cons, Prod.mk.injEq, List.not_mem_nil,
      or_false] at hm
    rcases hm with ⟨rfl, rfl⟩ | ⟨rfl, rfl⟩ <;> rfl
  admits s := by simp [Admits, DefaultEncoding.choice]
  decode _ := rfl

theorem readAs_partialProxy : ReadAs .partialProxy Proxy.Policy.choice where
  named s a h := by
    have hm := mem_of_valueAt?_eq_some h
    simp only [Proxy.Policy.choice, List.mem_cons, Prod.mk.injEq, List.not_mem_nil,
      or_false] at hm
    rcases hm with ⟨rfl, rfl⟩ | ⟨rfl, rfl⟩ <;> rfl
  admits s := by simp [Admits, Proxy.Policy.choice]
  decode _ := rfl

theorem exists_readAs {l : Leaf} {type : String} {names : List String}
    (h : l.choice? = some (type, names)) :
    ∃ (α : Type) (_ : DecidableEq α) (c : Choice α),
      l.ReadAs c ∧ c.name = type ∧ c.variants.map Prod.fst = names := by
  cases l with
  | defaultEncoding =>
    cases h
    exact ⟨_, _, _, readAs_defaultEncoding, rfl, rfl⟩
  | partialProxy =>
    cases h
    exact ⟨_, _, _, readAs_partialProxy, rfl, rfl⟩
  | _ => cases h

theorem variant_of_not_mem {α : Type} {c : Choice α} {s : String}
    (hs : s ∉ c.variants.map Prod.fst) (path : List String) :
    variant c path s = .error (.unknownVariant path s (c.variants.map Prod.fst)) := by
  rw [variant, valueAt?_eq_none_iff.mpr hs]

namespace ReadAs

variable {α : Type} [DecidableEq α] {l : Leaf} {c : Choice α}

theorem variant_of_mem (h : l.ReadAs c) {s : String} (hs : s ∈ c.variants.map Prod.fst)
    (path : List String) : ∃ a, variant c path s = .ok a ∧ c.nameOf a = s := by
  cases hv : valueAt? s c.variants with
  | none => exact absurd hs (valueAt?_eq_none_iff.mp hv)
  | some a => exact ⟨a, by rw [variant, hv], h.named s a hv⟩

theorem decode_text (h : l.ReadAs c) (s : String) : l.decode .json (.text s) =
    if s ∈ c.variants.map Prod.fst then .ok (some s)
    else .error (.unknownVariant l.path s (c.variants.map Prod.fst)) := by
  rw [h.decode, toChoice]
  by_cases hs : s ∈ c.variants.map Prod.fst
  · obtain ⟨a, ha, rfl⟩ := h.variant_of_mem hs l.path
    rw [if_pos hs, ha]
    rfl
  · rw [if_neg hs, variant_of_not_mem hs]
    rfl

theorem decode_entry (h : l.ReadAs c) (k : String) (v : Setting) : l.decode .json (.table [(k, v)]) =
    if k ∈ c.variants.map Prod.fst then (toNothing (l.path ++ [k]) v).map fun _ => some k
    else .error (.unknownVariant (l.path ++ [k]) k (c.variants.map Prod.fst)) := by
  rw [h.decode, toChoice]
  by_cases hk : k ∈ c.variants.map Prod.fst
  · obtain ⟨a, ha, hn⟩ := h.variant_of_mem hk (l.path ++ [k])
    rw [if_pos hk, ha]
    cases toNothing (l.path ++ [k]) v with
    | error e => rfl
    | ok _ => exact congrArg (Except.ok ∘ some) hn
  · rw [if_neg hk, variant_of_not_mem hk]
    rfl

theorem decode_table (h : l.ReadAs c) {es : List (String × Setting)}
    (he : ∀ k v, es ≠ [(k, v)]) : l.decode .json (.table es) = .error .notOneVariant := by
  rw [h.decode]
  match es with
  | [] => rfl
  | [(k, v)] => exact absurd rfl (he k v)
  | _ :: _ :: _ => rfl

theorem decode_other (h : l.ReadAs c) {v : Setting} (ht : ∀ s, v ≠ .text s)
    (he : ∀ es, v ≠ .table es) :
    l.decode .json v = .error (.wrongType l.path v (.choice c.name)) := by
  rw [h.decode]
  cases v with
  | text s => exact absurd rfl (ht s)
  | table es => exact absurd rfl (he es)
  | _ => rfl

end ReadAs

/-! ### Values -/

theorem admits_text_of_choice?_eq_none {l : Leaf} (hc : l.choice? = none) (s : String) :
    l.Admits (some s) := by
  cases l with
  | logLevel => exact nofun
  | override o => trivial
  | _ => cases hc

theorem decode_text_of_admits {l : Leaf} {s : String} (hs : l.Admits (some s)) :
    l.decode .json (.text s) = .ok (some s) := by
  cases hc : l.choice? with
  | none =>
    cases l with
    | logLevel => rfl
    | override o => rfl
    | _ => cases hc
  | some p =>
    obtain ⟨α, _, c, h, -⟩ := exists_readAs hc
    rw [h.decode_text, if_pos ((h.admits s).mp hs)]

variable {l : Leaf} {v : Json} {value : Option String} {e : DecodeError}

theorem Given.decode_eq (h : l.Given v value) : l.decode .json (.ofJson v) = .ok value := by
  cases h with
  | text hs =>
    rw [Setting.ofJson]
    exact decode_text_of_admits hs
  | null o => rfl
  | @entry _ s es hc hs he =>
    obtain ⟨p, hc⟩ := Option.ne_none_iff_exists'.mp hc
    obtain ⟨α, _, c, h, -⟩ := exists_readAs hc
    rw [ofJson_object, he.objectEntries_eq, h.decode_entry, if_pos ((h.admits s).mp hs)]
    rfl

theorem decode_of_not_text (hc : l.choice? = none) {v : Setting} (ht : ∀ s, v ≠ .text s)
    (hl : ∀ c, v ≠ .letter c) (hn : v = .null → l = .logLevel) :
    l.decode .json v = .error (.wrongType l.path v .text) := by
  cases v with
  | text s => exact absurd rfl (ht s)
  | letter c => exact absurd rfl (hl c)
  | null => rw [hn rfl]; rfl
  | _ =>
    cases l with
    | logLevel => rfl
    | override o => rfl
    | _ => cases hc

theorem toNothing_of_ne_null (path : List String) {v : Setting} (h : v ≠ .null) :
    toNothing path v = .error (.wrongType path v .nothing) := by
  cases v with
  | null => exact absurd rfl h
  | _ => rfl

theorem Misfit.decode_eq (h : l.Misfit v e) : l.decode .json (.ofJson v) = .error e := by
  cases h with
  | notText hc hv hn =>
    refine decode_of_not_text hc (fun s hs => hv s (ofJson_eq_text_iff.mp hs))
      (ofJson_ne_letter v) fun h => hn (ofJson_eq_null_iff.mp h)
  | noName hc hs =>
    obtain ⟨α, _, c, h, rfl, rfl⟩ := exists_readAs hc
    rw [Setting.ofJson, h.decode_text, if_neg hs]
  | noEntry hc he =>
    obtain ⟨p, hc⟩ := Option.ne_none_iff_exists'.mp hc
    obtain ⟨α, _, c, h, -⟩ := exists_readAs hc
    rw [ofJson_object]
    refine h.decode_table fun k w hw => ?_
    obtain ⟨v, hv⟩ := exists_only_of_objectEntries hw
    exact he k v hv
  | noKey hc he hk =>
    obtain ⟨α, _, c, h, rfl, rfl⟩ := exists_readAs hc
    rw [ofJson_object, he.objectEntries_eq, h.decode_entry, if_neg hk]
  | notNull hc he hk hv =>
    obtain ⟨α, _, c, h, rfl, rfl⟩ := exists_readAs hc
    rw [ofJson_object, he.objectEntries_eq, h.decode_entry, if_pos hk,
      toNothing_of_ne_null _ (mt ofJson_eq_null_iff.mp hv)]
    rfl
  | notChoice hc hv he =>
    obtain ⟨α, _, c, h, rfl, rfl⟩ := exists_readAs hc
    refine h.decode_other (fun s hs => hv s (ofJson_eq_text_iff.mp hs)) fun es hs => ?_
    obtain ⟨os, ho, -⟩ := ofJson_eq_table_iff.mp hs
    exact he os ho

theorem given_or_misfit (l : Leaf) (v : Json) :
    (∃ value, l.Given v value) ∨ ∃ e, l.Misfit v e := by
  cases hc : l.choice? with
  | none =>
    by_cases ht : ∃ s, v = .text s
    · obtain ⟨s, rfl⟩ := ht
      exact .inl ⟨_, .text (admits_text_of_choice?_eq_none hc s)⟩
    by_cases hn : v = .null → l = .logLevel
    · exact .inr ⟨_, .notText hc (fun s hs => ht ⟨s, hs⟩) hn⟩
    obtain ⟨rfl, hl⟩ := Classical.not_imp.mp hn
    cases l with
    | override o => exact .inl ⟨_, .null o⟩
    | logLevel => exact absurd rfl hl
    | _ => cases hc
  | some p =>
    obtain ⟨type, names⟩ := p
    have ha : ∀ s, s ∈ names → l.Admits (some s) := by
      obtain ⟨α, _, c, h, -, rfl⟩ := exists_readAs hc
      exact fun s => (h.admits s).mpr
    have hne : l.choice? ≠ none := by
      rw [hc]
      exact nofun
    cases v with
    | text s =>
      by_cases hs : s ∈ names
      · exact .inl ⟨_, .text (ha s hs)⟩
      · exact .inr ⟨_, .noName hc hs⟩
    | object es =>
      by_cases he : ∃ k w, Only k w es
      · obtain ⟨k, w, he⟩ := he
        by_cases hk : k ∈ names
        · by_cases hw : w = .null
          · subst hw
            exact .inl ⟨_, .entry hne (ha k hk) he⟩
          · exact .inr ⟨_, .notNull hc he hk hw⟩
        · exact .inr ⟨_, .noKey hc he hk⟩
      · exact .inr ⟨_, .noEntry hne fun k w h => he ⟨k, w, h⟩⟩
    | _ => exact .inr ⟨_, .notChoice hc nofun nofun⟩

theorem decode_eq_ok_iff : l.decode .json (.ofJson v) = .ok value ↔ l.Given v value := by
  refine ⟨fun h => ?_, Given.decode_eq⟩
  rcases given_or_misfit l v with ⟨value', hg⟩ | ⟨e, hm⟩
  · rw [hg.decode_eq] at h
    cases h
    exact hg
  · rw [hm.decode_eq] at h
    cases h

theorem decode_eq_error_iff : l.decode .json (.ofJson v) = .error e ↔ l.Misfit v e := by
  refine ⟨fun h => ?_, Misfit.decode_eq⟩
  rcases given_or_misfit l v with ⟨value, hg⟩ | ⟨e', hm⟩
  · rw [hg.decode_eq] at h
    cases h
  · rw [hm.decode_eq] at h
    cases h
    exact hm

/-! ### Leaves of an object -/

/-- The leaf in a value: what is given for it, or the default where nothing is. -/
inductive FoundIn (j : Json) (l : Leaf) : Option String → Prop where
  | given {v : Json} {value : Option String} (hv : memberAt? l.path j = some v)
      (h : l.Given v value) : FoundIn j l value
  | missing (hv : memberAt? l.path j = none) : FoundIn j l (({} : Config).leaf l)

/-- What is given for the leaf does not fit it. -/
def WrongIn (j : Json) (l : Leaf) (e : DecodeError) : Prop :=
  ∃ v, memberAt? l.path j = some v ∧ l.Misfit v e

variable {j : Json}

theorem foundIn_iff_of_some (hv : memberAt? l.path j = some v) :
    l.FoundIn j value ↔ l.Given v value := by
  refine ⟨fun h => ?_, .given hv⟩
  cases h with
  | given hv' h =>
    cases hv.symm.trans hv'
    exact h
  | missing hv' => cases hv.symm.trans hv'

theorem foundIn_iff_of_none (hv : memberAt? l.path j = none) :
    l.FoundIn j value ↔ ({} : Config).leaf l = value := by
  constructor
  · intro h
    cases h with
    | given hv' => cases hv.symm.trans hv'
    | missing => rfl
  · rintro rfl
    exact .missing hv

theorem read_ofJson_of_some (hv : memberAt? l.path j = some v) :
    l.read .json (.ofJson j) = l.decode .json (.ofJson v) := by
  rw [read, at?_ofJson, hv]
  rfl

theorem read_ofJson_of_none (hv : memberAt? l.path j = none) :
    l.read .json (.ofJson j) = .ok (({} : Config).leaf l) := by
  rw [read, at?_ofJson, hv]
  rfl

theorem read_ofJson_eq_ok_iff : l.read .json (.ofJson j) = .ok value ↔ l.FoundIn j value := by
  cases hv : memberAt? l.path j with
  | some v => rw [read_ofJson_of_some hv, decode_eq_ok_iff, foundIn_iff_of_some hv]
  | none => rw [read_ofJson_of_none hv, foundIn_iff_of_none hv, Except.ok.injEq]

theorem read_ofJson_eq_error_iff : l.read .json (.ofJson j) = .error e ↔ l.WrongIn j e := by
  cases hv : memberAt? l.path j with
  | some v =>
    rw [read_ofJson_of_some hv, decode_eq_error_iff, WrongIn, hv]
    simp
  | none =>
    rw [read_ofJson_of_none hv, WrongIn, hv]
    simp

theorem exists_foundIn_iff :
    (∃ value, l.FoundIn j value) ↔ ∀ v, memberAt? l.path j = some v → ∃ value, l.Given v value := by
  cases hv : memberAt? l.path j with
  | some v => simp [foundIn_iff_of_some hv]
  | none => simp [foundIn_iff_of_none hv]

end Leaf

/-! ### Objects -/

namespace Config

section Object

variable {es : List (String × Json)} {c : Config} {e : DecodeError}
  (ho : ∀ v, member? "overrides" es = some v → ∃ os, v = .object os)

include ho

theorem exists_table_of_objectEntries :
    ∀ v, valueAt? "overrides" (objectEntries es) = some v → ∃ os, v = .table os := by
  intro v hv
  rw [valueAt?_objectEntries, Option.map_eq_some_iff] at hv
  obtain ⟨w, hw, rfl⟩ := hv
  obtain ⟨os, rfl⟩ := ho w hw
  exact ⟨_, ofJson_object os⟩

theorem ofJson_eq_ok_iff :
    ofJson (.object es) = .ok c ↔ ∀ l : Leaf, l.FoundIn (.object es) (c.leaf l) := by
  rw [ofJson, ofJson_object, ofSetting_eq_ok_iff (exists_table_of_objectEntries ho),
    ← ofJson_object]
  exact forall_congr' fun l => Leaf.read_ofJson_eq_ok_iff

theorem ofJson_eq_error_iff : ofJson (.object es) = .error e ↔
    ∃ l : Leaf, l.WrongIn (.object es) e ∧
      ∀ l' : Leaf, l'.path < l.path → ∃ value, l'.FoundIn (.object es) value := by
  rw [ofJson, ofJson_object, ofSetting_eq_error_iff (exists_table_of_objectEntries ho),
    ← ofJson_object]
  simp only [Leaf.read_ofJson_eq_ok_iff, Leaf.read_ofJson_eq_error_iff]

theorem exists_ofJson_iff : (∃ c, ofJson (.object es) = .ok c) ↔
    ∀ l : Leaf, ∃ value, l.FoundIn (.object es) value := by
  constructor
  · rintro ⟨c, hc⟩ l
    exact ⟨_, (ofJson_eq_ok_iff ho).mp hc l⟩
  · intro h
    cases hc : ofJson (.object es) with
    | ok c => exact ⟨c, rfl⟩
    | error e =>
      obtain ⟨l, hw, -⟩ := (ofJson_eq_error_iff ho).mp hc
      obtain ⟨value, hl⟩ := h l
      have he := Leaf.read_ofJson_eq_error_iff.mpr hw
      rw [Leaf.read_ofJson_eq_ok_iff.mpr hl] at he
      cases he

theorem ofJson_congr {fs : List (String × Json)}
    (hf : ∀ v, member? "overrides" fs = some v → ∃ os, v = .object os)
    (h : ∀ l : Leaf, memberAt? l.path (.object fs) = memberAt? l.path (.object es)) :
    ofJson (.object fs) = ofJson (.object es) := by
  rw [ofJson, ofJson, ofJson_object, ofJson_object]
  refine ofSetting_congr (exists_table_of_objectEntries ho) (exists_table_of_objectEntries hf)
    fun l => ?_
  rw [← ofJson_object, ← ofJson_object, Leaf.read, Leaf.read, at?_ofJson, at?_ofJson, h]

end Object

/-- An object is a configuration just if all it gives for the leaves fits them. Then each leaf is
what is given for it, or its default. Otherwise the first leaf that is wrong, in the order of the
keys, says why. Nothing else in the object matters. A configuration is read back from its written
form, also where that is the layer of the defaults. -/
theorem ofJson_exact {es : List (String × Json)}
    (ho : ∀ v, member? "overrides" es = some v → ∃ os, v = .object os) :
    ((∃ c, ofJson (.object es) = .ok c) ↔
      ∀ (l : Leaf) v, memberAt? l.path (.object es) = some v → ∃ value, l.Given v value) ∧
    (∀ c, ofJson (.object es) = .ok c ↔ ∀ l : Leaf, l.FoundIn (.object es) (c.leaf l)) ∧
    (∀ e, ofJson (.object es) = .error e ↔ ∃ l : Leaf, l.WrongIn (.object es) e ∧
      ∀ l' : Leaf, l'.path < l.path → ∃ value, l'.FoundIn (.object es) value) ∧
    (∀ fs, (∀ v, member? "overrides" fs = some v → ∃ os, v = .object os) →
      (∀ l : Leaf, memberAt? l.path (.object fs) = memberAt? l.path (.object es)) →
      ofJson (.object fs) = ofJson (.object es)) ∧
    (∀ source c, ofSetting source (.ofJson c.toJson) = .ok c) ∧
    ofSetting .layers (.table defaultLayer) = .ok {} := by
  refine ⟨?_, fun c => ofJson_eq_ok_iff ho, fun e => ofJson_eq_error_iff ho,
    fun fs hf h => ofJson_congr ho hf h, ofSetting_toJson, ?_⟩
  · rw [exists_ofJson_iff ho]
    exact forall_congr' fun l => Leaf.exists_foundIn_iff
  · rw [← ofJson_default]
    exact ofSetting_toJson .layers {}

/-- Two leaves of this object are wrong. -/
def twoWrong : List (String × Json) :=
  [("partial_proxy", .text "off"), ("default_encoding", .object [("native", .null)]),
    ("overrides", .object [("os_name", .bool true), ("arch_abi", .null), ("os", .text "Plan 9")])]

/-- The proxy's policy comes after all overrides, so it is not even looked at. -/
theorem ofJson_exact_two_wrong :
    (∀ v, member? "overrides" twoWrong = some v → ∃ os, v = .object os) ∧
      Leaf.WrongIn (.object twoWrong) .partialProxy
        (.unknownVariant ["partial_proxy"] "off" ["disable", "pass-through"]) ∧
      ofJson (.object twoWrong) =
        .error (.wrongType ["overrides", "os_name"] (.bool true) .text) := by
  have ho : ∀ v, member? "overrides" twoWrong = some v → ∃ os, v = .object os := by
    intro v hv
    cases hv
    exact ⟨_, rfl⟩
  have hn : Only "native" .null [("native", .null)] := by
    intro k
    by_cases hk : k = "native"
    · subst hk
      rfl
    · rw [if_neg hk, member?, List.reverse_singleton, valueAt?_cons, if_neg (Ne.symm hk)]
      rfl
  have hw : Leaf.WrongIn (.object twoWrong) .partialProxy _ :=
    ⟨.text "off", rfl, .noName rfl (by decide)⟩
  obtain ⟨-, -, herror, -⟩ := ofJson_exact ho
  refine ⟨ho, hw, (herror _).mpr
    ⟨.override .osName, ⟨.bool true, rfl, .notText rfl nofun nofun⟩, fun l hl => ?_⟩⟩
  cases l with
  | logLevel => exact ⟨_, .missing rfl⟩
  | defaultEncoding => exact ⟨_, .given rfl (.entry nofun (.inr rfl) hn)⟩
  | partialProxy => exact absurd hl (by decide +kernel)
  | override o =>
    cases o with
    | archAbi => exact ⟨_, .given rfl (.null _)⟩
    | nativeEncoding => exact ⟨_, .missing rfl⟩
    | osArch => exact ⟨_, .missing rfl⟩
    | _ => exact absurd hl (by decide +kernel)

end Config

end HostProfile
