import HostProfile.Proofs.Dictionary
import HostProfile.Record.Properties

/-! The flat view of a record has an entry for a key exactly if one source of that key gives a
value, and native text that gives none is either absent or reported. -/
namespace HostProfile

theorem TextField.mem_all (f : TextField) : f ∈ TextField.all := by
  cases f <;> decide

theorem NativeField.mem_all (f : NativeField) : f ∈ NativeField.all := by
  cases f <;> decide

theorem Locale.Part.mem_all (p : Locale.Part) : p ∈ Locale.Part.all := by
  cases p <;> decide

theorem Proxy.Settings.bypassText?_eq_some_iff (p : Proxy.Settings) (v : String) :
    p.bypassText? = some v ↔ p.exceptions ≠ [] ∧ "|".intercalate p.exceptions = v := by
  unfold bypassText?
  cases p.exceptions <;> simp

namespace Record

/-- What each source of a record has to say, rule by rule. -/
inductive Gives (r : Record) : Source → String → Prop where
  | text {f : TextField} {v : String} (h : r.text f = some v) : Gives r (.text f) v
  | native {f : NativeField} {t : NativeText} {v : String} (h : r.native f = some t)
      (hv : t.toString? = .ok v) : Gives r (.native f) v
  | displayPart {p : Locale.Part} {v : String} (h : r.displayLocale.part p = some v) :
      Gives r (.displayPart p) v
  | formatPart {p : Locale.Part} {v : String} (h : r.formatLocale.part p = some v)
      (hd : r.displayLocale.part p ≠ some v) : Gives r (.formatPart p) v
  | unicodeOrder : Gives r .unicodeOrder r.unicodeOrder.unicodeName
  | instructionSets {sets : List String} (h : r.instructionSets = some sets) :
      Gives r .instructionSets (" ".intercalate sets)
  | proxyHost {k : Proxy.Kind} {p : Proxy.Settings} {v : String} (h : r.proxy = some p)
      (he : (p.endpoint k).enabled = true) (hv : (p.endpoint k).host = some v) :
      Gives r (.proxyHost k) v
  | proxyPort {k : Proxy.Kind} {p : Proxy.Settings} {v : String} (h : r.proxy = some p)
      (he : (p.endpoint k).enabled = true) (hv : (p.endpoint k).port = some v) :
      Gives r (.proxyPort k) v
  | httpBypass {p : Proxy.Settings} (h : r.proxy = some p) (he : p.exceptions ≠ []) :
      Gives r .httpBypass ("|".intercalate p.exceptions)
  | ftpBypass {p : Proxy.Settings} (h : r.proxy = some p) (he : p.exceptions ≠ []) :
      Gives r .ftpBypass ("|".intercalate p.exceptions)

namespace Source

theorem mem_all (s : Source) : s ∈ Source.all := by
  unfold Source.all
  cases s with
  | text f => simp [f.mem_all]
  | native f => simp [f.mem_all]
  | displayPart p => simp [p.mem_all]
  | formatPart p => simp [p.mem_all]
  | proxyHost k => simp [k.mem_all]
  | proxyPort k => simp [k.mem_all]
  | _ => simp

theorem nodup_keys : (Source.all.map key).Nodup := by
  decide +kernel

theorem key_injective : Function.Injective key := by
  intro s t h
  exact List.inj_on_of_nodup_map nodup_keys s.mem_all t.mem_all h

end Source

/-! ### The entries -/

theorem enabledEndpoint?_eq_some_iff (r : Record) (k : Proxy.Kind) (e : Proxy.Endpoint) :
    r.enabledEndpoint? k = some e ↔
      ∃ p, r.proxy = some p ∧ (p.endpoint k).enabled = true ∧ p.endpoint k = e := by
  unfold enabledEndpoint?
  cases hp : r.proxy with
  | none => simp
  | some p =>
    simp only [Option.map_some, Option.filter_eq_some_iff, Option.some.injEq, exists_eq_left']
    constructor
    · intro hh
      obtain ⟨rfl, he⟩ := hh
      exact ⟨he, rfl⟩
    · intro hh
      obtain ⟨he, rfl⟩ := hh
      exact ⟨rfl, he⟩

theorem property?_eq_some_iff (r : Record) (s : Source) (v : String) :
    r.property? s = some v ↔ r.Gives s v := by
  cases s with
  | text f => exact ⟨.text, fun | .text h => h⟩
  | native f =>
    have hc : ∀ t : NativeText, t.toString?.toOption = some v ↔ t.toString? = .ok v := by
      intro t
      cases t.toString? <;> simp [Except.toOption]
    simp only [property?, Option.bind_eq_some_iff, hc]
    exact ⟨fun ⟨_, h, hv⟩ => .native h hv, fun | .native h hv => ⟨_, h, hv⟩⟩
  | displayPart p => exact ⟨.displayPart, fun | .displayPart h => h⟩
  | formatPart p =>
    simp only [property?]
    constructor
    · intro h
      split at h
      · cases h
      · next hne => exact .formatPart h fun hd => hne (h.trans hd.symm)
    · intro h
      cases h with
      | formatPart h hd =>
        have hne : r.formatLocale.part p ≠ r.displayLocale.part p := fun he => hd (he ▸ h)
        rw [if_neg hne, h]
  | unicodeOrder => exact ⟨fun | rfl => .unicodeOrder, fun | .unicodeOrder => rfl⟩
  | instructionSets =>
    simp only [property?, Option.map_eq_some_iff]
    constructor
    · intro hh
      obtain ⟨sets, h, rfl⟩ := hh
      exact .instructionSets h
    · intro h
      cases h with
      | instructionSets h => exact ⟨_, h, rfl⟩
  | proxyHost k =>
    simp only [property?, Option.bind_eq_some_iff, enabledEndpoint?_eq_some_iff]
    constructor
    · intro hh
      obtain ⟨e, ⟨p, h, he, rfl⟩, hv⟩ := hh
      exact .proxyHost h he hv
    · intro h
      cases h with
      | proxyHost h he hv => exact ⟨_, ⟨_, h, he, rfl⟩, hv⟩
  | proxyPort k =>
    simp only [property?, Option.bind_eq_some_iff, enabledEndpoint?_eq_some_iff]
    constructor
    · intro hh
      obtain ⟨e, ⟨p, h, he, rfl⟩, hv⟩ := hh
      exact .proxyPort h he hv
    · intro h
      cases h with
      | proxyPort h he hv => exact ⟨_, ⟨_, h, he, rfl⟩, hv⟩
  | httpBypass =>
    simp only [property?, Option.bind_eq_some_iff, Proxy.Settings.bypassText?_eq_some_iff]
    constructor
    · intro hh
      obtain ⟨p, h, he, rfl⟩ := hh
      exact .httpBypass h he
    · intro h
      cases h with
      | httpBypass h he => exact ⟨_, h, he, rfl⟩
  | ftpBypass =>
    simp only [property?, Option.bind_eq_some_iff, Proxy.Settings.bypassText?_eq_some_iff]
    constructor
    · intro hh
      obtain ⟨p, h, he, rfl⟩ := hh
      exact .ftpBypass h he
    · intro h
      cases h with
      | ftpBypass h he => exact ⟨_, h, he, rfl⟩

/-- The entry that a source writes. -/
def written? (r : Record) (s : Source) : Option (String × String) :=
  (r.property? s).map fun v => (s.key, v)

theorem written?_eq_some_iff (r : Record) (s : Source) (k v : String) :
    r.written? s = some (k, v) ↔ s.key = k ∧ r.Gives s v := by
  simp only [written?, Option.map_eq_some_iff, property?_eq_some_iff, Prod.mk.injEq]
  constructor
  · intro hh
    obtain ⟨w, h, hk, rfl⟩ := hh
    exact ⟨hk, h⟩
  · intro hh
    obtain ⟨hk, h⟩ := hh
    exact ⟨v, h, hk, rfl⟩

theorem nodup_entryKeys (r : Record) {sources : List Source}
    (hn : (sources.map Source.key).Nodup) : ((sources.filterMap r.written?).map Prod.fst).Nodup := by
  refine List.Nodup.sublist ?_ hn
  induction sources with
  | nil => exact List.Sublist.refl _
  | cons s sources ih =>
    have hs := ih (List.nodup_cons.mp hn).2
    cases hp : r.property? s with
    | none =>
      rw [List.filterMap_cons_none (by simp [written?, hp]), List.map_cons]
      exact hs.cons _
    | some v =>
      rw [List.filterMap_cons_some (b := (s.key, v)) (by simp [written?, hp]), List.map_cons,
        List.map_cons]
      exact hs.cons_cons _

/-- The sources may write in any order. -/
theorem ofList_entries_perm (r : Record) {order : List Source} (h : order.Perm Source.all) :
    .ofList (order.filterMap r.written?) = r.properties := by
  have hn : (order.map Source.key).Nodup :=
    (h.map Source.key).nodup_iff.mpr Source.nodup_keys
  exact Dictionary.ofList_perm (h.filterMap r.written?) (r.nodup_entryKeys hn)

theorem get?_properties_eq_some_iff (r : Record) (k v : String) :
    r.properties.get? k = some v ↔ ∃ s : Source, s.key = k ∧ r.Gives s v := by
  have hp : r.properties = .ofList (Source.all.filterMap r.written?) := rfl
  rw [hp, Dictionary.get?_ofList_eq_some_iff (r.nodup_entryKeys Source.nodup_keys)]
  simp only [List.mem_filterMap, written?_eq_some_iff, Source.mem_all, true_and]

theorem get?_properties_key (r : Record) (s : Source) :
    r.properties.get? s.key = r.property? s := by
  refine Option.ext fun v => ?_
  rw [get?_properties_eq_some_iff, property?_eq_some_iff]
  constructor
  · intro hh
    obtain ⟨t, hk, h⟩ := hh
    exact Source.key_injective hk ▸ h
  · intro h
    exact ⟨s, rfl, h⟩

/-! ### Native text -/

/-- What becomes of a native field in the flat view. -/
inductive Conversion where
  | absent
  | property (value : String)
  | unconvertible (error : ConversionError)

/-- The warnings about the key of a native field. -/
def warningsOf (r : Record) (f : NativeField) : List Event :=
  r.propertyEvents.filter fun
    | .unconvertible k _ => k == f.propertyKey
    | _ => false

/-- A field with a value either is a property and draws no warning, or is none and draws one. -/
def HasConversion (r : Record) (f : NativeField) : Conversion → Prop
  | .absent =>
    r.native f = none ∧ r.properties.get? f.propertyKey = none ∧ r.warningsOf f = []
  | .property v =>
    (∃ t, r.native f = some t ∧ t.toString? = .ok v) ∧
      r.properties.get? f.propertyKey = some v ∧ r.warningsOf f = []
  | .unconvertible e =>
    (∃ t, r.native f = some t ∧ t.toString? = .error e) ∧
      r.properties.get? f.propertyKey = none ∧
      r.warningsOf f = [.unconvertible f.propertyKey e]

theorem unconvertible?_eq_some_iff (r : Record) (f : NativeField) (e : Event) :
    r.unconvertible? f = some e ↔
      ∃ t err, r.native f = some t ∧ t.toString? = .error err ∧
        e = .unconvertible f.propertyKey err := by
  unfold unconvertible?
  cases hn : r.native f with
  | none => simp
  | some t =>
    cases ht : t.toString? with
    | ok v => simp [ht]
    | error err => simp [ht, eq_comm]

theorem propertyKey_injective : Function.Injective NativeField.propertyKey := by
  intro f g h
  have hs : Source.native f = Source.native g := Source.key_injective h
  injection hs

theorem warningsOf_eq (r : Record) (f : NativeField) :
    r.warningsOf f = (r.unconvertible? f).toList := by
  have hf : ∀ g, (r.unconvertible? g).filter (fun
      | .unconvertible k _ => k == f.propertyKey
      | _ => false) = if g = f then r.unconvertible? f else none := by
    intro g
    cases hu : r.unconvertible? g with
    | none =>
      split
      · next hg => rw [← hg, hu, Option.filter_none]
      · rfl
    | some e =>
      obtain ⟨t, err, hn, ht, rfl⟩ := (unconvertible?_eq_some_iff ..).mp hu
      by_cases hg : g = f
      · subst hg
        simp [hu]
      · have hk : g.propertyKey ≠ f.propertyKey := fun h => hg (propertyKey_injective h)
        simp [hg, hk]
  unfold warningsOf propertyEvents
  rw [List.filter_filterMap, funext hf]
  cases f <;> cases r.unconvertible? _ <;> rfl

/-- What native text becomes. -/
def conversion : Option NativeText → Conversion
  | none => .absent
  | some t =>
    match t.toString? with
    | .ok v => .property v
    | .error e => .unconvertible e

theorem HasConversion.eq_conversion {r : Record} {f : NativeField} {c : Conversion}
    (h : r.HasConversion f c) : c = conversion (r.native f) := by
  cases c with
  | absent =>
    obtain ⟨hn, -⟩ := h
    rw [hn, conversion]
  | property v =>
    obtain ⟨⟨t, hn, ht⟩, -⟩ := h
    rw [hn, conversion, ht]
  | unconvertible e =>
    obtain ⟨⟨t, hn, ht⟩, -⟩ := h
    rw [hn, conversion, ht]

theorem hasConversion_conversion (r : Record) (f : NativeField) :
    r.HasConversion f (conversion (r.native f)) := by
  have hp : r.properties.get? f.propertyKey = r.property? (.native f) :=
    r.get?_properties_key (.native f)
  cases hn : r.native f with
  | none => exact ⟨hn, by simp [hp, property?, hn], by simp [warningsOf_eq, unconvertible?, hn]⟩
  | some t =>
    rw [conversion]
    cases ht : t.toString? with
    | ok v =>
      exact ⟨⟨t, hn, ht⟩, by simp [hp, property?, hn, ht, Except.toOption],
        by simp [warningsOf_eq, unconvertible?, hn, ht]⟩
    | error e =>
      exact ⟨⟨t, hn, ht⟩, by simp [hp, property?, hn, ht, Except.toOption],
        by simp [warningsOf_eq, unconvertible?, hn, ht]⟩

theorem hasConversion_existsUnique (r : Record) (f : NativeField) :
    ∃! c, r.HasConversion f c :=
  ⟨_, r.hasConversion_conversion f, fun _ h => h.eq_conversion⟩

/-- The flat view maps a key to a value exactly if one source of that key gives it. The order of
the writes is free, and native text is absent, a property or reported, and only one of these. -/
theorem properties_exact (r : Record) :
    (∀ k v, r.properties.get? k = some v ↔ ∃! s : Source, s.key = k ∧ r.Gives s v) ∧
      Function.Injective Source.key ∧
      (∀ order : List Source, order.Perm Source.all →
        .ofList (order.filterMap r.written?) = r.properties) ∧
      (∀ f, ∃! c, r.HasConversion f c) := by
  refine ⟨fun k v => ?_, Source.key_injective, fun order h => r.ofList_entries_perm h,
    r.hasConversion_existsUnique⟩
  rw [get?_properties_eq_some_iff]
  constructor
  · intro hh
    obtain ⟨s, hk, h⟩ := hh
    exact ⟨s, ⟨hk, h⟩, fun t ht => Source.key_injective (ht.1.trans hk.symm)⟩
  · intro hh
    obtain ⟨s, hs, -⟩ := hh
    exact ⟨s, hs⟩

/-- A record with text that does not convert and two locales, written backwards. -/
theorem properties_exact_backwards :
    let r : Record :=
      { native := fun
          | .userName => some (.narrow [0x61, 0xFF])
          | .userHome => some (.ofString "/home/ada")
          | _ => none
        displayLocale := { language := some "en", country := some "DE" }
        formatLocale := { language := some "de", country := some "DE" } }
    Source.all.reverse.Perm Source.all ∧
      .ofList (Source.all.reverse.filterMap r.written?) = r.properties ∧
      r.properties.get? "user.language.format" = some "de" ∧
      r.properties.get? "user.country.format" = none ∧
      r.properties.get? "user.home" = some "/home/ada" ∧
      r.warningsOf .userName = [.unconvertible "user.name" (.invalidUtf8 1)] := by
  intro r
  have hp : Source.all.reverse.Perm Source.all := List.reverse_perm _
  exact ⟨hp, (properties_exact r).2.2.1 _ hp, by decide +kernel, by decide +kernel,
    by decide +kernel, by decide +kernel⟩

end Record

end HostProfile
