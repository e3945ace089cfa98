import HostProfile.Proofs.Collect.Fields
import HostProfile.Proofs.Record.Properties

/-! What the flat view tells of the format locale, to a reader who looks for a part under its format
key and, where that is missing, under its display key. The format locale shines through, and where it
lacks a part the display locale's part is read in its place. -/
namespace HostProfile

namespace Locale

/-- The part of the format locale, as read off the properties. -/
def Part.readFormat (p : Part) (props : Dictionary String) : Option String :=
  props.get? (p.propertyKey ++ ".format") <|> props.get? p.propertyKey

/-- The keys under which locales are shown. -/
def propertyKeys : List String :=
  Part.all.flatMap fun p => [p.propertyKey, p.propertyKey ++ ".format"]

/-- Two values of a part that a reader cannot tell apart where `shown` is the value on display. -/
def Alike (shown : Option String) (a b : Option String) : Prop :=
  a = b ∨ (a = none ∧ b = shown) ∨ (b = none ∧ a = shown)

theorem alike_iff (shown a b : Option String) :
    Alike shown a b ↔ (a <|> shown) = (b <|> shown) := by
  unfold Alike
  cases a <;> cases b <;> simp [eq_comm]

end Locale

namespace Dictionary

/-- Two dictionaries agree on the given keys. -/
def AgreeOn {α : Type} (d e : Dictionary α) (keys : List String) : Prop :=
  ∀ k ∈ keys, d.get? k = e.get? k

end Dictionary

namespace Record

open HostProfile.Locale

theorem readFormat_properties (r : Record) (p : Part) :
    p.readFormat r.properties = (r.formatLocale.part p <|> r.displayLocale.part p) := by
  have hf : r.properties.get? (p.propertyKey ++ ".format") = r.property? (.formatPart p) :=
    r.get?_properties_key (.formatPart p)
  have hd : r.properties.get? p.propertyKey = r.displayLocale.part p :=
    r.get?_properties_key (.displayPart p)
  rw [Part.readFormat, hf, hd, property?]
  split
  · next he => rw [he]; cases r.displayLocale.part p <;> rfl
  · rfl

/-- What is read of a part and what is on display determine whether the part has a format entry. -/
theorem property?_formatPart (r : Record) (p : Part) :
    r.property? (.formatPart p) =
      let read := r.formatLocale.part p <|> r.displayLocale.part p
      if read = r.displayLocale.part p then none else read := by
  simp only [property?]
  cases hf : r.formatLocale.part p with
  | none => simp
  | some v => simp

theorem mem_propertyKeys (k : String) :
    k ∈ propertyKeys ↔ ∃ p : Part, k = p.propertyKey ∨ k = p.propertyKey ++ ".format" := by
  simp [propertyKeys, Part.mem_all]

/-- The locale keys tell two records apart exactly where a reader does. -/
theorem agreeOn_propertyKeys_iff (r s : Record) :
    r.properties.AgreeOn s.properties propertyKeys ↔
      ∀ p, r.displayLocale.part p = s.displayLocale.part p ∧
        Alike (r.displayLocale.part p) (r.formatLocale.part p) (s.formatLocale.part p) := by
  have hd : ∀ (t : Record) (p : Part), t.properties.get? p.propertyKey = t.displayLocale.part p :=
    fun t p => t.get?_properties_key (.displayPart p)
  have hf : ∀ (t : Record) (p : Part),
      t.properties.get? (p.propertyKey ++ ".format") = t.property? (.formatPart p) :=
    fun t p => t.get?_properties_key (.formatPart p)
  constructor
  · intro h p
    have hp := h p.propertyKey ((mem_propertyKeys _).mpr ⟨p, .inl rfl⟩)
    have hpf := h (p.propertyKey ++ ".format") ((mem_propertyKeys _).mpr ⟨p, .inr rfl⟩)
    have hr : p.readFormat r.properties = p.readFormat s.properties := by
      rw [Part.readFormat, Part.readFormat, hp, hpf]
    rw [hd, hd] at hp
    rw [readFormat_properties, readFormat_properties, ← hp] at hr
    exact ⟨hp, (alike_iff ..).mpr hr⟩
  · intro h k hk
    obtain ⟨p, rfl | rfl⟩ := (mem_propertyKeys k).mp hk
    · rw [hd, hd, (h p).1]
    · have hr := (alike_iff ..).mp (h p).2
      rw [hf, hf, property?_formatPart, property?_formatPart, ← (h p).1, hr]

/-- A reader obtains the format locale's part, or the display locale's where the format locale has
none. Records and hosts that agree on the locale keys have the same locale on display, and format
locales alike. -/
theorem readFormat_exact :
    (∀ (r : Record) (p : Part),
      p.readFormat r.properties = (r.formatLocale.part p <|> r.displayLocale.part p)) ∧
    (∀ (r : Record) (p : Part), p.readFormat r.properties = r.formatLocale.part p ↔
      r.formatLocale.part p ≠ none ∨ r.displayLocale.part p = none) ∧
    (∀ r s : Record, r.properties.AgreeOn s.properties propertyKeys ↔
      ∀ p, r.displayLocale.part p = s.displayLocale.part p ∧
        Alike (r.displayLocale.part p) (r.formatLocale.part p) (s.formatLocale.part p)) ∧
    (∀ (c : Config) (h k : Host),
      (collect c h).properties.AgreeOn (collect c k).properties propertyKeys ↔
        ∀ p, (Collect.locale h .display).part p = (Collect.locale k .display).part p ∧
          Alike ((Collect.locale h .display).part p) ((Collect.locale h .format).part p)
            ((Collect.locale k .format).part p)) := by
  refine ⟨readFormat_properties, fun r p => ?_, agreeOn_propertyKeys_iff,
    fun c h k => ?_⟩
  · rw [readFormat_properties]
    cases r.formatLocale.part p <;> simp
  · rw [agreeOn_propertyKeys_iff, formatLocale_collect, formatLocale_collect,
      displayLocale_collect, displayLocale_collect]

/-- German without a country is read as that of Germany where messages are in the latter, just as on
a host whose numbers are in it too. -/
theorem readFormat_country_of_display :
    let german := Text.Utf8.encode "de.UTF-8".toList
    let germany := Text.Utf8.encode "de_DE.UTF-8".toList
    let h : Host := { environment := [("LC_CTYPE", german), ("LC_MESSAGES", germany)] }
    let k : Host := { environment := [("LC_CTYPE", germany), ("LC_MESSAGES", germany)] }
    (collect {} h).formatLocale.country = none ∧
      Part.country.readFormat (collect {} h).properties = some "DE" ∧
      (collect {} k).formatLocale.country = some "DE" ∧
      (collect {} h).properties.AgreeOn (collect {} k).properties propertyKeys := by
  intro german germany h k
  have hf : Collect.locale h .format = ⟨some "de", none, none, none, some "UTF-8"⟩ := by
    decide +kernel
  have hd : Collect.locale h .display = ⟨some "de", none, some "DE", none, some "UTF-8"⟩ := by
    decide +kernel
  have kf : Collect.locale k .format = ⟨some "de", none, some "DE", none, some "UTF-8"⟩ := by
    decide +kernel
  have kd : Collect.locale k .display = ⟨some "de", none, some "DE", none, some "UTF-8"⟩ := by
    decide +kernel
  refine ⟨?_, ?_, ?_, ?_⟩
  · rw [formatLocale_collect, hf]
  · rw [readFormat_properties, formatLocale_collect, displayLocale_collect, hf, hd]
    rfl
  · rw [formatLocale_collect, kf]
  · rw [agreeOn_propertyKeys_iff]
    simp only [alike_iff, formatLocale_collect, displayLocale_collect, hf, hd, kf, kd]
    intro p
    cases p <;> decide

end Record

end HostProfile
