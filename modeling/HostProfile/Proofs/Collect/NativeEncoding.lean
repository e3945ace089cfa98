import HostProfile.Proofs.Charset
import HostProfile.Proofs.Collect.Fields
import HostProfile.Proofs.Locale.Resolution
import HostProfile.Proofs.Text.Utf8

/-! The native encoding, by the place its name is read at. An override and the locale tool are taken
to say the registered name or one from before the registry, and only a locale name may spell UTF-8 as
it likes. -/
namespace HostProfile

open Text

/-! ### Answers of the host -/

theorem Host.textValue?_of_encode {h : Host} {key s : String}
    (hv : h.value? key = some (Utf8.encode s.toList)) : h.textValue? key = some s := by
  simp [textValue?, hv]

theorem Collect.answer?_of_encode {h : Host} {command : Command} {s : String}
    {before after : List Char} (hb : AllBlank before) (ha : AllBlank after)
    (ht : Trimmed s.toList)
    (ho : h.output? command = some (Utf8.encode (before ++ s.toList ++ after))) :
    answer? h command = some s := by
  simp only [answer?, Host.outputText?, ho, Option.map_some, Utf8.decodeLossy_encode,
    String.toList_ofList, trim_append hb ha, trim_of_trimmed ht, String.ofList_toList]

theorem Collect.locale_of_lcAll {h : Host} {s : String} (hne : s ≠ "")
    (hv : h.value? "LC_ALL" = some (Utf8.encode s.toList)) (category : Locale.Category) :
    locale h category = (Locale.parse? s).getD {} := by
  have hf : category.First h.textValue? (· ≠ "") s := by
    refine ⟨[], "LC_ALL", category.variableNames.tail, ?_, Host.textValue?_of_encode hv, hne,
      by simp⟩
    cases category <;> rfl
  rw [locale, Locale.resolve?, Locale.resolveName_of_first hf]

/-! ### A codeset in a locale name -/

theorem Locale.parse?_of_codeset {name : String} (hne : name ≠ "") (hm : Without ['@'] name)
    (ht : Trimmed name.toList) :
    parse? ("en_US." ++ name) = some (ofName ⟨"en", some "US", some name, none⟩) := by
  have hn : name.toList ≠ [] := String.toList_eq_nil_iff.not.mpr hne
  have ht' : Trimmed ("en_US." ++ name).toList := by
    rw [String.toList_append]
    constructor
    · simp [show isBlank 'e' = false by decide]
    · rw [List.getLast?_append_of_ne_nil _ hn]
      exact ht.2
  have hs : LocaleName.Spells ⟨"en", some "US", some name, none⟩ ("en_US." ++ name) := by
    have hl : Without ['_', '.', '@'] "en" := by decide
    have hc : Without ['.', '@'] "US" := by decide
    refine ⟨⟨hl, ?_, ?_⟩, ?_⟩
    · rintro s ⟨⟩
      exact hc
    · rintro s ⟨⟩
      exact hm
    · rw [trim_of_trimmed ht']
      simp [LocaleName.toList_toText, LocaleName.marked]
  refine parse?_eq_some (fun hb => ?_) hs
  have he : isBlank 'e' = true := hb 'e' (by simp)
  exact absurd he (by decide)

theorem Locale.codeset_ofName_of_codeset {name : String} (hne : name ≠ "") :
    (ofName ⟨"en", some "US", some name, none⟩).codeset = some (Charset.canonicalCodeset name) := by
  have hc : nonEmpty? (Charset.canonicalCodeset name) = some (Charset.canonicalCodeset name) := by
    rw [nonEmpty?_eq_some_iff, Ne, Charset.canonicalCodeset_eq_empty_iff]
    exact ⟨hne, rfl⟩
  simp [ofName, hc]

/-! ### Places -/

/-- Where the name of the native encoding is read. -/
inductive EncodingOrigin where
  | locale | override | charmap
  deriving DecidableEq, Repr

namespace EncodingOrigin

/-- A name is read at this place: as the codeset of an `en_US` locale, as an override, or from the
locale tool where the format locale has no codeset. -/
def Names (c : Config) (h : Host) (name : String) : EncodingOrigin → Prop
  | .locale =>
    c.overrides .nativeEncoding = none ∧
      h.value? "LC_ALL" = some (Utf8.encode ("en_US." ++ name).toList)
  | .override => c.overrides .nativeEncoding = some name
  | .charmap =>
    c.overrides .nativeEncoding = none ∧ (Collect.locale h .format).codeset = none ∧
      ∃ before after, AllBlank before ∧ AllBlank after ∧
        h.output? .charmap = some (Utf8.encode (before ++ name.toList ++ after))

/-- How a name at this place is read. -/
def reading : EncodingOrigin → String → String
  | .locale => Charset.canonicalCodeset
  | .override | .charmap => Charset.canonical

theorem reading_eq_empty_iff (o : EncodingOrigin) (name : String) :
    o.reading name = "" ↔ name = "" := by
  cases o with
  | locale => exact Charset.canonicalCodeset_eq_empty_iff name
  | _ => exact Charset.canonical_eq_empty_iff name

theorem reading_of_spellsUtf8 (o : EncodingOrigin) {name : String}
    (h : Charset.SpellsUtf8 name) :
    o.reading name = if o = .locale then Charset.utf8 else name := by
  cases o with
  | locale => exact Charset.canonicalCodeset_of_spellsUtf8 h
  | _ => exact Charset.canonical_of_spellsUtf8 h

theorem reading_of_not_spellsUtf8 (o : EncodingOrigin) {name : String}
    (h : ¬ Charset.SpellsUtf8 name) : o.reading name = Charset.canonical name := by
  cases o with
  | locale => exact Charset.canonicalCodeset_of_not_spellsUtf8 h
  | _ => rfl

/-- Two places differ over the other spellings of UTF-8, if one of them is a locale name. -/
theorem reading_eq_reading_iff (o o' : EncodingOrigin) (name : String) :
    o.reading name = o'.reading name ↔
      (o = .locale ↔ o' = .locale) ∨ (Charset.SpellsUtf8 name → name = Charset.utf8) := by
  have hc := Charset.canonicalCodeset_eq_canonical_iff name
  have hc' : Charset.canonical name = Charset.canonicalCodeset name ↔
      (Charset.SpellsUtf8 name → name = Charset.utf8) := eq_comm.trans hc
  cases o <;> cases o' <;> simp [reading, hc, hc']

end EncodingOrigin

open Collect

variable {name : String} {o o' : EncodingOrigin} {c c' : Config} {h h' : Host}

theorem value_nativeEncoding_of_names (hne : name ≠ "") (hm : Without ['@'] name)
    (ht : Trimmed name.toList) (hn : o.Names c h name) :
    (nativeEncoding c h).value = o.reading name := by
  unfold nativeEncoding
  cases o with
  | locale =>
    obtain ⟨ho, hv⟩ := hn
    have hl : locale h .format = Locale.ofName ⟨"en", some "US", some name, none⟩ := by
      rw [locale_of_lcAll (by simp) hv, Locale.parse?_of_codeset hne hm ht, Option.getD_some]
    rw [ho, hl]
    simp only [hostEncoding, Locale.codeset_ofName_of_codeset hne]
    rfl
  | override =>
    have ho : c.overrides .nativeEncoding = some name := hn
    rw [ho]
    rfl
  | charmap =>
    obtain ⟨ho, hc, before, after, hb, ha, hout⟩ := hn
    have hw : OsFamily.host.isWindows = false := by decide
    have hs : nonEmpty? name = some name := (nonEmpty?_eq_some_iff name name).mpr ⟨hne, rfl⟩
    rw [ho]
    simp only [hostEncoding, hc, hw, answer?_of_encode hb ha ht hout, Option.bind_some, hs,
      Bool.false_eq_true, if_false]
    rfl

theorem text_nativeEncoding_of_names (hne : name ≠ "") (hm : Without ['@'] name)
    (ht : Trimmed name.toList) (hn : o.Names c h name) :
    (collect c h).text .nativeEncoding = some (o.reading name) := by
  have hr : o.reading name ≠ "" := (o.reading_eq_empty_iff name).not.mpr hne
  rw [text_collect, Collect.text, value_nativeEncoding_of_names hne hm ht hn, Option.filter_some]
  simp [hr]

/-- A name from before the registry is reported as the registered one wherever it is read, and
every other name as it is, but for the spellings of UTF-8: in a locale name they all are UTF-8. So two
places report one name alike unless it is such a spelling and just one of them is a locale name. -/
theorem nativeEncoding_exact (hne : name ≠ "") (hm : Without ['@'] name)
    (ht : Trimmed name.toList) (hn : o.Names c h name) (hn' : o'.Names c' h' name) :
    ((collect c h).text .nativeEncoding = (collect c' h').text .nativeEncoding ↔
      (o = .locale ↔ o' = .locale) ∨ (Charset.SpellsUtf8 name → name = "UTF-8")) ∧
    (Charset.SpellsUtf8 name →
      (collect c h).text .nativeEncoding = some (if o = .locale then "UTF-8" else name)) ∧
    (∀ registered, (name, registered) ∈ Charset.aliases →
      (collect c h).text .nativeEncoding = some registered) ∧
    (¬ Charset.SpellsUtf8 name → (∀ e ∈ Charset.aliases, e.1 ≠ name) →
      (collect c h).text .nativeEncoding = some name) := by
  rw [text_nativeEncoding_of_names hne hm ht hn, text_nativeEncoding_of_names hne hm ht hn']
  refine ⟨?agree, fun hs => ?utf8, fun registered hr => ?old, fun hs ha => ?other⟩
  case agree =>
    rw [Option.some.injEq]
    exact o.reading_eq_reading_iff o' name
  case utf8 =>
    rw [o.reading_of_spellsUtf8 hs]
    rfl
  case old =>
    rw [o.reading_of_not_spellsUtf8 (Charset.not_spellsUtf8_alias _ hr),
      Charset.canonical_alias _ hr]
  case other => rw [o.reading_of_not_spellsUtf8 hs, Charset.canonical_of_not_alias ha]

/-- An old name in a locale and from the locale tool. -/
theorem nativeEncoding_exact_latin9 :
    let h : Host := { environment := [("LC_ALL", Utf8.encode "en_US.ISO8859-15".toList)] }
    let h' : Host :=
      { output? := fun command =>
          if command = .charmap then some (Utf8.encode "ISO8859-15\n".toList) else none }
    let name := "ISO8859-15"
    name ≠ "" ∧ Without ['@'] name ∧ Trimmed name.toList ∧
      EncodingOrigin.locale.Names {} h name ∧ EncodingOrigin.charmap.Names {} h' name ∧
      (collect {} h).text .nativeEncoding = some "ISO-8859-15" ∧
      (collect {} h').text .nativeEncoding = some "ISO-8859-15" := by
  intro h h' name
  have hne : name ≠ "" := by decide
  have hm : Without ['@'] name := by decide
  have ht : Trimmed name.toList := by decide
  have hl : EncodingOrigin.locale.Names {} h name := ⟨rfl, rfl⟩
  have hc : EncodingOrigin.charmap.Names {} h' name :=
    ⟨rfl, by decide +kernel, [], ['\n'], by decide, by decide, by decide +kernel⟩
  have hs : ¬ Charset.SpellsUtf8 name := by decide
  obtain ⟨hi, -, ha, -⟩ := nativeEncoding_exact hne hm ht hl hc
  have hr := ha "ISO-8859-15" (by decide)
  exact ⟨hne, hm, ht, hl, hc, hr, (hi.mpr (.inr fun h => absurd h hs)).symm.trans hr⟩

/-- UTF-8 without its dash: a locale name is put right, an override and the locale tool are not. -/
theorem nativeEncoding_of_utf8_without_dash :
    let h : Host := { environment := [("LC_ALL", Utf8.encode "en_US.utf8".toList)] }
    let h' : Host :=
      { output? := fun command =>
          if command = .charmap then some (Utf8.encode "utf8\n".toList) else none }
    let c : Config := { overrides := fun o => if o = .nativeEncoding then some "utf8" else none }
    let name := "utf8"
    name ≠ "" ∧ Without ['@'] name ∧ Trimmed name.toList ∧ Charset.SpellsUtf8 name ∧
      EncodingOrigin.locale.Names {} h name ∧ EncodingOrigin.override.Names c {} name ∧
      EncodingOrigin.charmap.Names {} h' name ∧
      (collect {} h).text .nativeEncoding = some "UTF-8" ∧
      (collect c {}).text .nativeEncoding = some "utf8" ∧
      (collect {} h').text .nativeEncoding = some "utf8" := by
  intro h h' c name
  have hne : name ≠ "" := by decide
  have hm : Without ['@'] name := by decide
  have ht : Trimmed name.toList := by decide
  have hl : EncodingOrigin.locale.Names {} h name := ⟨rfl, rfl⟩
  have ho : EncodingOrigin.override.Names c {} name := rfl
  have hc : EncodingOrigin.charmap.Names {} h' name :=
    ⟨rfl, by decide +kernel, [], ['\n'], by decide, by decide, by decide +kernel⟩
  refine ⟨hne, hm, ht, by decide, hl, ho, hc, ?_, ?_, ?_⟩
  · rw [text_nativeEncoding_of_names hne hm ht hl]
    decide
  · rw [text_nativeEncoding_of_names hne hm ht ho]
    decide
  · rw [text_nativeEncoding_of_names hne hm ht hc]
    decide

end HostProfile
