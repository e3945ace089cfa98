import HostProfile.Proofs.Charset
import HostProfile.Proofs.Collect.Reports
import HostProfile.Proofs.Collect.WellFormed

/-! The encodings of a record: the native one has its name from the strongest source that gives one,
the others are copies of it, and all of them go by their registered names. -/
namespace HostProfile

open Text

/-- The name of the native encoding: an override, or else the codeset of the format locale, or else
what the locale tool prints, or else ASCII. -/
inductive NativeName (c : Config) (h : Host) : String → Prop
  | override {name : String} (ho : c.overrides .nativeEncoding = some name) :
      NativeName c h (Charset.canonical name)
  | codeset {name : String} (ho : c.overrides .nativeEncoding = none)
      (hc : (collect c h).formatLocale.codeset = some name) : NativeName c h name
  | charmap {printed : String} (ho : c.overrides .nativeEncoding = none)
      (hc : (collect c h).formatLocale.codeset = none)
      (hp : h.outputText? .charmap = some printed) (hb : ¬ AllBlank printed.toList) :
      NativeName c h (Charset.canonical (.ofList (trim printed.toList)))
  | ascii (ho : c.overrides .nativeEncoding = none)
      (hc : (collect c h).formatLocale.codeset = none)
      (hp : h.output? .charmap = none ∨ h.AnswersBlank .charmap) : NativeName c h "US-ASCII"

open Collect

variable {c : Config} {h : Host} {name : String}

/-! ### The native encoding -/

theorem value_nativeEncoding_of_codeset (ho : c.overrides .nativeEncoding = none)
    (hc : (collect c h).formatLocale.codeset = some name) : (nativeEncoding c h).value = name := by
  rw [formatLocale_collect] at hc
  simp only [nativeEncoding, ho, hostEncoding, hc]

theorem value_nativeEncoding_of_no_codeset (ho : c.overrides .nativeEncoding = none)
    (hc : (collect c h).formatLocale.codeset = none) :
    (nativeEncoding c h).value =
      (((answer? h .charmap).bind nonEmpty?).map Charset.canonical).getD Charset.ascii := by
  have hw : OsFamily.host.isWindows = false := by decide
  rw [formatLocale_collect] at hc
  simp only [nativeEncoding, ho, hostEncoding, hc, hw, Bool.false_eq_true, if_false]
  cases (answer? h .charmap).bind nonEmpty? <;> rfl

theorem NativeName.value_eq (hn : NativeName c h name) : (nativeEncoding c h).value = name := by
  cases hn with
  | override ho => simp only [nativeEncoding, ho]
  | codeset ho hc => exact value_nativeEncoding_of_codeset ho hc
  | charmap ho hc hp hb =>
    rename_i printed
    have hne : String.ofList (trim printed.toList) ≠ "" := by
      rwa [Ne, String.ofList_eq_empty_iff, trim_eq_nil_iff]
    have ha : (answer? h .charmap).bind nonEmpty? = some (.ofList (trim printed.toList)) := by
      rw [answer?, hp, Option.map_some, Option.bind_some]
      exact (nonEmpty?_eq_some_iff _ _).mpr ⟨hne, rfl⟩
    rw [value_nativeEncoding_of_no_codeset ho hc, ha]
    rfl
  | ascii ho hc hp =>
    rw [value_nativeEncoding_of_no_codeset ho hc,
      (bind_nonEmpty?_answer?_eq_none_iff h _).mpr hp]
    rfl

theorem nativeName_value (c : Config) (h : Host) : NativeName c h (nativeEncoding c h).value := by
  have ⟨name, hn⟩ : ∃ name, NativeName c h name := by
    cases ho : c.overrides .nativeEncoding with
    | some name => exact ⟨_, .override ho⟩
    | none =>
      cases hc : (collect c h).formatLocale.codeset with
      | some codeset => exact ⟨_, .codeset ho hc⟩
      | none =>
        cases hp : h.outputText? .charmap with
        | none => exact ⟨_, .ascii ho hc (.inl (by simpa [Host.outputText?] using hp))⟩
        | some printed =>
          by_cases hb : AllBlank printed.toList
          · exact ⟨_, .ascii ho hc (.inr ⟨printed, hp, hb⟩)⟩
          · exact ⟨_, .charmap ho hc hp hb⟩
  rwa [hn.value_eq]

theorem nativeName_iff : NativeName c h name ↔ (nativeEncoding c h).value = name :=
  ⟨NativeName.value_eq, fun hv => hv ▸ nativeName_value c h⟩

theorem NativeName.canonical_eq (hn : NativeName c h name) : Charset.canonical name = name := by
  cases hn with
  | override => exact Charset.canonical_canonical _
  | codeset ho hc =>
    rw [formatLocale_collect] at hc
    rw [← ((canonical_locale h .format).codeset _ hc).2.1]
    exact Charset.canonical_canonicalCodeset _
  | charmap => exact Charset.canonical_canonical _
  | ascii => decide

/-- Only an override can leave the native encoding without a name. -/
theorem NativeName.eq_empty_iff (hn : NativeName c h name) :
    name = "" ↔ c.overrides .nativeEncoding = some "" := by
  cases hn with
  | override ho => rw [Charset.canonical_eq_empty_iff, ho, Option.some.injEq]
  | codeset ho hc =>
    rw [formatLocale_collect] at hc
    simp [((canonical_locale h .format).codeset _ hc).1, ho]
  | charmap ho hc hp hb =>
    simp [Charset.canonical_eq_empty_iff, trim_eq_nil_iff, hb, ho]
  | ascii ho => simp [ho]

theorem text_nativeEncoding_eq_some_iff :
    (collect c h).text .nativeEncoding = some name ↔ name ≠ "" ∧ NativeName c h name := by
  rw [text_collect, nativeName_iff]
  simp only [Collect.text, Option.filter_eq_some_iff, Option.some.injEq]
  constructor
  · rintro ⟨rfl, hne⟩
    exact ⟨by simpa using hne, rfl⟩
  · rintro ⟨hne, rfl⟩
    exact ⟨rfl, by simpa using hne⟩

theorem text_nativeEncoding_eq_none_iff :
    (collect c h).text .nativeEncoding = none ↔ c.overrides .nativeEncoding = some "" := by
  rw [← (nativeName_value c h).eq_empty_iff, text_collect, filter_isEmpty_eq_none_iff]
  simp [Collect.text]

/-! ### Its copies -/

theorem text_encoding (c : Config) (h : Host) :
    (collect c h).text .encoding =
      if c.defaultEncoding = .utf8 then some "UTF-8" else (collect c h).text .nativeEncoding := by
  rw [text_collect, text_collect]
  simp only [Collect.text, encoding]
  cases c.defaultEncoding <;> rfl

theorem filter_streamEncoding (c : Config) (h : Host) (s : Stream) :
    (streamEncoding c h s).filter (!·.isEmpty) =
      if h.isTerminal s then (collect c h).text .nativeEncoding else none := by
  rw [text_collect, streamEncoding]
  split <;> rfl

theorem text_stdoutEncoding (c : Config) (h : Host) :
    (collect c h).text .stdoutEncoding =
      if h.isTerminal .stdout then (collect c h).text .nativeEncoding else none :=
  (text_collect c h .stdoutEncoding).trans (filter_streamEncoding c h .stdout)

theorem text_stderrEncoding (c : Config) (h : Host) :
    (collect c h).text .stderrEncoding =
      if h.isTerminal .stderr then (collect c h).text .nativeEncoding else none :=
  (text_collect c h .stderrEncoding).trans (filter_streamEncoding c h .stderr)

/-- The fields of a record that name an encoding. -/
def encodingFields : List TextField :=
  [.encoding, .nativeEncoding, .stdoutEncoding, .stderrEncoding]

/-- A field that names an encoding has the name of the native one, unless it is the default. -/
theorem text_encodingField {f : TextField} (hf : f ∈ encodingFields)
    (hv : (collect c h).text f = some name) :
    name = "UTF-8" ∨ (collect c h).text .nativeEncoding = some name := by
  simp only [encodingFields, List.mem_cons, List.not_mem_nil, or_false] at hf
  rcases hf with rfl | rfl | rfl | rfl
  · rw [text_encoding] at hv
    split at hv
    · exact .inl (Option.some.inj hv).symm
    · exact .inr hv
  · exact .inr hv
  · rw [text_stdoutEncoding] at hv
    exact .inr (Option.ite_none_right_eq_some.mp hv).2
  · rw [text_stderrEncoding] at hv
    exact .inr (Option.ite_none_right_eq_some.mp hv).2

/-! ### Two hosts -/

variable {h' : Host}

theorem NativeName.congr
    (hc : (collect c h').formatLocale.codeset = (collect c h).formatLocale.codeset)
    (hm : h'.output? .charmap = h.output? .charmap) (hn : NativeName c h name) :
    NativeName c h' name := by
  have hm' : h'.outputText? .charmap = h.outputText? .charmap := by
    rw [Host.outputText?, Host.outputText?, hm]
  cases hn with
  | override ho => exact .override ho
  | codeset ho hs => exact .codeset ho (hc.trans hs)
  | charmap ho hs hp hb => exact .charmap ho (hc.trans hs) (hm'.trans hp) hb
  | ascii ho hs hp =>
    refine .ascii ho (hc.trans hs) ?_
    rwa [Host.AnswersBlank, hm, hm']

theorem text_encodingField_congr
    (hc : (collect c h').formatLocale.codeset = (collect c h).formatLocale.codeset)
    (hm : h'.output? .charmap = h.output? .charmap) (ht : h'.isTerminal = h.isTerminal)
    {f : TextField} (hf : f ∈ encodingFields) : (collect c h').text f = (collect c h).text f := by
  have hn : (collect c h').text .nativeEncoding = (collect c h).text .nativeEncoding := by
    rw [text_collect, text_collect, Collect.text, Collect.text,
      ((nativeName_value c h).congr hc hm).value_eq]
  simp only [encodingFields, List.mem_cons, List.not_mem_nil, or_false] at hf
  rcases hf with rfl | rfl | rfl | rfl
  · rw [text_encoding, text_encoding, hn]
  · exact hn
  · rw [text_stdoutEncoding, text_stdoutEncoding, hn, ht]
  · rw [text_stderrEncoding, text_stderrEncoding, hn, ht]

/-- The native encoding has the name that the strongest source gives, and none just if the override
is empty. The default encoding is UTF-8 or the native one, and a stream has the native one if it is
a terminal. All names are registered ones. Of the locales only the codeset of the format locale
matters: hosts that agree on it, on the locale tool and on the terminals agree on all four, whatever
their display locales are. -/
theorem text_encodings_exact (c : Config) (h : Host) :
    let r := collect c h
    (∀ name, r.text .nativeEncoding = some name ↔ name ≠ "" ∧ NativeName c h name) ∧
    (r.text .nativeEncoding = none ↔ c.overrides .nativeEncoding = some "") ∧
    r.text .encoding =
      (if c.defaultEncoding = .utf8 then some "UTF-8" else r.text .nativeEncoding) ∧
    r.text .stdoutEncoding = (if h.isTerminal .stdout then r.text .nativeEncoding else none) ∧
    r.text .stderrEncoding = (if h.isTerminal .stderr then r.text .nativeEncoding else none) ∧
    (∀ f ∈ encodingFields, ∀ name, r.text f = some name → Charset.canonical name = name) ∧
    ∀ h' : Host, (collect c h').formatLocale.codeset = r.formatLocale.codeset →
      h'.output? .charmap = h.output? .charmap → h'.isTerminal = h.isTerminal →
      ∀ f ∈ encodingFields, (collect c h').text f = r.text f := by
  refine ⟨fun name => text_nativeEncoding_eq_some_iff, text_nativeEncoding_eq_none_iff,
    text_encoding c h, text_stdoutEncoding c h, text_stderrEncoding c h, fun f hf name hv => ?_,
    fun h' hc hm ht f hf => text_encodingField_congr hc hm ht hf⟩
  rcases text_encodingField hf hv with rfl | hn
  · decide
  · exact (text_nativeEncoding_eq_some_iff.mp hn).2.canonical_eq

/-- Two hosts with one format locale, of which one talks to its user in another codeset. -/
theorem text_encodings_exact_of_messages :
    let lang := ("LANG", Utf8.encode "de_DE.ISO8859-15".toList)
    let h : Host := { environment := [lang], isTerminal := fun s => s = .stdout }
    let h' : Host :=
      { environment := [("LC_MESSAGES", Utf8.encode "fr_FR.UTF-8".toList), lang]
        isTerminal := fun s => s = .stdout }
    (collect {} h).displayLocale.codeset = some "ISO-8859-15" ∧
      (collect {} h').displayLocale.codeset = some "UTF-8" ∧
      (collect {} h').formatLocale.codeset = (collect {} h).formatLocale.codeset ∧
      (collect {} h).text .nativeEncoding = some "ISO-8859-15" ∧
      (collect {} h).text .encoding = some "UTF-8" ∧
      (collect {} h).text .stdoutEncoding = some "ISO-8859-15" ∧
      Charset.canonical "ISO-8859-15" = "ISO-8859-15" ∧
      ∀ f ∈ encodingFields, (collect {} h').text f = (collect {} h).text f := by
  intro lang h h'
  have hd : (collect {} h).displayLocale.codeset = some "ISO-8859-15" ∧
      (collect {} h').displayLocale.codeset = some "UTF-8" := by
    rw [displayLocale_collect, displayLocale_collect]
    decide +kernel
  have hf : (collect {} h).formatLocale.codeset = some "ISO-8859-15" ∧
      (collect {} h').formatLocale.codeset = some "ISO-8859-15" := by
    rw [formatLocale_collect, formatLocale_collect]
    decide +kernel
  obtain ⟨hn, -, he, hs, -, hr, ha⟩ := text_encodings_exact {} h
  have hv : (collect {} h).text .nativeEncoding = some "ISO-8859-15" :=
    (hn _).mpr ⟨by decide, .codeset rfl hf.1⟩
  exact ⟨hd.1, hd.2, hf.2.trans hf.1.symm, hv, he, hs.trans hv,
    hr .nativeEncoding (by decide) _ hv, ha h' (hf.2.trans hf.1.symm) rfl rfl⟩

end HostProfile
