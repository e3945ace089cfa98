import HostProfile.Proofs.Collect.Fields

/-! Each field of a collected record depends on a few answers of the host. Two hosts that give these
answers alike have the same value in that field, however much they differ otherwise, so that a probe
that fails spoils no field but those that ask for it. -/
namespace HostProfile

/-- A single thing that a collection asks the host for. -/
inductive Probe where
  | environment (name : String)
  | output (command : Command)
  | workingDirectory
  | terminal (stream : Stream)
  | accountHome
  | processors
  deriving DecidableEq, Repr

namespace Host

/-- Two hosts give the same answer. -/
def AgreeAt (h k : Host) : Probe → Prop
  | .environment name => h.value? name = k.value? name
  | .output command => h.output? command = k.output? command
  | .workingDirectory => h.workingDirectory = k.workingDirectory
  | .terminal stream => h.isTerminal stream = k.isTerminal stream
  | .accountHome => h.accountHome? = k.accountHome?
  | .processors => h.cpuinfo = k.cpuinfo

def AgreeOn (h k : Host) (probes : List Probe) : Prop :=
  ∀ p ∈ probes, h.AgreeAt k p

theorem AgreeOn.mono {h k : Host} {ps qs : List Probe} (hs : ps ⊆ qs) (ha : h.AgreeOn k qs) :
    h.AgreeOn k ps :=
  fun p hp => ha p (hs hp)

/-- Hosts that differ in one answer agree wherever it is not asked for. -/
theorem agreeOn_of_not_mem {h k : Host} {p : Probe} (ha : ∀ q, q ≠ p → h.AgreeAt k q)
    {ps : List Probe} (hp : p ∉ ps) : h.AgreeOn k ps := by
  intro q hq
  refine ha q ?_
  rintro rfl
  exact hp hq

end Host

/-! ### What is asked -/

/-- The variables that name the format locale. -/
def formatProbes : List Probe :=
  [.environment "LC_ALL", .environment "LC_CTYPE", .environment "LANG"]

/-- The variables that name the display locale. -/
def displayProbes : List Probe :=
  [.environment "LC_ALL", .environment "LC_MESSAGES", .environment "LANG"]

/-- All that a field may depend on. -/
def Field.probes : Field → List Probe
  | .text .osName => [.output .kernelName]
  | .text .osVersion => [.output .kernelRelease]
  | .text .encoding | .text .nativeEncoding => formatProbes ++ [.output .charmap]
  | .text .stdoutEncoding => formatProbes ++ [.output .charmap, .terminal .stdout]
  | .text .stderrEncoding => formatProbes ++ [.output .charmap, .terminal .stderr]
  | .native .tmpDir => [.environment "TMPDIR"]
  | .native .userDir => [.workingDirectory]
  | .native .userName => [.environment "USER", .environment "LOGNAME", .output .userName]
  | .native .userHome => [.environment "HOME", .accountHome]
  | .formatLocale => formatProbes
  | .displayLocale => displayProbes
  | .instructionSets => [.processors]
  | _ => []

namespace Collect

/-- Whether the native encoding is known without the locale tool. -/
def KnowsEncoding (c : Config) (h : Host) : Prop :=
  c.overrides .nativeEncoding ≠ none ∨ (locale h .format).codeset ≠ none

/-- Whether the user's home is known without the user database. -/
def KnowsHome (h : Host) : Prop :=
  ∃ home, h.value? "HOME" = some home ∧ home ≠ []

variable {c : Config} {h k : Host}

theorem answer?_congr {command : Command} (ha : h.AgreeAt k (.output command)) :
    answer? h command = answer? k command := by
  have ho : h.output? command = k.output? command := ha
  rw [answer?, answer?, Host.outputText?, Host.outputText?, ho]

theorem locale_congr {category : Locale.Category}
    (ha : ∀ name ∈ category.variableNames, h.value? name = k.value? name) :
    locale h category = locale k category := by
  have ht : category.variableNames.filterMap h.textValue? =
      category.variableNames.filterMap k.textValue? := by
    refine List.filterMap_congr fun name hn => ?_
    rw [Host.textValue?, Host.textValue?, ha name hn]
  rw [locale, locale, Locale.resolve?, Locale.resolve?, Locale.resolveName, Locale.resolveName, ht]

theorem formatLocale_congr (ha : h.AgreeOn k formatProbes) : locale h .format = locale k .format := by
  refine locale_congr fun name hn => ha (.environment name) ?_
  simpa [Locale.Category.variableNames, formatProbes] using hn

theorem displayLocale_congr (ha : h.AgreeOn k displayProbes) :
    locale h .display = locale k .display := by
  refine locale_congr fun name hn => ha (.environment name) ?_
  simpa [Locale.Category.variableNames, displayProbes] using hn

theorem nativeEncoding_congr (ha : h.AgreeOn k formatProbes)
    (hm : KnowsEncoding c h ∨ h.AgreeAt k (.output .charmap)) :
    nativeEncoding c h = nativeEncoding c k := by
  unfold nativeEncoding
  cases ho : c.overrides .nativeEncoding with
  | some name => rfl
  | none =>
    simp only [← formatLocale_congr ha, hostEncoding]
    cases hc : (locale h .format).codeset with
    | some codeset => rfl
    | none =>
      rcases hm with hm | hm
      · rcases hm with hm | hm
        · exact absurd ho hm
        · exact absurd hc hm
      · rw [answer?_congr hm]

theorem userName_of_variable {name : List UInt8} (hu : h.value? "USER" = some name)
    (hne : name ≠ []) : userName h = ⟨some (.narrow name), []⟩ := by
  have hv : (["USER", "LOGNAME"].filterMap h.value?).find? (!·.isEmpty) = some name := by
    rw [List.filterMap_cons_some hu, List.find?_cons_of_pos (by simpa using hne)]
  rw [userName, hv]

theorem userName_congr (hu : h.AgreeAt k (.environment "USER"))
    (hl : h.AgreeAt k (.environment "LOGNAME")) (ha : h.AgreeAt k (.output .userName)) :
    userName h = userName k := by
  have hu : h.value? "USER" = k.value? "USER" := hu
  have hl : h.value? "LOGNAME" = k.value? "LOGNAME" := hl
  have hv : ["USER", "LOGNAME"].filterMap h.value? = ["USER", "LOGNAME"].filterMap k.value? := by
    simp only [List.filterMap_cons, List.filterMap_nil, hu, hl]
  rw [userName, userName, hv, answer?_congr ha]

theorem encoding_congr (he : nativeEncoding c h = nativeEncoding c k) :
    encoding c h = encoding c k := by
  rw [encoding, encoding, he]

theorem streamEncoding_congr {stream : Stream} (he : nativeEncoding c h = nativeEncoding c k)
    (ht : h.AgreeAt k (.terminal stream)) : streamEncoding c h stream = streamEncoding c k stream := by
  have ht : h.isTerminal stream = k.isTerminal stream := ht
  rw [streamEncoding, streamEncoding, he, ht]

theorem text_congr {f : TextField}
    (ha : h.AgreeOn k ((Field.text f).probes.erase (.output .charmap)))
    (hm : .output .charmap ∈ (Field.text f).probes →
      KnowsEncoding c h ∨ h.AgreeAt k (.output .charmap)) :
    text c h f = text c k f := by
  have hn (hs : formatProbes ⊆ (Field.text f).probes.erase (.output .charmap))
      (hc : .output .charmap ∈ (Field.text f).probes) : nativeEncoding c h = nativeEncoding c k :=
    nativeEncoding_congr (ha.mono hs) (hm hc)
  cases f with
  | osName =>
    have hk : h.AgreeAt k (.output .kernelName) := ha _ (by decide)
    simp only [text, osName, answer?_congr hk]
  | osVersion =>
    have hk : h.AgreeAt k (.output .kernelRelease) := ha _ (by decide)
    simp only [text, osVersion, answer?_congr hk]
  | encoding => exact congrArg some (encoding_congr (hn (by decide) (by decide)))
  | nativeEncoding => simp only [text, hn (by decide) (by decide)]
  | stdoutEncoding =>
    have ht : h.AgreeAt k (.terminal .stdout) := ha _ (by decide)
    exact streamEncoding_congr (hn (by decide) (by decide)) ht
  | stderrEncoding =>
    have ht : h.AgreeAt k (.terminal .stderr) := ha _ (by decide)
    exact streamEncoding_congr (hn (by decide) (by decide)) ht
  | _ => rfl

theorem native_congr {f : NativeField} (ha : h.AgreeOn k (Field.native f).probes) :
    Collect.native h f = Collect.native k f := by
  cases f with
  | tmpDir =>
    have ht : h.value? "TMPDIR" = k.value? "TMPDIR" := ha (.environment "TMPDIR") (by decide)
    simp only [Collect.native, tmpDir, ht]
  | userDir =>
    have hw : h.workingDirectory = k.workingDirectory := ha .workingDirectory (by decide)
    simp only [Collect.native, userDir, hw]
  | userName =>
    have hu : userName h = userName k := userName_congr (ha (.environment "USER") (by decide))
      (ha (.environment "LOGNAME") (by decide)) (ha (.output .userName) (by decide))
    simp only [Collect.native, hu]
  | userHome =>
    have he : h.value? "HOME" = k.value? "HOME" := ha (.environment "HOME") (by decide)
    have hd : h.accountHome? = k.accountHome? := ha .accountHome (by decide)
    simp only [Collect.native, Host.home?, he, hd]

/-- A field is found alike on hosts that agree on its probes; the locale tool has a say only where
the encoding is not known without it. -/
theorem found_congr {f : Field} (ha : h.AgreeOn k (f.probes.erase (.output .charmap)))
    (hm : .output .charmap ∈ f.probes → KnowsEncoding c h ∨ h.AgreeAt k (.output .charmap)) :
    found c h f = found c k f := by
  cases f with
  | text f => rw [found, found, text_congr ha hm]
  | native f =>
    have hp : (Field.native f).probes.erase (.output .charmap) = (Field.native f).probes := by
      cases f <;> decide
    rw [found, found, native_congr (hp ▸ ha)]
  | formatLocale => rw [found, found, formatLocale_congr ha]
  | displayLocale => rw [found, found, displayLocale_congr ha]
  | instructionSets =>
    have hp : h.cpuinfo = k.cpuinfo := ha .processors (by decide)
    simp only [found, instructionSets, hp]
  | _ => rfl

end Collect

open Collect

theorem content_collect_congr {c : Config} {h k : Host} {f : Field}
    (ha : h.AgreeOn k (f.probes.erase (.output .charmap)))
    (hm : .output .charmap ∈ f.probes → KnowsEncoding c h ∨ h.AgreeAt k (.output .charmap)) :
    (collect c h).content f = (collect c k).content f := by
  rw [content_collect, content_collect, found_congr ha hm]

theorem content_collect_of_agreeOn (c : Config) {h k : Host} {f : Field}
    (ha : h.AgreeOn k f.probes) : (collect c h).content f = (collect c k).content f :=
  content_collect_congr (ha.mono (List.erase_subset ..)) fun hc => .inr (ha _ hc)

theorem native_userName_of_variable (c : Config) {h : Host} {name : List UInt8} (hne : name ≠ [])
    (hu : h.value? "USER" = some name) :
    (collect c h).native .userName = some (.narrow name) := by
  refine native_collect_of_narrow c hne ?_
  rw [Collect.native, userName_of_variable hu hne]

theorem native_userHome_of_variable (c : Config) {h : Host} {home : List UInt8} (hne : home ≠ [])
    (hh : h.value? "HOME" = some home) :
    (collect c h).native .userHome = some (.narrow home) := by
  have ho : h.home? = some home := by simp [Host.home?, hh, hne]
  refine native_collect_of_narrow c hne ?_
  rw [Collect.native, ho, Option.map_some]

/-- Hosts with one `HOME` have one home. The account has a say only where `HOME` is not set. -/
theorem content_userHome_congr (c : Config) {h k : Host} (ha : h.AgreeAt k (.environment "HOME"))
    (hd : KnowsHome h ∨ h.AgreeAt k .accountHome) :
    (collect c h).content (.native .userHome) = (collect c k).content (.native .userHome) := by
  rcases hd with ⟨home, hh, hne⟩ | hd
  · have hk : k.value? "HOME" = some home := ha.symm.trans hh
    simp only [Record.content, native_userHome_of_variable c hne hh,
      native_userHome_of_variable c hne hk]
  · have hp : h.AgreeOn k (Field.probes (.native .userHome)) :=
      List.forall_mem_cons.mpr ⟨ha, List.forall_mem_singleton.mpr hd⟩
    exact content_collect_of_agreeOn c hp

/-- Every field depends on its probes only. A user that the environment names is taken from there, hosts
of one account have one home if they have one `HOME`, the locale tool is asked in need only, and what one
probe answers shows in its own fields only. -/
theorem collect_isolated (c : Config) (h k : Host) :
    (∀ f : Field, h.AgreeOn k f.probes → (collect c h).content f = (collect c k).content f) ∧
    (∀ name : List UInt8, name ≠ [] → h.value? "USER" = some name →
      (collect c h).native .userName = some (.narrow name)) ∧
    (h.AgreeAt k (.environment "HOME") → KnowsHome h ∨ h.AgreeAt k .accountHome →
      (collect c h).content (.native .userHome) = (collect c k).content (.native .userHome)) ∧
    (∀ f : Field, KnowsEncoding c h → h.AgreeOn k (f.probes.erase (.output .charmap)) →
      (collect c h).content f = (collect c k).content f) ∧
    (∀ p : Probe, (∀ q, q ≠ p → h.AgreeAt k q) → ∀ f : Field, p ∉ f.probes →
      (collect c h).content f = (collect c k).content f) := by
  refine ⟨fun f => content_collect_of_agreeOn c, fun name => native_userName_of_variable c,
    content_userHome_congr c, fun f he ha => content_collect_congr ha fun _ => .inl he,
    fun p ha f hp => ?_⟩
  exact content_collect_of_agreeOn c (Host.agreeOn_of_not_mem ha hp)

/-- Two hosts of which only one has the locale tool. The locale gives the codeset itself, so that
even the encodings agree. -/
theorem collect_isolated_without_charmap :
    let env := [("USER", Text.Utf8.encode "ada".toList), ("HOME", Text.Utf8.encode "/ada".toList),
      ("LANG", Text.Utf8.encode "de_DE.ISO8859-1".toList)]
    let h : Host := { environment := env }
    let k : Host :=
      { environment := env
        output? := fun command =>
          if command = .charmap then some (Text.Utf8.encode "UTF-8\n".toList) else none }
    h.AgreeOn k (Field.probes (.native .userName)) ∧
      (collect {} h).content (.native .userName) = (collect {} k).content (.native .userName) ∧
      (collect {} h).native .userName = some (.narrow [0x61, 0x64, 0x61]) ∧
      KnowsHome h ∧
      (collect {} h).content (.native .userHome) = (collect {} k).content (.native .userHome) ∧
      KnowsEncoding {} h ∧
      (collect {} h).content (.text .nativeEncoding) =
        (collect {} k).content (.text .nativeEncoding) ∧
      (∀ q, q ≠ .output .charmap → h.AgreeAt k q) ∧
      (collect {} h).content (.text .osVersion) = (collect {} k).content (.text .osVersion) := by
  intro env h k
  obtain ⟨hp, hu, hh, he, hi⟩ := collect_isolated {} h k
  have hq : ∀ q, q ≠ .output .charmap → h.AgreeAt k q := by
    intro q hq
    cases q with
    | output command => cases command <;> first | rfl | exact absurd rfl hq
    | _ => rfl
  have ha : h.AgreeOn k (Field.probes (.native .userName)) :=
    Host.agreeOn_of_not_mem hq (by decide)
  have hm : h.AgreeOn k ((Field.probes (.text .nativeEncoding)).erase (.output .charmap)) :=
    Host.agreeOn_of_not_mem hq (by decide)
  have hk : KnowsEncoding {} h := .inr (by decide +kernel)
  have hd : KnowsHome h := ⟨Text.Utf8.encode "/ada".toList, by decide +kernel, by decide⟩
  exact ⟨ha, hp _ ha, hu _ (by decide) (by decide +kernel), hd, hh rfl (.inl hd), hk, he _ hk hm, hq,
    hi _ hq _ (by decide)⟩

end HostProfile
