import HostProfile.Proofs.Collect.Log

/-! What a collection warns of, and which fields it leaves out. A search that fails is warned of. A
command that succeeds and prints blanks only has not failed: its field is left out without a
word. -/
namespace HostProfile

open Text

/-! ### Warnings -/

/-- Some event is a warning with the given message. -/
def Warned (events : List Event) (message : String) : Prop :=
  ∃ e ∈ events, e.level = .warn ∧ e.message = message

theorem warned_iff {events : List Event} {message : String} :
    Warned events message ↔ (.warn, message) ∈ events.map Event.heading := by
  simp [Warned, Event.heading]

open Collect

/-- All that a collection warns of. -/
theorem warned_collectEvents_iff (c : Config) (h : Host) (message : String) :
    Warned (collectEvents c h) message ↔
      (c.overrides .osName = none ∧ h.output? .kernelName = none ∧
        message = "uname -s failed, using compiled target name") ∨
      (c.overrides .osVersion = none ∧ h.output? .kernelRelease = none ∧
        message = "failed to determine OS version") ∨
      ((∃ e, h.workingDirectory = .error e) ∧ message = "failed to read working directory") ∨
      (¬ h.NamesUser ∧ h.output? .userName = none ∧ message = "failed to determine user name") := by
  rw [warned_iff, (reports_collectEvents c h).mem_iff]
  simp [collectReports, and_assoc, eq_comm]

/-! ### What is left out -/

theorem filter_isEmpty_eq_none_iff (s? : Option String) :
    s?.filter (!·.isEmpty) = none ↔ s? = none ∨ s? = some "" := by
  cases s? <;> simp

theorem Machine.osName_eq_empty_iff (kernel : String) : osName kernel = "" ↔ kernel = "" := by
  unfold osName
  split_ifs with h <;> simp [h]

variable {c : Config} {h : Host}

theorem text_osName_eq_none_iff (hc : c.overrides .osName = none) :
    (collect c h).text .osName = none ↔ h.AnswersBlank .kernelName := by
  rw [text_collect, filter_isEmpty_eq_none_iff, ← answer?_eq_empty_iff]
  simp only [Collect.text, osName, hc]
  cases answer? h .kernelName with
  | none => simp [OsFamily.host, OsFamily.fallbackName, OsFamily.hostTarget, OsFamily.ofTarget]
  | some kernel => simp [Machine.osName_eq_empty_iff]

theorem text_osVersion_eq_none_iff (hc : c.overrides .osVersion = none) :
    (collect c h).text .osVersion = none ↔
      h.output? .kernelRelease = none ∨ h.AnswersBlank .kernelRelease := by
  rw [text_collect, filter_isEmpty_eq_none_iff, ← answer?_eq_empty_iff, ← answer?_eq_none_iff]
  simp only [Collect.text, osVersion, hc]
  cases answer? h .kernelRelease <;> simp

theorem native_userDir_eq_none_iff :
    (collect c h).native .userDir = none ↔
      (∃ e, h.workingDirectory = .error e) ∨ h.workingDirectory = .ok [] := by
  rw [native_collect]
  simp only [Collect.native, userDir]
  cases h.workingDirectory <;> simp [NativeText.isEmpty]

theorem native_userName_eq_none_iff :
    (collect c h).native .userName = none ↔
      ¬ h.NamesUser ∧ (h.output? .userName = none ∨ h.AnswersBlank .userName) := by
  rw [native_collect, ← answer?_eq_empty_iff, ← answer?_eq_none_iff, ← find?_eq_none_iff]
  simp only [Collect.native, userName]
  cases hf : (["USER", "LOGNAME"].filterMap h.value?).find? (!·.isEmpty) with
  | some name =>
    have hne : name.isEmpty = false := by simpa using List.find?_some hf
    simp [NativeText.isEmpty, hne]
  | none => cases answer? h .userName <;> simp [NativeText.isEmpty_ofString]

theorem text_osName_of_output_eq_none (hc : c.overrides .osName = none)
    (ho : h.output? .kernelName = none) :
    (collect c h).text .osName = some OsFamily.host.fallbackName := by
  have ha : answer? h .kernelName = none := (answer?_eq_none_iff h _).mpr ho
  rw [text_collect]
  simp only [Collect.text, osName, hc, ha]
  rfl

theorem Host.AnswersBlank.output?_ne_none {command : Command} (hb : h.AnswersBlank command) :
    h.output? command ≠ none := by
  intro ho
  obtain ⟨s, hs, -⟩ := hb
  simp [Host.outputText?, ho] at hs

/-- The system's name is there unless the kernel answers blank, and a missing version, user or
working directory is warned of unless what was asked for it answers blank. A kernel that does not
answer has the name of the build's system. -/
theorem collect_reports (c : Config) (h : Host) (hn : c.overrides .osName = none)
    (hv : c.overrides .osVersion = none) :
    ((collect c h).text .osName ≠ none ↔ ¬ h.AnswersBlank .kernelName) ∧
    (((collect c h).text .osVersion = none →
        Warned (collectEvents c h) "failed to determine OS version") ↔
      ¬ h.AnswersBlank .kernelRelease) ∧
    (((collect c h).native .userName = none →
        Warned (collectEvents c h) "failed to determine user name") ↔
      (h.AnswersBlank .userName → h.NamesUser)) ∧
    (((collect c h).native .userDir = none →
        Warned (collectEvents c h) "failed to read working directory") ↔
      h.workingDirectory ≠ .ok []) ∧
    (h.output? .kernelName = none →
      (collect c h).text .osName = some OsFamily.host.fallbackName ∧
        Warned (collectEvents c h) "uname -s failed, using compiled target name") := by
  have hr : h.AnswersBlank .kernelRelease → h.output? .kernelRelease ≠ none :=
    Host.AnswersBlank.output?_ne_none
  have hu : h.AnswersBlank .userName → h.output? .userName ≠ none :=
    Host.AnswersBlank.output?_ne_none
  refine ⟨not_congr (text_osName_eq_none_iff hn), ?version, ?user, ?directory, fun ho => ?_⟩
  case version =>
    have hw : Warned (collectEvents c h) "failed to determine OS version" ↔
        h.output? .kernelRelease = none := by
      simp [warned_collectEvents_iff, hv]
    rw [text_osVersion_eq_none_iff hv, hw]
    tauto
  case user =>
    have hw : Warned (collectEvents c h) "failed to determine user name" ↔
        ¬ h.NamesUser ∧ h.output? .userName = none := by
      simp [warned_collectEvents_iff]
    rw [native_userName_eq_none_iff, hw]
    tauto
  case directory =>
    have hw : Warned (collectEvents c h) "failed to read working directory" ↔
        ∃ e, h.workingDirectory = .error e := by
      simp [warned_collectEvents_iff]
    rw [native_userDir_eq_none_iff, hw]
    cases h.workingDirectory <;> simp
  · exact ⟨text_osName_of_output_eq_none hn ho,
      (warned_collectEvents_iff ..).mpr (.inl ⟨hn, ho, rfl⟩)⟩

/-- A host that tells the release of its kernel only, in a directory that is gone. -/
theorem collect_reports_without_directory :
    let h : Host :=
      { output? := fun command =>
          if command = .kernelRelease then some (Utf8.encode "6.1.0\n".toList) else none
        workingDirectory := .error "No such file or directory (os error 2)" }
    ({} : Config).overrides .osName = none ∧ ({} : Config).overrides .osVersion = none ∧
      (collect {} h).text .osName = some "Linux" ∧
      Warned (collectEvents {} h) "uname -s failed, using compiled target name" ∧
      (collect {} h).text .osVersion = some "6.1.0" ∧
      (collect {} h).native .userDir = none ∧
      Warned (collectEvents {} h) "failed to read working directory" := by
  intro h
  obtain ⟨-, -, -, hd, hk⟩ := collect_reports {} h rfl rfl
  obtain ⟨hn, hw⟩ := hk rfl
  have hu : (collect {} h).native .userDir = none :=
    native_userDir_eq_none_iff.mpr (.inl ⟨_, rfl⟩)
  have hv : (collect {} h).text .osVersion = some "6.1.0" := by
    rw [text_collect]
    decide +kernel
  exact ⟨rfl, rfl, hn, hw, hv, hu, hd.mpr (by simp [h]) hu⟩

/-- On a host whose commands print an empty line each, three fields are missing and none is warned
of. -/
theorem collect_of_blank_answers :
    let h : Host := { output? := fun _ => some (Utf8.encode "\n".toList) }
    (collect {} h).text .osName = none ∧ (collect {} h).text .osVersion = none ∧
      (collect {} h).native .userName = none ∧
      ∀ message, ¬ Warned (collectEvents {} h) message := by
  intro h
  have hd : String.ofList (Utf8.decodeLossy (Utf8.encode "\n".toList)) = "\n" := by decide +kernel
  have hb (command : Command) : h.AnswersBlank command := ⟨"\n", congrArg some hd, by decide⟩
  have hu : ¬ h.NamesUser := by simp [Host.NamesUser, Host.value?, h]
  refine ⟨(text_osName_eq_none_iff rfl).mpr (hb _),
    (text_osVersion_eq_none_iff rfl).mpr (.inr (hb _)),
    native_userName_eq_none_iff.mpr ⟨hu, .inr (hb _)⟩, fun message => ?_⟩
  simp [warned_collectEvents_iff, h]

end HostProfile
