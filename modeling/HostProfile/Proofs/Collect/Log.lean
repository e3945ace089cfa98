import HostProfile.Proofs.Collect.Fields
import HostProfile.Proofs.NativeText.Narrow

/-! The log of a collection. Every search makes one report at most, under a condition of its own,
and the searches follow one another, so that the log is known from the conditions. -/
namespace HostProfile

open Text

/-! ### Reports in turn -/

/-- What an event says, without its values. -/
def Event.heading (e : Event) : Level × String :=
  (e.level, e.message)

/-- A report that is made under a condition. -/
structure Report where
  condition : Prop
  heading : Level × String

/-- The events make those of the reports whose condition holds, once each and in their order. -/
inductive Reports : List Event → List Report → Prop
  | nil : Reports [] []
  | made {e : Event} {events : List Event} {r : Report} {reports : List Report}
      (hc : r.condition) (he : e.heading = r.heading) (hr : Reports events reports) :
      Reports (e :: events) (r :: reports)
  | omitted {events : List Event} {r : Report} {reports : List Report} (hc : ¬ r.condition)
      (hr : Reports events reports) : Reports events (r :: reports)

namespace Reports

variable {events events' : List Event} {reports reports' : List Report}

theorem single {e : Event} {r : Report} (hc : r.condition) (he : e.heading = r.heading) :
    Reports [e] [r] :=
  .made hc he .nil

theorem silent {r : Report} (hc : ¬ r.condition) : Reports [] [r] :=
  .omitted hc .nil

theorem append (hr : Reports events reports) (hr' : Reports events' reports') :
    Reports (events ++ events') (reports ++ reports') := by
  induction hr with
  | nil => exact hr'
  | made hc he _ ih => exact .made hc he ih
  | omitted hc _ ih => exact .omitted hc ih

theorem sublist (hr : Reports events reports) :
    (events.map Event.heading).Sublist (reports.map Report.heading) := by
  induction hr with
  | nil => exact .slnil
  | made _ he _ ih =>
    rw [List.map_cons, List.map_cons, he]
    exact ih.cons_cons _
  | omitted _ _ ih => exact ih.cons _

theorem mem_iff (hr : Reports events reports) (x : Level × String) :
    x ∈ events.map Event.heading ↔ ∃ r ∈ reports, r.condition ∧ r.heading = x := by
  induction hr with
  | nil => simp
  | made hc he _ ih => simp [ih, he, hc, eq_comm]
  | omitted hc _ ih => simp [ih, hc]

/-- Reports that can be told apart are made just if their conditions hold. -/
theorem heading_mem_iff (hr : Reports events reports)
    (hn : (reports.map Report.heading).Nodup) {r : Report} (hm : r ∈ reports) :
    r.heading ∈ events.map Event.heading ↔ r.condition := by
  rw [hr.mem_iff]
  constructor
  · rintro ⟨r', hm', hc, he⟩
    rwa [← List.inj_on_of_nodup_map hn hm' hm he]
  · exact fun hc => ⟨r, hm, hc, rfl⟩

end Reports

/-! ### Answers -/

namespace Host

/-- The command succeeds, and all it prints is blank. -/
def AnswersBlank (h : Host) (command : Command) : Prop :=
  ∃ s, h.outputText? command = some s ∧ AllBlank s.toList

/-- The environment names the user. -/
def NamesUser (h : Host) : Prop :=
  ∃ name ∈ ["USER", "LOGNAME"], ∃ value, h.value? name = some value ∧ value ≠ []

end Host

namespace Collect

variable (c : Config) (h : Host)

theorem answer?_eq_none_iff (command : Command) :
    answer? h command = none ↔ h.output? command = none := by
  simp [answer?, Host.outputText?]

theorem answer?_eq_empty_iff (command : Command) :
    answer? h command = some "" ↔ h.AnswersBlank command := by
  simp only [answer?, Option.map_eq_some_iff, Host.AnswersBlank, ← trim_eq_nil_iff,
    String.ofList_eq_empty_iff]

theorem bind_nonEmpty?_answer?_eq_none_iff (command : Command) :
    (answer? h command).bind nonEmpty? = none ↔
      h.output? command = none ∨ h.AnswersBlank command := by
  rw [← answer?_eq_none_iff, ← answer?_eq_empty_iff]
  cases answer? h command <;> simp [nonEmpty?]

theorem find?_eq_none_iff :
    (["USER", "LOGNAME"].filterMap h.value?).find? (!·.isEmpty) = none ↔ ¬ h.NamesUser := by
  rw [List.find?_eq_none]
  constructor
  · rintro hh ⟨name, hn, value, hv, hne⟩
    exact hh value (List.mem_filterMap.mpr ⟨name, hn, hv⟩) (by simpa using hne)
  · intro hno value hm hne
    obtain ⟨name, hn, hv⟩ := List.mem_filterMap.mp hm
    exact hno ⟨name, hn, value, hv, by simpa using hne⟩

/-! ### What each search reports -/

theorem reports_nativeEncoding :
    Reports (nativeEncoding c h).events
      [⟨c.overrides .nativeEncoding = none ∧ (locale h .format).codeset = none ∧
          (h.output? .charmap = none ∨ h.AnswersBlank .charmap),
        Event.charmapUnknown.heading⟩] := by
  have hw : OsFamily.host.isWindows = false := by decide
  simp only [nativeEncoding, hostEncoding, hw, Bool.false_eq_true, if_false]
  cases ho : c.overrides .nativeEncoding with
  | some name => exact .silent (by simp)
  | none =>
    cases hc : (locale h .format).codeset with
    | some codeset => exact .silent (by simp)
    | none =>
      cases ha : (answer? h .charmap).bind nonEmpty? with
      | some charmap =>
        refine .silent fun ⟨_, _, hp⟩ => ?_
        rw [← bind_nonEmpty?_answer?_eq_none_iff, ha] at hp
        cases hp
      | none => exact .single ⟨rfl, rfl, (bind_nonEmpty?_answer?_eq_none_iff h _).mp ha⟩ rfl

theorem reports_osName :
    Reports (osName c h).events
      [⟨c.overrides .osName = none ∧ h.output? .kernelName = none,
        Event.kernelNameUnknown.heading⟩] := by
  simp only [osName, ← answer?_eq_none_iff]
  cases c.overrides .osName with
  | some name => exact .silent (by simp)
  | none =>
    cases answer? h .kernelName with
    | some kernel => exact .silent (by simp)
    | none => exact .single ⟨rfl, rfl⟩ rfl

theorem reports_osVersion :
    Reports (osVersion c h).events
      [⟨c.overrides .osVersion = none ∧ h.output? .kernelRelease = none,
        Event.releaseUnknown.heading⟩] := by
  simp only [osVersion, ← answer?_eq_none_iff]
  cases c.overrides .osVersion with
  | some version => exact .silent (by simp)
  | none =>
    cases answer? h .kernelRelease with
    | some version => exact .silent (by simp)
    | none => exact .single ⟨rfl, rfl⟩ rfl

theorem reports_userDir :
    Reports (userDir h).events
      [⟨∃ e, h.workingDirectory = .error e, .warn, "failed to read working directory"⟩] := by
  unfold userDir
  cases h.workingDirectory with
  | ok path => exact .silent (by simp)
  | error e => exact .single ⟨e, rfl⟩ rfl

theorem reports_userName :
    Reports (userName h).events
      [⟨¬ h.NamesUser ∧ h.output? .userName = none, Event.userUnknown.heading⟩] := by
  simp only [userName, ← answer?_eq_none_iff, ← find?_eq_none_iff]
  cases (["USER", "LOGNAME"].filterMap h.value?).find? (!·.isEmpty) with
  | some name => exact .silent (by simp)
  | none =>
    cases answer? h .userName with
    | some name => exact .silent (by simp)
    | none => exact .single ⟨rfl, rfl⟩ rfl

theorem reports_instructionSets :
    Reports (instructionSets h).events
      [⟨∃ e, h.cpuinfo = .error e, .debug, "failed to read /proc/cpuinfo"⟩] := by
  unfold instructionSets
  cases h.cpuinfo with
  | ok cpuinfo => exact .silent (by simp)
  | error e => exact .single ⟨e, rfl⟩ rfl

end Collect

/-! ### The whole log -/

/-- What a collection can report, in the order of the search. The summary is always there. -/
def collectReports (c : Config) (h : Host) : List Report :=
  [⟨c.overrides .nativeEncoding = none ∧ (collect c h).formatLocale.codeset = none ∧
      (h.output? .charmap = none ∨ h.AnswersBlank .charmap),
      .debug, "no codeset in locale, falling back to US-ASCII"⟩,
    ⟨c.overrides .osName = none ∧ h.output? .kernelName = none,
      .warn, "uname -s failed, using compiled target name"⟩,
    ⟨c.overrides .osVersion = none ∧ h.output? .kernelRelease = none,
      .warn, "failed to determine OS version"⟩,
    ⟨∃ e, h.workingDirectory = .error e, .warn, "failed to read working directory"⟩,
    ⟨¬ h.NamesUser ∧ h.output? .userName = none, .warn, "failed to determine user name"⟩,
    ⟨∃ e, h.cpuinfo = .error e, .debug, "failed to read /proc/cpuinfo"⟩,
    ⟨True, .debug, "collected platform properties"⟩]

open Collect

theorem reports_collectEvents (c : Config) (h : Host) :
    Reports (collectEvents c h) (collectReports c h) := by
  have hs : Reports [(collect c h).collectedEvent]
      [⟨True, .debug, "collected platform properties"⟩] := .single trivial rfl
  rw [collectReports, formatLocale_collect]
  exact (((((reports_nativeEncoding c h).append (reports_osName c h)).append
    (reports_osVersion c h)).append (reports_userDir h)).append (reports_userName h)).append
    (reports_instructionSets h) |>.append hs

theorem nodup_collectReports (c : Config) (h : Host) :
    ((collectReports c h).map Report.heading).Nodup := by
  simp only [collectReports, List.map_cons, List.map_nil]
  decide

/-- The log of a collection: what there is to report, each report once and in the order of the
search just if its condition holds, and last the summary, with the record's own values. -/
theorem collectEvents_exact (c : Config) (h : Host) :
    let r := collect c h
    let log := collectEvents c h
    (log.map Event.heading).Sublist ((collectReports c h).map Report.heading) ∧
    (log.map Event.heading).Nodup ∧
    (∀ report ∈ collectReports c h,
      report.heading ∈ log.map Event.heading ↔ report.condition) ∧
    ∃ before last, log = before ++ [last] ∧
      last.heading = (.debug, "collected platform properties") ∧
      last.fields = [("os", (r.text .osName).getD "unknown"),
        ("arch", (r.text .osArch).getD "unknown"),
        ("encoding", (r.text .nativeEncoding).getD "unknown")] := by
  have hr := reports_collectEvents c h
  have hn := nodup_collectReports c h
  exact ⟨hr.sublist, hn.sublist hr.sublist, fun report hm => hr.heading_mem_iff hn hm,
    _, _, rfl, rfl, rfl⟩

/-- A host whose tools know no name and print no charmap. The kernel's name is not asked for, and
the user has one in a variable. -/
theorem collectEvents_exact_of_blank_charmap :
    let c : Config := { overrides := fun o => if o = .osName then some "Plan 9" else none }
    let h : Host :=
      { environment := [("USER", []), ("LOGNAME", Utf8.encode "glenda".toList)]
        output? := fun command =>
          if command = .charmap then some (Utf8.encode " \n".toList) else none }
    let headings := (collectEvents c h).map Event.heading
    (.debug, "no codeset in locale, falling back to US-ASCII") ∈ headings ∧
      (.warn, "uname -s failed, using compiled target name") ∉ headings ∧
      (.warn, "failed to determine OS version") ∈ headings ∧
      (.warn, "failed to determine user name") ∉ headings ∧
      headings.Nodup ∧
      ∃ last ∈ collectEvents c h,
        last.fields = [("os", "Plan 9"), ("arch", "amd64"), ("encoding", "US-ASCII")] := by
  intro c h headings
  obtain ⟨-, hn, hm, before, last, hl, -, hf⟩ := collectEvents_exact c h
  simp only [collectReports, List.forall_mem_cons] at hm
  obtain ⟨hcharmap, hkernel, hrelease, -, huser, -⟩ := hm
  have hc : (collect c h).formatLocale.codeset = none := by
    rw [formatLocale_collect]
    decide +kernel
  have hd : String.ofList (Utf8.decodeLossy (Utf8.encode " \n".toList)) = " \n" := by
    decide +kernel
  have hb : h.AnswersBlank .charmap := ⟨" \n", congrArg some hd, by decide⟩
  have hu : h.NamesUser := ⟨"LOGNAME", by decide, Utf8.encode "glenda".toList, by decide, by decide⟩
  have hs : (collect c h).text .osName = some "Plan 9" ∧
      (collect c h).text .osArch = some "amd64" ∧
      (collect c h).text .nativeEncoding = some "US-ASCII" := by
    rw [text_collect, text_collect, text_collect]
    decide +kernel
  refine ⟨hcharmap.mpr ⟨rfl, hc, .inr hb⟩, fun hk => ?_, hrelease.mpr ⟨rfl, rfl⟩,
    fun hk => (huser.mp hk).1 hu, hn, last, ?_, ?_⟩
  · simpa [c] using (hkernel.mp hk).1
  · rw [hl]
    exact List.mem_append_right _ (List.mem_singleton.mpr rfl)
  · rw [hf, hs.1, hs.2.1, hs.2.2]
    rfl

end HostProfile
