import HostProfile.Cli.Run
import HostProfile.Proofs.Cli.Arguments
import HostProfile.Proofs.Cli.PropertyLines

/-! Asking for one property and reading it off the printed properties comes to the same, whatever the
key: both show the value escaped, and the lines are cut from their keys at the first equals sign. -/
namespace HostProfile.Cli

open Text

/-- A line of the text has `k` before its first equals sign, and `rest` behind it. -/
def HasLine (text k rest : String) : Prop :=
  ∃ line ∈ pieces text, splitOnce? ['='] line = some (k.toList, rest.toList)

theorem splitOnce?_propertyLine {e : String × String} (h : '=' ∉ e.1.toList) :
    splitOnce? ['='] (propertyLine e).toList = some (e.1.toList, (escape e.2).toList) := by
  rw [toList_propertyLine, splitOnce?_append h [] _]

/-- The printed properties have a line for a key exactly if the map has the key. -/
theorem hasLine_report_iff (colours : Bool) (r : Record) (k rest : String) :
    HasLine (report colours r .properties) k rest ↔
      ∃ v, r.properties.get? k = some v ∧ escape v = rest := by
  have hs : ∀ e ∈ r.properties.entries,
      splitOnce? ['='] (propertyLine e).toList = some (k.toList, rest.toList) ↔
        e.1 = k ∧ escape e.2 = rest := by
    intro e he
    rw [splitOnce?_propertyLine (not_mem_key_of_mem_entries he).1]
    simp only [Option.some.injEq, Prod.mk.injEq, String.toList_inj]
  rw [HasLine, pieces_report]
  constructor
  · rintro ⟨line, hl, he⟩
    rcases List.mem_append.mp hl with hl | hl
    · obtain ⟨e, hm, rfl⟩ := List.mem_map.mp hl
      obtain ⟨rfl, hv⟩ := (hs e hm).mp he
      exact ⟨e.2, (r.properties.get?_eq_some_iff ..).mpr hm, hv⟩
    · rw [List.mem_singleton.mp hl] at he
      cases he
  · rintro ⟨v, hg, hv⟩
    have hm : (k, v) ∈ r.properties.entries := (r.properties.get?_eq_some_iff ..).mp hg
    exact ⟨_, List.mem_append_left _ (List.mem_map_of_mem hm), (hs _ hm).mpr ⟨rfl, hv⟩⟩

theorem run_of_ofArguments {words : List String} {o : Options} {q : Request} {h : Host} {c : Config}
    (hw : Invocation.ofArguments words = .run o q) (hc : loadConfig o h = .ok c) :
    run words h = answer c h q := by
  simp only [run, hw, hc]

theorem run_show_properties {o : Options} (hp : o.config ≠ some "") {h : Host} {c : Config}
    (hc : loadConfig o h = .ok c) :
    run (o.words ++ ["show", "--format", "properties"]) h =
      { stdout := report (usesColours h) (collect c h) .properties } := by
  have hf : isValue "properties" = true := by decide +kernel
  rw [run_of_ofArguments (ofArguments_show hp hf) hc]
  rfl

theorem run_get_of_some {o : Options} (hp : o.config ≠ some "") {h : Host} {c : Config}
    (hc : loadConfig o h = .ok c) {k v : String} (hv : (collect c h).properties.get? k = some v) :
    run (o.words ++ ["get", "--", k]) h = { stdout := escape v ++ "\n" } := by
  rw [run_of_ofArguments (ofArguments_get hp k) hc, answer]
  simp [hv, joinLines]

theorem run_get_of_none {o : Options} (hp : o.config ≠ some "") {h : Host} {c : Config}
    (hc : loadConfig o h = .ok c) {k : String} (hv : (collect c h).properties.get? k = none) :
    run (o.words ++ ["get", "--", k]) h =
      .failure ("property '" ++ k ++ "' is not set on this host") := by
  rw [run_of_ofArguments (ofArguments_get hp k) hc, answer]
  simp only [hv]
  rfl

/-- A property can be asked for exactly if the printed properties have a line for it, and its answer is
the rest of that line. For any other key the run fails, and says so on the error stream only. -/
theorem run_get_exact (o : Options) (hp : o.config ≠ some "") (h : Host) (c : Config)
    (hc : loadConfig o h = .ok c) (k : String) :
    let shown := run (o.words ++ ["show", "--format", "properties"]) h
    let got := run (o.words ++ ["get", "--", k]) h
    shown.exitCode = 0 ∧
    (got.exitCode = 0 ↔ ∃ rest, HasLine shown.stdout k rest) ∧
    (∀ rest, HasLine shown.stdout k rest → got.stdout = rest ++ "\n") ∧
    ((¬ ∃ rest, HasLine shown.stdout k rest) →
      got.exitCode = 1 ∧ got.stdout = "" ∧
        got.stderr = "property '" ++ k ++ "' is not set on this host\n") := by
  intro shown got
  have hs : shown = { stdout := report (usesColours h) (collect c h) .properties } :=
    run_show_properties hp hc
  have hl : ∀ rest, HasLine shown.stdout k rest ↔
      ∃ v, (collect c h).properties.get? k = some v ∧ escape v = rest := by
    rw [hs]
    exact hasLine_report_iff (usesColours h) (collect c h) k
  refine ⟨by rw [hs], ?_⟩
  simp only [hl]
  cases hv : (collect c h).properties.get? k with
  | some v =>
    have hg : got = { stdout := escape v ++ "\n" } := run_get_of_some hp hc hv
    simp [hg]
  | none =>
    have hg : got = .failure ("property '" ++ k ++ "' is not set on this host") :=
      run_get_of_none hp hc hv
    simp [hg, Outcome.failure, String.append_assoc]

/-- The configuration file of this host gives it a name of two lines with an equals sign. -/
def twoLineHost : Host where
  path path :=
    if path = "p".toUTF8.toList then .text "[overrides]\nos_name = \"a=b\\nc\"\n" else .missing

def twoLineOptions : Options :=
  { config := some "p", logJson := true }

/-- The name is asked for by its key, and not by what its line starts with. -/
theorem run_get_exact_escaped :
    twoLineOptions.config ≠ some "" ∧ (∃ c, loadConfig twoLineOptions twoLineHost = .ok c) ∧
      HasLine (run ["--config=p", "--log-json", "show", "--format", "properties"] twoLineHost).stdout
        "os.name" "a=b\\nc" ∧
      (run ["--config=p", "--log-json", "get", "--", "os.name"] twoLineHost).stdout = "a=b\\nc\n" ∧
      (run ["--config=p", "--log-json", "get", "--", "os.name=a"] twoLineHost).stderr =
        "property 'os.name=a' is not set on this host\n" := by
  have hp : twoLineOptions.config ≠ some "" := by decide
  have hl : ∃ c, loadConfig twoLineOptions twoLineHost = .ok c := by
    have hs : (loadConfig twoLineOptions twoLineHost).isOk = true := by decide +kernel
    cases hc : loadConfig twoLineOptions twoLineHost with
    | ok c => exact ⟨c, rfl⟩
    | error e => simp [hc, Except.isOk, Except.toBool] at hs
  obtain ⟨c, hc⟩ := hl
  have hw : twoLineOptions.words = ["--config=p", "--log-json"] := by decide +kernel
  have hname := run_get_exact twoLineOptions hp twoLineHost c hc "os.name"
  have hother := run_get_exact twoLineOptions hp twoLineHost c hc "os.name=a"
  rw [hw] at hname hother
  obtain ⟨-, he, hn, -⟩ := hname
  obtain ⟨-, ho, -, hf⟩ := hother
  obtain ⟨rest, hline⟩ := he.mp (by decide +kernel)
  have hg : (run ["--config=p", "--log-json", "get", "--", "os.name"] twoLineHost).stdout =
      "a=b\\nc" ++ "\n" := by decide +kernel
  obtain rfl : rest = "a=b\\nc" := (String.append_left_inj "\n").mp ((hn rest hline).symm.trans hg)
  exact ⟨hp, ⟨c, hc⟩, hline, hg, (hf fun h => absurd (ho.mpr h) (by decide +kernel)).2.2⟩

end HostProfile.Cli
