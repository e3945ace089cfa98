import HostProfile.Proofs.Cli.Lookup
import HostProfile.Proofs.Settings.Layers
import HostProfile.Proofs.Settings.Torn

/-! How the program ends. A run that fails prints no report, and all that can make it fail is told
apart by its exit code. -/
namespace HostProfile

theorem Config.ofLayers_eq_torn_iff (file : PathState) (env : List (String × String)) :
    ofLayers file env = .error .torn ↔ Environment.hasTorn env = true := by
  unfold ofLayers
  cases Environment.hasTorn env with
  | true => exact iff_of_true rfl rfl
  | false =>
    refine iff_of_false (fun h => ?_) Bool.false_ne_true
    rcases bind_eq_error h with hf | ⟨es, hf, h⟩
    · unfold fileLayer at hf
      split at hf
      · split at hf <;> cases hf
      · cases hf
      · cases hf
      · cases hf
    · dsimp only at h
      split at h <;> cases h

namespace Cli

open Text

/-! ### Loading -/

namespace Options

/-- The options have the configuration read from what is in its usual place, which may be nothing, or
from a file that they name. -/
inductive Reads (o : Options) (h : Host) : PathState → Prop where
  | usual {path : List UInt8} (hc : o.config = none) (hp : h.configPath? = some path) :
    Reads o h (h.path path)
  | given {path : String} (hc : o.config = some path)
      (hm : h.path (Utf8.encode path.toList) ≠ .missing) :
    Reads o h (h.path (Utf8.encode path.toList))

def Loads (o : Options) (h : Host) (c : Config) : Prop :=
  ∃ file, o.Reads h file ∧ Config.ofLayers file h.settingVariables = .ok c

/-- Loading ends at a variable that cannot be read. -/
structure Torn (o : Options) (h : Host) : Prop where
  reads : ∃ file, o.Reads h file
  torn : Environment.hasTorn h.settingVariables = true

end Options

/-- Why a command fails: the user has no directory for the configuration, its file is missing, it is not
one, or the command asks for what is not there. -/
inductive Fails (o : Options) (h : Host) : Request → Prop where
  | directory {q : Request} (hc : o.config = none) (hp : h.configPath? = none) : Fails o h q
  | missing {q : Request} {path : String} (hc : o.config = some path)
      (hm : h.path (Utf8.encode path.toList) = .missing) : Fails o h q
  | extraction {q : Request} {file : PathState} {e : LoadError} (hf : o.Reads h file)
      (he : Config.ofLayers file h.settingVariables = .error e) (ht : e ≠ .torn) : Fails o h q
  | format {c : Config} {name : String} (hc : o.Loads h c)
      (hn : name ∉ ["table", "json", "properties"]) : Fails o h (.show name)
  | key {c : Config} {key : String} (hc : o.Loads h c)
      (hk : (collect c h).properties.get? key = none) : Fails o h (.get key)

namespace Options

variable {o : Options} {h : Host} {file : PathState}

theorem reads_iff_of_none (hc : o.config = none) :
    o.Reads h file ↔ h.configPath?.map h.path = some file := by
  rw [Option.map_eq_some_iff]
  constructor
  · intro hf
    cases hf with
    | usual _ hp => exact ⟨_, hp, rfl⟩
    | given hc' _ => cases hc.symm.trans hc'
  · rintro ⟨path, hp, rfl⟩
    exact .usual hc hp

theorem reads_iff_of_some {path : String} (hc : o.config = some path) :
    o.Reads h file ↔ h.path (Utf8.encode path.toList) = file ∧ file ≠ .missing := by
  constructor
  · intro hf
    cases hf with
    | usual hc' _ => cases hc.symm.trans hc'
    | given hc' hm =>
      cases hc.symm.trans hc'
      exact ⟨rfl, hm⟩
  · rintro ⟨rfl, hm⟩
    exact .given hc hm

theorem not_reads_of_no_directory (hc : o.config = none) (hp : h.configPath? = none) :
    ¬ o.Reads h file := by
  rw [reads_iff_of_none hc, hp]
  exact nofun

theorem not_reads_of_missing {path : String} (hc : o.config = some path)
    (hm : h.path (Utf8.encode path.toList) = .missing) : ¬ o.Reads h file := by
  rw [reads_iff_of_some hc]
  exact fun hf => hf.2 (hf.1.symm.trans hm)

theorem Reads.unique (hf : o.Reads h file) {file' : PathState} (hf' : o.Reads h file') :
    file = file' := by
  cases hc : o.config with
  | none =>
    rw [reads_iff_of_none hc] at hf hf'
    exact Option.some.inj (hf.symm.trans hf')
  | some path =>
    rw [reads_iff_of_some hc] at hf hf'
    exact hf.1.symm.trans hf'.1

end Options

/-- A text for the error stream whose first line says what is wrong. -/
def ErrorText (s : String) : Prop :=
  ∃ start ∈ ["Error: ", "property '"], ∃ rest, s = start ++ rest ++ "\n"

theorem errorText_append {start : String} (hs : start ∈ ["Error: ", "property '"]) (rest : String) :
    ErrorText (Outcome.failure (start ++ rest)).stderr :=
  ⟨start, hs, rest, rfl⟩

theorem errorText_loadMessage (subject : String) (e : LoadError) :
    ErrorText (Outcome.failure (loadMessage subject e)).stderr := by
  have hs : "Error: loading " = "Error: " ++ "loading " := by decide
  unfold loadMessage
  rw [hs, String.append_assoc, String.append_assoc, String.append_assoc]
  exact errorText_append (List.mem_cons_self ..) _

/-- There is nothing to read a configuration from, none comes out of its layers, or it is loaded. -/
theorem loadConfig_cases (o : Options) (h : Host) :
    ((∀ q, Fails o h q) ∧
      ∃ subject e, loadConfig o h = .error (.failure (loadMessage subject e))) ∨
      (∃ file subject e, o.Reads h file ∧ Config.ofLayers file h.settingVariables = .error e ∧
        loadConfig o h = .error (loadFailure subject e)) ∨
      ∃ c, o.Loads h c ∧ loadConfig o h = .ok c := by
  unfold loadConfig
  cases hc : o.config with
  | none =>
    dsimp only
    cases hp : h.configPath? with
    | none =>
      refine .inl ⟨fun q => .directory hc hp, "configuration", .noDirectory, ?_⟩
      rw [Config.load_of_no_directory hp]
      rfl
    | some path =>
      have hf : o.Reads h (h.path path) := .usual hc hp
      rw [Config.load_of_configPath? hp]
      cases he : Config.ofLayers (h.path path) h.settingVariables with
      | error e => exact .inr (.inl ⟨_, _, e, hf, he, rfl⟩)
      | ok c => exact .inr (.inr ⟨c, ⟨_, hf, he⟩, rfl⟩)
  | some path =>
    dsimp only
    by_cases hm : h.path (Utf8.encode path.toList) = .missing
    · refine .inl ⟨fun q => .missing hc hm, path, .missing (Utf8.encode path.toList), ?_⟩
      rw [Config.loadFrom, hm]
      rfl
    · have hf : o.Reads h (h.path (Utf8.encode path.toList)) := .given hc hm
      rw [Config.loadFrom_of_exists hm]
      cases he : Config.ofLayers (h.path (Utf8.encode path.toList)) h.settingVariables with
      | error e => exact .inr (.inl ⟨_, _, e, hf, he, rfl⟩)
      | ok c => exact .inr (.inr ⟨c, ⟨_, hf, he⟩, rfl⟩)

/-! ### The end of a run -/

theorem ofName?_eq_none_iff (name : String) :
    Format.ofName? name = none ↔ name ∉ ["table", "json", "properties"] := by
  unfold Format.ofName?
  split
  · next h => simp [h]
  · split
    · next h => simp [h]
    · split
      · next h => simp [h]
      · next ht hj hp => simp [ht, hj, hp]

/-- With a configuration only the request can be at fault. -/
theorem fails_iff_of_loads {o : Options} {h : Host} {c : Config} (hc : o.Loads h c) (q : Request) :
    Fails o h q ↔ (∃ name, q = .show name ∧ Format.ofName? name = none) ∨
      ∃ key, q = .get key ∧ (collect c h).properties.get? key = none := by
  obtain ⟨file, hr, hx⟩ := hc
  constructor
  · intro hf
    cases hf with
    | directory hn hp => exact absurd hr (Options.not_reads_of_no_directory hn hp)
    | missing hp hm => exact absurd hr (Options.not_reads_of_missing hp hm)
    | extraction hf he ht =>
      rw [← hr.unique hf, hx] at he
      cases he
    | @format d name hd hn => exact .inl ⟨name, rfl, (ofName?_eq_none_iff name).mpr hn⟩
    | @key d key hd hk =>
      obtain ⟨file', hr', hx'⟩ := hd
      rw [← hr.unique hr', hx] at hx'
      exact .inr ⟨key, rfl, Except.ok.inj hx' ▸ hk⟩
  · intro hf
    rcases hf with ⟨name, rfl, hn⟩ | ⟨key, rfl, hk⟩
    · exact .format ⟨file, hr, hx⟩ ((ofName?_eq_none_iff name).mp hn)
    · exact .key ⟨file, hr, hx⟩ hk

theorem answer_cases {o : Options} {h : Host} {c : Config} (hc : o.Loads h c) (q : Request) :
    ((answer c h q).exitCode = 0 ∧ ¬ Fails o h q) ∨
      (Fails o h q ∧ ∃ m, answer c h q = .failure m ∧ ErrorText (Outcome.failure m).stderr) := by
  rw [fails_iff_of_loads hc]
  cases q with
  | «show» name =>
    cases hn : Format.ofName? name with
    | some format =>
      left
      simp [answer, hn]
    | none =>
      have ha : answer c h (.show name) = .failure ("Error: " ++
          ("unknown format '" ++ (name ++ "' (expected table, json or properties)"))) := by
        have hs : "Error: unknown format '" = "Error: " ++ "unknown format '" := by decide
        simp only [answer, hn, toString, hs, String.append_assoc]
      exact .inr ⟨.inl ⟨name, rfl, hn⟩, _, ha, errorText_append (List.mem_cons_self ..) _⟩
  | normalize names =>
    left
    simp [answer]
  | get key =>
    cases hv : (collect c h).properties.get? key with
    | some value =>
      left
      simp [answer, hv]
    | none =>
      have ha : answer c h (.get key) =
          .failure ("property '" ++ (key ++ "' is not set on this host")) := by
        simp only [answer, hv, toString, String.append_assoc]
      exact .inr ⟨.inr ⟨key, rfl, hv⟩, _, ha, errorText_append (by simp) _⟩

theorem Options.Torn.extracted {o : Options} {h : Host} (ht : o.Torn h) (file : PathState) :
    Config.ofLayers file h.settingVariables = .error .torn :=
  (Config.ofLayers_eq_torn_iff file h.settingVariables).mpr ht.torn

theorem Options.Torn.not_loads {o : Options} {h : Host} (ht : o.Torn h) (c : Config) :
    ¬ o.Loads h c := by
  rintro ⟨file, -, hc⟩
  rw [ht.extracted] at hc
  cases hc

theorem Options.Torn.not_fails {o : Options} {h : Host} (ht : o.Torn h) (q : Request) :
    ¬ Fails o h q := by
  obtain ⟨file, hr⟩ := ht.reads
  intro hf
  cases hf with
  | directory hc hp => exact Options.not_reads_of_no_directory hc hp hr
  | missing hc hm => exact Options.not_reads_of_missing hc hm hr
  | extraction hf he hne => exact hne (Except.error.inj (he.symm.trans (ht.extracted _)))
  | format hc hn => exact ht.not_loads _ hc
  | key hc hk => exact ht.not_loads _ hc

/-- A run of a command ends in one of three ways. -/
theorem run_cases {words : List String} {o : Options} {q : Request}
    (hw : Invocation.ofArguments words = .run o q) (h : Host) :
    ((run words h).exitCode = 0 ∧ ¬ Fails o h q ∧ ¬ o.Torn h) ∨
      (Fails o h q ∧ ¬ o.Torn h ∧
        ∃ m, run words h = .failure m ∧ ErrorText (Outcome.failure m).stderr) ∨
      (o.Torn h ∧ ¬ Fails o h q ∧
        run words h = { exitCode := 101, stderr := LoadError.torn.message ++ "\n" }) := by
  rcases loadConfig_cases o h with ⟨hf, subject, e, hl⟩ | ⟨file, subject, e, hf, he, hl⟩ | ⟨c, hc, hl⟩
  · have hr : run words h = .failure (loadMessage subject e) := by
      simp only [run, hw, hl]
    have ht : ¬ o.Torn h := fun ht => ht.not_fails q (hf q)
    exact .inr (.inl ⟨hf q, ht, _, hr, errorText_loadMessage subject e⟩)
  · have hr : run words h = loadFailure subject e := by
      simp only [run, hw, hl]
    by_cases hne : e = .torn
    · subst hne
      have ht : o.Torn h := ⟨⟨file, hf⟩, (Config.ofLayers_eq_torn_iff _ _).mp he⟩
      exact .inr (.inr ⟨ht, ht.not_fails q, hr⟩)
    · have ht : ¬ o.Torn h := by
        intro ht
        exact hne (Except.error.inj (he.symm.trans (ht.extracted file)))
      have hm : loadFailure subject e = .failure (loadMessage subject e) := by
        cases e with
        | torn => exact absurd rfl hne
        | _ => rfl
      exact .inr (.inl ⟨.extraction hf he hne, ht, _, hr.trans hm, errorText_loadMessage subject e⟩)
  · have hr : run words h = answer c h q := run_of_ofArguments hw hl
    have ht : ¬ o.Torn h := fun ht => ht.not_loads c hc
    rw [hr]
    rcases answer_cases hc q with ⟨h0, hn⟩ | ⟨hf, hm⟩
    · exact .inl ⟨h0, hn, ht⟩
    · exact .inr (.inl ⟨hf, ht, hm⟩)

/-- A command ends with code 1 exactly if it fails, and then says why. Only a variable that cannot be read
ends it otherwise, and no other ending than success prints anything of a report. -/
theorem run_outcome (words : List String) (h : Host) :
    let out := run words h
    (∀ o q, Invocation.ofArguments words = .run o q →
      (out.exitCode = 1 ↔ Fails o h q) ∧ (out.exitCode = 101 ↔ o.Torn h) ∧
        (out.exitCode = 0 ↔ ¬ Fails o h q ∧ ¬ o.Torn h)) ∧
    (out.exitCode = 2 ↔ Invocation.ofArguments words = .misuse) ∧
    (out.exitCode = 101 → ∃ e ∈ h.settingVariables,
      Environment.path? e.1 ≠ none ∧ Environment.Tearable e.2.toList) ∧
    (out.exitCode ≠ 0 → out.stdout = "") ∧ (out.exitCode = 1 → ErrorText out.stderr) := by
  intro out
  cases hw : Invocation.ofArguments words with
  | run o q =>
    rcases run_cases hw h with ⟨hr, hf, ht⟩ | ⟨hf, ht, m, hr, he⟩ | ⟨ht, hf, hr⟩
    · have h0 : out.exitCode = 0 := hr
      simp [h0, hf, ht]
    · have hout : out = .failure m := hr
      have h1 : out.exitCode = 1 := by rw [hout]; rfl
      have hempty : out.stdout = "" := by rw [hout]; rfl
      have htext : ErrorText out.stderr := by rw [hout]; exact he
      simp [h1, hempty, htext, hf, ht]
    · have hout : out = { exitCode := 101, stderr := LoadError.torn.message ++ "\n" } := hr
      have hv := Environment.exists_tearable_of_hasTorn ht.torn
      simp [hout, hf, ht, hv]
  | help =>
    have hout : out = { stdout := usage } := by simp only [out, run, hw]
    simp [hout]
  | version =>
    have hout : out = { stdout := joinLines [programName ++ " " ++ versionText] } := by
      simp only [out, run, hw]
    simp [hout]
  | misuse =>
    have hout : out = { exitCode := 2, stderr := usage } := by simp only [out, run, hw]
    simp [hout]

/-- A host with one variable for a log level. -/
private def logLevelHost (level : String) : Host where
  environment := [("HOME", "/h".toUTF8.toList), ("PLATPROPS_LOG_LEVEL", level.toUTF8.toList)]

/-- The one character before the escape takes two bytes, and so a command ends that neither fails nor
succeeds. -/
theorem run_of_accent :
    Invocation.ofArguments ["normalize", "utf8"] = .run {} (.normalize ["utf8"]) ∧
      (run ["normalize", "utf8"] (logLevelHost "\"e\\n\"")).exitCode = 0 ∧
      (run ["normalize", "utf8"] (logLevelHost "\"é\\n\"")).exitCode = 101 := by
  decide +kernel

end Cli

end HostProfile
