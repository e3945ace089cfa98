import HostProfile.Cli.Arguments
import Mathlib.Data.List.TakeWhile

/-! Command lines that are written out for some options and a command are read as just these. -/
namespace HostProfile.Cli

/-- The word that gives a value to an option. -/
def optionWord (name value : String) : String :=
  "--" ++ name ++ "=" ++ value

/-- The words that ask for these options. -/
def Options.words (o : Options) : List String :=
  (o.config.map (optionWord "config")).toList ++ (o.logLevel.map (optionWord "log-level")).toList ++
    if o.logJson then ["--log-json"] else []

theorem of_optionWord {name : String} (h : '=' ∉ name.toList) (value : String) :
    Word.of (optionWord name value) = .long name (some value) := by
  have hw : (optionWord name value).toList = '-' :: '-' :: (name.toList ++ '=' :: value.toList) := by
    simp [optionWord]
  have hn : ∀ c ∈ name.toList, (c != '=') = true := by
    intro c hc
    exact bne_iff_ne.mpr fun he => h (he ▸ hc)
  have ht : (name.toList ++ '=' :: value.toList).takeWhile (· != '=') = name.toList := by
    rw [List.takeWhile_append_of_pos hn]
    simp
  have hd : (name.toList ++ '=' :: value.toList).dropWhile (· != '=') = '=' :: value.toList := by
    rw [List.dropWhile_append_of_pos hn]
    simp
  cases hx : name.toList ++ '=' :: value.toList with
  | nil => simp at hx
  | cons c r =>
    rw [hx] at hw ht hd
    rw [Word.of, hw]
    simp [ht, hd]

/-- An option that is taken is read, and what follows it goes on from there. -/
theorem read_optionWord {s t : Seen} {name value : String} (h : '=' ∉ name.toList)
    (ht : s.setValue? none name value = some t) (ws : List String) :
    read {} none s (optionWord name value :: ws) = read {} none t ws := by
  rw [read, of_optionWord h]
  simp only [ht]

theorem read_logJson {s : Seen} (h : s.options.logJson = false) (ws : List String) :
    read {} none s ("--log-json" :: ws) = read {} none { s with options.logJson := true } ws := by
  have hw : Word.of "--log-json" = .long "log-json" none := by decide
  rw [read, hw]
  simp [h]

/-- Options before a command are read as they were written. Only an empty path is refused. -/
theorem read_words {o : Options} (hp : o.config ≠ some "") (ws : List String) :
    read {} none {} (o.words ++ ws) = read {} none { options := o } ws := by
  obtain ⟨config, logLevel, logJson⟩ := o
  have hc (ws : List String) : read {} none {} ((config.map (optionWord "config")).toList ++ ws) =
      read {} none { options.config := config } ws := by
    cases config with
    | none => rfl
    | some path =>
      have he : path.isEmpty = false := by simpa using hp
      exact read_optionWord (by decide) (by simp [Seen.setValue?, he]) ws
  have hl (ws : List String) : read {} none { options.config := config }
        ((logLevel.map (optionWord "log-level")).toList ++ ws) =
      read {} none { options := { config := config, logLevel := logLevel } } ws := by
    cases logLevel with
    | none => rfl
    | some level => exact read_optionWord (by decide) (by simp [Seen.setValue?]) ws
  have hj (ws : List String) : read {} none { options := { config := config, logLevel := logLevel } }
        ((if logJson then ["--log-json"] else []) ++ ws) =
      read {} none { options := ⟨config, logLevel, logJson⟩ } ws := by
    cases logJson with
    | false => rfl
    | true => exact read_logJson rfl ws
  rw [Options.words, List.append_assoc, List.append_assoc, hc, hl, hj]

theorem override_empty (o : Options) : o.override {} = o := by
  cases o
  simp [Options.override]

/-- A key behind the end of options is any text. -/
theorem ofArguments_get {o : Options} (hp : o.config ≠ some "") (k : String) :
    Invocation.ofArguments (o.words ++ ["get", "--", k]) = .run o (.get k) := by
  have hg : Word.of "get" = .plain := by decide
  have hv : verb? "get" = some .get := by decide
  have he : Word.of "--" = .endOfOptions := by decide
  rw [Invocation.ofArguments, read_words hp, read, hg]
  simp only [hv]
  rw [read, he]
  simp [finishPlain, finish, Seen.addPlain?, Seen.request?, override_empty]

theorem ofArguments_show {o : Options} (hp : o.config ≠ some "") {format : String}
    (hf : isValue format = true) :
    Invocation.ofArguments (o.words ++ ["show", "--format", format]) = .run o (.show format) := by
  have hg : Word.of "show" = .plain := by decide
  have hv : verb? "show" = some .show := by decide
  have he : Word.of "--format" = .long "format" none := by decide
  rw [Invocation.ofArguments, read_words hp, read, hg]
  simp only [hv]
  rw [read, he]
  simp [hf, finish, Seen.setValue?, Seen.request?, override_empty, read]

end HostProfile.Cli
