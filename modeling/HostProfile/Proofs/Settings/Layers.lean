import HostProfile.Proofs.Settings.Decoding
import HostProfile.Proofs.Toml.Ordered
import HostProfile.Settings.Loading

/-! The configuration of a host, value by value: the environment's, or else the file's, or else the
default. -/
namespace HostProfile

/-- The file sets these leaves, each to a text. What else it sets does not matter. -/
inductive FileSets : PathState → (Leaf → Option String) → Prop where
  | missing : FileSets .missing fun _ => none
  | document {s : String} {es : List (String × Setting)} {values : Leaf → Option String}
      (hd : Toml.document? s = some es)
      (ho : ∀ v, valueAt? "overrides" es = some v → ∃ os, v = .table os)
      (hl : ∀ l : Leaf, Setting.at? l.path (.table es) = (values l).map .text) :
      FileSets (.text s) values

/-- The text that a setting is. -/
def Setting.text? : Setting → Option String
  | .text s => some s
  | _ => none

theorem Setting.eq_text_of_text? {v : Setting} {s : String} (h : v.text? = some s) :
    v = .text s := by
  cases v <;> cases h
  rfl

theorem Setting.map_text_of_map_text? {found : Option Setting} {value : Option String}
    (h : found.map text? = value.map some) : found = value.map .text := by
  cases found with
  | none =>
    cases value with
    | none => rfl
    | some s => cases h
  | some v =>
    cases value with
    | none => cases h
    | some s => exact congrArg some (eq_text_of_text? (Option.some.inj h))

/-- A file is read leaf by leaf. That one of the overrides is set shows that they are a table. -/
theorem fileSets_of_map_text? {s : String} {values : Leaf → Option String} {o : Override}
    (ho : values (.override o) ≠ none)
    (h : ∀ l : Leaf, (Toml.document? s).map (fun es =>
      (Setting.at? l.path (.table es)).map Setting.text?) = some ((values l).map some)) :
    FileSets (.text s) values := by
  obtain ⟨es, hd, -⟩ := Option.map_eq_some_iff.mp (h .logLevel)
  rw [hd] at h
  have hl : ∀ l : Leaf, Setting.at? l.path (.table es) = (values l).map .text :=
    fun l => Setting.map_text_of_map_text? (Option.some.inj (h l))
  refine .document hd (fun v hv => ?_) hl
  obtain ⟨value, he⟩ := Option.ne_none_iff_exists'.mp ho
  have hname := hl (.override o)
  simp only [Leaf.path, Setting.at?, hv, he, Option.bind_some] at hname
  cases v with
  | table os => exact ⟨os, rfl⟩
  | _ => cases hname

namespace Config

variable {file : PathState} {env : List (String × String)} {f e : Leaf → Option String}

theorem ofJson_default : Setting.ofJson ({} : Config).toJson = .table defaultLayer :=
  rfl

theorem layer_of_fileSets (h : FileSets file f) : ∃ es, fileLayer file = .ok es ∧ Layer es f := by
  cases h with
  | missing => exact ⟨[], rfl, layer_nil⟩
  | @document s es _ hd ho hl =>
    refine ⟨es, by rw [fileLayer, hd], Toml.ordered_document? hd, passes_path ho, fun l => ?_⟩
    rw [hl]
    cases f l with
    | none => exact .none
    | some value => exact .some (.text value)

theorem ofLayers_of_sets (hf : FileSets file f) (he : Environment.Sets env e)
    (ha : ∀ l value, (e l <|> f l) = some value → l.Admits (some value)) :
    ∃ c, ofLayers file env = .ok c ∧ ∀ l, c.leaf l = (e l <|> f l <|> ({} : Config).leaf l) := by
  obtain ⟨es, hes, hl⟩ := layer_of_fileSets hf
  have hc := ((covers_toJson _ ofJson_default).merge hl).merge (Environment.layer_table he)
  have hadmits : ∀ l : Leaf, l.Admits (e l <|> f l <|> ({} : Config).leaf l) := by
    intro l
    have hl := ha l
    generalize e l = above, f l = value at hl ⊢
    cases above with
    | some v => exact hl v rfl
    | none =>
      cases value with
      | some v => exact hl v rfl
      | none => exact admits_leaf _ l
  obtain ⟨c, hc, hv⟩ := ofSetting_of_covers .layers hc hadmits
  refine ⟨c, ?_, hv⟩
  rw [ofLayers, he.readable, hes]
  simp only [bind, Except.bind, hc]
  rfl

theorem load_of_configPath? {h : Host} {path : List UInt8} (hp : h.configPath? = some path) :
    load h = ofLayers (h.path path) h.settingVariables := by
  rw [load, hp]

theorem load_of_no_directory {h : Host} (hp : h.configPath? = none) : load h = .error .noDirectory := by
  rw [load, hp]

theorem loadFrom_of_exists {h : Host} {path : List UInt8} (hp : h.path path ≠ .missing) :
    loadFrom h path = ofLayers (h.path path) h.settingVariables := by
  rw [loadFrom]
  split
  · next hm => exact absurd hm hp
  · rfl

/-- Each value of a configuration is the environment's if that sets it, or else the file's, or else
the default, whatever the others are. It does not matter whether the file is in its usual place or
given by its path, but a given file must exist, and the user must have a directory where the usual
place is. -/
theorem load_layered (h : Host) :
    (∀ (file : PathState) (f e : Leaf → Option String), FileSets file f →
      Environment.Sets h.settingVariables e →
      (∀ l value, (e l <|> f l) = some value → l.Admits (some value)) →
      ∃ c, ofLayers file h.settingVariables = .ok c ∧
        (∀ l, c.leaf l = (e l <|> f l <|> ({} : Config).leaf l)) ∧
        (∀ path, h.configPath? = some path → h.path path = file → load h = .ok c) ∧
        ∀ path, h.path path = file → file ≠ .missing → loadFrom h path = .ok c) ∧
    (∀ path, h.path path = .missing → loadFrom h path = .error (.missing path)) ∧
    (h.configPath? = none → load h = .error .noDirectory) := by
  refine ⟨fun file f e hf he ha => ?_, fun path hp => by rw [loadFrom, hp], load_of_no_directory⟩
  obtain ⟨c, hc, hv⟩ := ofLayers_of_sets hf he ha
  refine ⟨c, hc, hv, ?_, ?_⟩
  · rintro path hp rfl
    rw [load_of_configPath? hp, hc]
  · rintro path rfl hp
    rw [loadFrom_of_exists hp, hc]

def layeredText : String :=
  "log_level = \"info\"\n[overrides]\nos_name = \"A\"\nos_arch = \"B\"\n"

/-- Both layers of this host name the operating system. -/
def layeredHost : Host where
  environment := [("HOME", "/h".toUTF8.toList),
    ("PLATPROPS_OVERRIDES__OS_NAME", "Plan 9".toUTF8.toList),
    ("PLATPROPS_DEFAULT_ENCODING", "native".toUTF8.toList)]
  path path :=
    if path = "/h/.config/platprops/config.toml".toUTF8.toList then .text layeredText
    else .missing

def layeredTextValue : Leaf → Option String
  | .logLevel => some "info"
  | .override .osName => some "A"
  | .override .osArch => some "B"
  | _ => none

def layeredHostValue : Leaf → Option String
  | .defaultEncoding => some "native"
  | .override .osName => some "Plan 9"
  | _ => none

theorem layeredHost_configPath? :
    layeredHost.configPath? = some "/h/.config/platprops/config.toml".toUTF8.toList := by
  decide +kernel

theorem fileSets_layeredText : FileSets (.text layeredText) layeredTextValue := by
  refine fileSets_of_map_text? (o := .osName) nofun fun l => ?_
  cases l with
  | override o => cases o <;> decide +kernel
  | _ => decide +kernel

theorem sets_layeredHost : Environment.Sets layeredHost.settingVariables layeredHostValue := by
  have hv : layeredHost.settingVariables = [("HOME", "/h"),
      ("PLATPROPS_OVERRIDES__OS_NAME", "Plan 9"), ("PLATPROPS_DEFAULT_ENCODING", "native")] := by
    decide +kernel
  have hname : Environment.setting "Plan 9" = .text "Plan 9" :=
    Setting.eq_text_of_text? (by decide +kernel)
  have hencoding : Environment.setting "native" = .text "native" :=
    Setting.eq_text_of_text? (by decide +kernel)
  rw [hv]
  refine ⟨?_, by decide +kernel, fun l hl => ?_⟩
  · simp only [List.forall_mem_cons]
    refine ⟨?_, ?_, ?_, List.forall_mem_nil _⟩
    · exact Environment.fits_of_path?_eq_none (by decide +kernel)
    · refine Environment.fits_of_path?_eq_path (l := .override .osName) (by decide +kernel) rfl ?_
      exact hname ▸ .text _
    · refine Environment.fits_of_path?_eq_path (l := .defaultEncoding) (by decide +kernel) rfl ?_
      exact hencoding ▸ .text _
  · cases l with
    | defaultEncoding => exact ⟨"native", by decide +kernel⟩
    | override o =>
      cases o with
      | osName => exact ⟨"Plan 9", by decide +kernel⟩
      | _ => exact absurd rfl hl
    | _ => exact absurd rfl hl

/-- The variable replaces the file's name of the operating system and leaves its architecture. A host
that has no directory for the file loads nothing. -/
theorem load_layered_override : (∃ c, load layeredHost = .ok c ∧
    c.leaf (.override .osName) = some "Plan 9" ∧ c.leaf (.override .osArch) = some "B" ∧
    c.leaf .logLevel = some "info" ∧ c.leaf .defaultEncoding = some "native" ∧
    c.leaf .partialProxy = some "disable") ∧ load {} = .error .noDirectory := by
  have ha : ∀ l value, (layeredHostValue l <|> layeredTextValue l) = some value →
      l.Admits (some value) := by
    intro l value h
    cases l with
    | logLevel => exact nofun
    | defaultEncoding => exact .inr h.symm
    | partialProxy => cases h
    | override o => trivial
  obtain ⟨c, -, hv, hl, -⟩ :=
    (load_layered layeredHost).1 _ _ _ fileSets_layeredText sets_layeredHost ha
  refine ⟨⟨c, hl _ layeredHost_configPath? (if_pos rfl), ?_⟩, (load_layered {}).2.2 rfl⟩
  simp only [hv]
  exact ⟨rfl, rfl, rfl, rfl, rfl⟩

end Config

end HostProfile
