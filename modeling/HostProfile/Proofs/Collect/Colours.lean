import HostProfile.Cli.Run
import HostProfile.Proofs.Collect.Isolation
import HostProfile.Proofs.Settings.Environment

/-! The variables that decide on colours decide on nothing else. A host gives the same record and the
same configuration without them. -/
namespace HostProfile

/-- The variables that decide on colours. -/
def colourVariables : List String :=
  ["CLICOLOR_FORCE", "NO_COLOR", "CLICOLOR"]

def isColourless (name : String) : Bool :=
  !colourVariables.contains name

theorem isColourless_iff (name : String) : isColourless name = true ↔ name ∉ colourVariables := by
  simp [isColourless]

theorem path?_of_not_isColourless {name : String} (h : isColourless name = false) :
    Environment.path? name = none := by
  have hv : ∀ name ∈ colourVariables, Environment.path? name = none := by decide
  refine hv name (by_contra fun hn => ?_)
  rw [(isColourless_iff name).mpr hn] at h
  cases h

theorem Field.environment_not_mem_probes :
    ∀ f ∈ all, ∀ name ∈ colourVariables, Probe.environment name ∉ f.probes := by
  decide

namespace Host

/-- The host without its variables for colours. -/
def uncoloured (h : Host) : Host :=
  { h with environment := h.environment.filter fun e => isColourless e.1 }

/-- The host with a variable that forces colours. -/
def withColours (h : Host) : Host :=
  { h with environment := ("CLICOLOR_FORCE", [0x31]) :: h.environment }

theorem uncoloured_withColours (h : Host) : h.withColours.uncoloured = h.uncoloured := by
  have hn : isColourless "CLICOLOR_FORCE" = false := by decide
  simp [uncoloured, withColours, hn]

theorem usesColours_withColours (h : Host) : Cli.usesColours h.withColours = true := by
  have hv : h.withColours.textValue? "CLICOLOR_FORCE" = some "1" := by
    have hf : h.withColours.value? "CLICOLOR_FORCE" = some [0x31] := by simp [value?, withColours]
    rw [textValue?, hf]
    decide
  simp [Cli.usesColours, hv]

theorem value?_uncoloured (h : Host) {name : String} (hn : name ∉ colourVariables) :
    h.uncoloured.value? name = h.value? name := by
  have hp (e : String × List UInt8) : (isColourless e.1 ∧ e.1 == name) ↔ e.1 == name := by
    refine and_iff_right_of_imp fun he => ?_
    rw [eq_of_beq he]
    exact (isColourless_iff name).mpr hn
  simp only [value?, uncoloured, List.find?_filter, hp, Bool.decide_eq_true]

theorem agreeOn_uncoloured (h : Host) (f : Field) : h.uncoloured.AgreeOn h f.probes := by
  intro p hp
  cases p with
  | environment name =>
    refine h.value?_uncoloured fun hn => ?_
    exact Field.environment_not_mem_probes f f.mem_all name hn hp
  | _ => rfl

theorem settingVariables_uncoloured (h : Host) :
    h.uncoloured.settingVariables = h.settingVariables.filter fun e => isColourless e.1 := by
  simp only [settingVariables, uncoloured, List.filter_map]
  rfl

theorem configPath?_uncoloured (h : Host) : h.uncoloured.configPath? = h.configPath? := by
  have hhome : h.uncoloured.value? "HOME" = h.value? "HOME" := h.value?_uncoloured (by decide)
  have hdir : h.uncoloured.value? "XDG_CONFIG_HOME" = h.value? "XDG_CONFIG_HOME" :=
    h.value?_uncoloured (by decide)
  have haccount : h.uncoloured.accountHome? = h.accountHome? := rfl
  simp only [configPath?, configDirectory?, home?, hhome, hdir, haccount]

end Host

theorem collect_uncoloured (c : Config) (h : Host) : collect c h.uncoloured = collect c h := by
  have hf (f : Field) : Collect.found c h.uncoloured f = Collect.found c h f :=
    Collect.found_congr ((h.agreeOn_uncoloured f).mono (List.erase_subset ..)) fun hm =>
      .inr (h.agreeOn_uncoloured f _ hm)
  rw [collect, collect, Collect.assignments_eq, Collect.assignments_eq]
  exact congrArg Record.ofAssignments (List.map_congr_left fun f _ => hf f)

theorem Config.ofLayers_uncoloured (file : PathState) (h : Host) :
    ofLayers file h.uncoloured.settingVariables = ofLayers file h.settingVariables := by
  unfold ofLayers
  rw [h.settingVariables_uncoloured, Environment.hasTorn_filter fun _ => path?_of_not_isColourless,
    Environment.table_filter fun _ => path?_of_not_isColourless]

theorem Config.load_uncoloured (h : Host) : load h.uncoloured = load h := by
  have hp : h.uncoloured.path = h.path := rfl
  simp only [load, h.configPath?_uncoloured, hp, ofLayers_uncoloured]

theorem Config.loadFrom_uncoloured (h : Host) (path : List UInt8) :
    loadFrom h.uncoloured path = loadFrom h path := by
  have hp : h.uncoloured.path = h.path := rfl
  simp only [loadFrom, hp, ofLayers_uncoloured]

theorem Cli.loadConfig_uncoloured (o : Options) (h : Host) :
    loadConfig o h.uncoloured = loadConfig o h := by
  simp only [loadConfig, Config.load_uncoloured, Config.loadFrom_uncoloured]

section

variable {h k : Host} (hk : k.uncoloured = h.uncoloured)

include hk

theorem collect_eq_of_uncoloured_eq (c : Config) : collect c k = collect c h := by
  rw [← collect_uncoloured c k, hk, collect_uncoloured]

theorem Cli.loadConfig_eq_of_uncoloured_eq (o : Options) : loadConfig o k = loadConfig o h := by
  rw [← loadConfig_uncoloured o k, hk, loadConfig_uncoloured]

end

end HostProfile
