import HostProfile.Proofs.Collect.Overrides
import HostProfile.Proofs.Settings.Layers
import HostProfile.Proofs.Settings.Literal

/-! The configuration of an environment that sets one override. A variable gives text as a file
does, unless the text is the literal of another type: that is no value for an override. -/
namespace HostProfile

open Setting

namespace Environment

/-- Of all variables only this one is a setting. -/
structure Only (env : List (String × String)) (name value : String) : Prop where
  mem : (name, value) ∈ env
  eq_of_path : ∀ entry ∈ env, path? entry.1 ≠ none → entry = (name, value)

-- What a name leads to is only ever compared here, not computed.
attribute [local irreducible] path?

theorem overlay_nil {entry : String × String} {k : String} {ks : List String}
    (hp : path? entry.1 = some (k :: ks)) :
    overlay [] entry = [(k, nest ks (setting entry.2))] := by
  rw [overlay, hp]
  dsimp only
  rw [mergeEntries_cons, Setting.mergeEntries]
  rfl

/-- A variable laid over itself changes nothing. -/
theorem overlay_self (entry : String × String) :
    overlay (overlay [] entry) entry = overlay [] entry := by
  cases hp : path? entry.1 with
  | none => rw [overlay_of_path?_eq_none hp]
  | some path =>
    cases path with
    | nil =>
      have hn (es : List (String × Setting)) : overlay es entry = es := by rw [overlay, hp]
      rw [hn]
    | cons k ks =>
      have hv : Setting.table (overlay [] entry) = nest (k :: ks) (setting entry.2) := by
        rw [overlay_nil hp, nest]
      have hm : Setting.table (overlay (overlay [] entry) entry) =
          Setting.merge (.table (overlay [] entry)) (nest (k :: ks) (setting entry.2)) :=
        overlay_eq_merge hp (List.cons_ne_nil k ks)
      rw [hv, merge_self ((ordered_setting entry.2).nest _), ← hv] at hm
      exact Setting.table.inj hm

/-- Once the only entry that leads anywhere has been laid over, nothing changes any more. -/
theorem foldl_overlay_eq_self {env : List (String × String)} {entry : String × String}
    {es : List (String × Setting)} (h : ∀ e ∈ env, path? e.1 ≠ none → e = entry)
    (hes : overlay es entry = es) : env.foldl overlay es = es := by
  induction env with
  | nil => rfl
  | cons e env ih =>
    obtain ⟨he, h⟩ := List.forall_mem_cons.mp h
    have hstep : overlay es e = es := by
      by_cases hp : path? e.1 = none
      · exact overlay_of_path?_eq_none hp
      · rw [he hp, hes]
    rw [List.foldl_cons, hstep]
    exact ih h

theorem foldl_overlay_of_only {env : List (String × String)} {entry : String × String}
    (hm : entry ∈ env) (h : ∀ e ∈ env, path? e.1 ≠ none → e = entry) :
    env.foldl overlay [] = overlay [] entry := by
  induction env with
  | nil => cases hm
  | cons e env ih =>
    obtain ⟨he, h⟩ := List.forall_mem_cons.mp h
    rw [List.foldl_cons]
    by_cases hee : e = entry
    · rw [hee]
      exact foldl_overlay_eq_self h (overlay_self entry)
    · have hp : path? e.1 = none := by
        by_contra hp
        exact hee (he hp)
      rw [overlay_of_path?_eq_none hp]
      exact ih ((List.mem_cons.mp hm).resolve_left (Ne.symm hee)) h

theorem table_of_only {env : List (String × String)} {name value k : String} {ks : List String}
    (h : Only env name value) (hp : path? name = some (k :: ks)) :
    table env = [(k, nest ks (setting value))] := by
  rw [table_eq_foldl, foldl_overlay_of_only h.mem h.eq_of_path, overlay_nil hp]

theorem hasTorn_of_only {env : List (String × String)} {name value : String}
    (h : Only env name value) (ht : isTorn value = false) : hasTorn env = false := by
  rw [hasTorn, List.any_eq_false]
  intro entry he
  by_cases hp : path? entry.1 = none
  · simp [hp]
  · simp [h.eq_of_path entry he hp, ht]

theorem sets_none {env : List (String × String)} (h : ∀ entry ∈ env, path? entry.1 = none) :
    Sets env fun _ => none where
  fits entry he := fits_of_path?_eq_none (h entry he)
  readable := by
    rw [hasTorn, List.any_eq_false]
    intro entry he
    simp [h entry he]
  complete l hl := absurd rfl hl

theorem Literal.toText?_eq_error {cs : List Char} {w : Setting} (h : Literal cs w)
    (path : List String) : toText? path w = .error (.wrongType path w .text) := by
  cases h with
  | number h => cases h <;> rfl
  | _ => rfl

theorem not_literal_of_text? {v s : String} (hv : Bare v) (h : (setting v).text? = some s)
    (w : Setting) : ¬ Literal v.toList w := by
  intro hw
  rw [(setting_of_bare hv).1 w hw] at h
  exact hw.not_text s (eq_text_of_text? h)

end Environment

namespace Config

/-! ### Reading one override -/

theorem readOverrides_cons (read : Override → Decoded (Option String)) (o : Override)
    (os : List Override) :
    readOverrides read (o :: os) = (read o).bind fun value =>
      (readOverrides read os).map fun rest => Function.update rest o value := by
  rw [readOverrides]
  cases read o with
  | error e => rfl
  | ok value =>
    cases readOverrides read os with
    | error e => rfl
    | ok rest => exact congrArg Except.ok (funext fun o' => (Function.update_apply ..).symm)

/-- Where only one override has something to read, that is all there is. -/
theorem readOverrides_single (o : Override) (r : Decoded (Option String)) (os : List Override) :
    readOverrides (fun o' => if o' = o then r else .ok none) os =
      if o ∈ os then r.map (Function.update (fun _ => none) o) else .ok fun _ => none := by
  induction os with
  | nil => rfl
  | cons o' os ih =>
    rw [readOverrides_cons, ih]
    by_cases ho : o' = o
    · subst ho
      rw [if_pos rfl, if_pos (List.mem_cons_self ..)]
      cases r with
      | error e => rfl
      | ok value =>
        split
        · exact congrArg Except.ok (Function.update_idem ..)
        · rfl
    · have hm : o ∈ o' :: os ↔ o ∈ os := by simp [Ne.symm ho]
      have hu : ∀ rest : Override → Option String, rest o' = none →
          Function.update rest o' none = rest := fun rest hr => hr ▸ Function.update_eq_self ..
      rw [if_neg ho]
      simp only [hm]
      split
      · cases r with
        | error e => rfl
        | ok value => exact congrArg Except.ok (hu _ (Function.update_of_ne ho ..))
      · exact congrArg Except.ok (hu _ rfl)

/-- The defaults with a value laid over one override. -/
def defaultsWith (o : Override) (w : Setting) : List (String × Setting) :=
  mergeEntries defaultLayer [("overrides", .table [(o.key, w)])]

theorem valueAt?_defaultsWith {k : String} (hk : k ≠ "overrides") (o : Override) (w : Setting) :
    valueAt? k (defaultsWith o w) = valueAt? k defaultLayer := by
  rw [defaultsWith, valueAt?_mergeEntries (List.pairwise_singleton ..), valueAt?_cons,
    if_neg (Ne.symm hk)]
  rfl

/-- The overrides as the defaults have them, without a value. -/
def defaultOverrides : List (String × Setting) :=
  Setting.overridesByKey.map fun o => (o.key, .null)

theorem valueAt?_overrides_defaultLayer :
    valueAt? "overrides" defaultLayer = some (.table defaultOverrides) := by
  rfl

theorem valueAt?_overrides_defaultsWith (o : Override) (w : Setting) :
    valueAt? "overrides" (defaultsWith o w) =
      some (.table (mergeEntries defaultOverrides [(o.key, w)])) := by
  rw [defaultsWith, valueAt?_mergeEntries (List.pairwise_singleton ..), valueAt?_cons, if_pos rfl]
  dsimp only
  rw [valueAt?_overrides_defaultLayer, mergeOver, merge_table]

theorem merge_null (w : Setting) : merge .null w = w := by
  cases w with
  | table es => rw [merge_table]
  | _ => rw [merge_of_not_table]; exact nofun

theorem valueAt?_key_mergeEntries (o o' : Override) (w : Setting) :
    valueAt? o'.key (mergeEntries defaultOverrides [(o.key, w)]) =
      some (if o' = o then w else .null) := by
  have hn : valueAt? o'.key defaultOverrides = some .null := by
    cases o' <;> rfl
  have hk : o.key = o'.key ↔ o' = o := by
    cases o <;> cases o' <;> decide
  rw [valueAt?_mergeEntries (List.pairwise_singleton ..), valueAt?_cons, hn]
  by_cases ho : o' = o
  · rw [if_pos (hk.mpr ho), if_pos ho]
    dsimp only
    rw [mergeOver, merge_null]
  · rw [if_neg (mt hk.mp ho), if_neg ho]
    rfl

/-- A value laid over one override of the defaults is read as a text of its own, and the rest of the
configuration is that of the defaults. -/
theorem ofSetting_defaultsWith (o : Override) (w : Setting) :
    ofSetting .layers (.table (defaultsWith o w)) =
      (toText? ["overrides", o.key] w).map fun value => ({} : Config).withOverride o value := by
  have he : readEntry (defaultsWith o w) [] "default_encoding" ({} : Config).defaultEncoding
      (toChoice .layers DefaultEncoding.choice) = .ok ({} : Config).defaultEncoding := by
    rw [readEntry, valueAt?_defaultsWith (by decide)]
    rfl
  have hl : readEntry (defaultsWith o w) [] "log_level" ({} : Config).logLevel toText =
      .ok ({} : Config).logLevel := by
    rw [readEntry, valueAt?_defaultsWith (by decide)]
    rfl
  have hp : readEntry (defaultsWith o w) [] "partial_proxy" ({} : Config).partialProxy
      (toChoice .layers Proxy.Policy.choice) = .ok ({} : Config).partialProxy := by
    rw [readEntry, valueAt?_defaultsWith (by decide)]
    rfl
  have hread : (fun o' : Override => readEntry (mergeEntries defaultOverrides [(o.key, w)])
      ["overrides"] o'.key none toText?) =
      fun o' => if o' = o then toText? ["overrides", o.key] w else .ok none := by
    funext o'
    rw [readEntry, valueAt?_key_mergeEntries]
    by_cases ho : o' = o
    · rw [if_pos ho, if_pos ho, ho]
      rfl
    · rw [if_neg ho, if_neg ho]
      rfl
  have ho : readEntry (defaultsWith o w) [] "overrides" ({} : Config).overrides
      (toOverrides .layers) =
      (toText? ["overrides", o.key] w).map (Function.update (fun _ => none) o) := by
    rw [readEntry, valueAt?_overrides_defaultsWith]
    dsimp only [List.nil_append]
    rw [toOverrides, hread, readOverrides_single, if_pos (mem_overridesByKey o)]
  simp only [ofSetting, he, hl, hp, ho]
  cases toText? ["overrides", o.key] w <;> rfl

/-! ### Loading -/

section

variable {h : Host} {path : List UInt8} (hp : h.configPath? = some path)

include hp

theorem load_of_missing (hf : h.path path = .missing)
    (ht : Environment.hasTorn h.settingVariables = false) :
    load h = (ofSetting .layers
      (.table (mergeEntries defaultLayer (Environment.table h.settingVariables)))).mapError
        .invalid := by
  have hm : mergeEntries defaultLayer [] = defaultLayer := by rw [mergeEntries]
  rw [load_of_configPath? hp, hf, ofLayers, ht]
  simp only [fileLayer, bind, Except.bind, hm]
  generalize ofSetting .layers _ = result
  cases result <;> rfl

/-- The only variable decides over its override, and nothing else is changed. -/
theorem load_of_only (hf : h.path path = .missing) {o : Override} {v : String}
    (hs : Environment.Only h.settingVariables (Environment.variableName (.override o)) v)
    (ht : Environment.isTorn v = false) :
    load h = ((toText? ["overrides", o.key] (Environment.setting v)).map fun value =>
      ({} : Config).withOverride o value).mapError .invalid := by
  have htable : Environment.table h.settingVariables =
      [("overrides", .table [(o.key, Environment.setting v)])] :=
    Environment.table_of_only hs (Environment.path?_variableName (.override o))
  rw [load_of_missing hp hf (Environment.hasTorn_of_only hs ht), htable, ← ofSetting_defaultsWith]
  rfl

theorem load_of_fileSets {o : Override} {v : String}
    (hf : FileSets (h.path path) (Function.update (fun _ => none) (.override o) (some v)))
    (he : ∀ entry ∈ h.settingVariables, Environment.path? entry.1 = none) :
    load h = .ok (({} : Config).withOverride o (some v)) := by
  have ha : ∀ (l : Leaf) (value : String),
      (none <|> Function.update (fun _ => none) (.override o) (some v) l) = some value →
        l.Admits (some value) := by
    intro l value hl
    cases l with
    | override o' => trivial
    | _ => cases hl
  obtain ⟨c, hc, hv⟩ := ofLayers_of_sets hf (Environment.sets_none he) ha
  rw [load_of_configPath? hp, hc]
  refine congrArg Except.ok (eq_of_leaf fun l => ?_)
  rw [hv]
  cases l with
  | override o' =>
    by_cases ho : o' = o
    · subst ho
      simp [leaf, withOverride]
    · have hne : Leaf.override o' ≠ .override o := fun hl => ho (Leaf.override.inj hl)
      simp [leaf, withOverride, Function.update_of_ne ho, Function.update_of_ne hne]
  | _ => rfl

end

/-- A variable sets its override to what a file with that string sets it to, exactly if its text is
no literal of a truth value or a number. Such a literal is refused where the override stands. -/
theorem load_override_variable {o : Override} {v : String} (hv : Environment.Bare v) {h k : Host}
    {path place : List UInt8} (hp : h.configPath? = some path) (hm : h.path path = .missing)
    (hs : Environment.Only h.settingVariables (Environment.variableName (.override o)) v)
    (hq : k.configPath? = some place)
    (hf : FileSets (k.path place) (Function.update (fun _ => none) (.override o) (some v)))
    (he : ∀ entry ∈ k.settingVariables, Environment.path? entry.1 = none) :
    load k = .ok (({} : Config).withOverride o (some v)) ∧
      (load h = load k ↔ ∀ w, ¬ Environment.Literal v.toList w) ∧
      ∀ w, Environment.Literal v.toList w →
        load h = .error (.invalid (.wrongType ["overrides", o.key] w .text)) := by
  obtain ⟨hl, ht, hr⟩ := Environment.setting_of_bare hv
  have hk := load_of_fileSets hq hf he
  have hload := load_of_only hp hm hs hr
  have hw : ∀ w, Environment.Literal v.toList w →
      load h = .error (.invalid (.wrongType ["overrides", o.key] w .text)) := by
    intro w hw
    rw [hload, hl w hw, hw.toText?_eq_error]
    rfl
  refine ⟨hk, ?_, hw⟩
  constructor
  · intro heq w hlit
    rw [hw w hlit, hk] at heq
    cases heq
  · intro hn
    rw [hload, hk, ht hn]
    rfl

def homeHost : Host where
  environment := [("HOME", "/h".toUTF8.toList)]

/-- Where this host has its configuration. -/
def homePath : List UInt8 :=
  "/h/.config/platprops/config.toml".toUTF8.toList

/-- A host with the system's version in a variable. -/
def versionVariable (v : String) : Host :=
  { homeHost with
    environment := homeHost.environment ++ [("PLATPROPS_OVERRIDES__OS_VERSION", v.toUTF8.toList)] }

/-- A host with the system's version in a file. -/
def versionFile (v : String) : Host :=
  { homeHost with
    path := fun path =>
      if path = homePath then .text ("[overrides]\nos_version = \"" ++ v ++ "\"\n") else .missing }

theorem configPath?_versionFile (v : String) : (versionFile v).configPath? = some homePath := by
  change homeHost.configPath? = _
  decide +kernel

theorem path_versionFile (v : String) : (versionFile v).path homePath =
    .text ("[overrides]\nos_version = \"" ++ v ++ "\"\n") :=
  if_pos rfl

theorem path?_versionFile (v : String) :
    ∀ entry ∈ (versionFile v).settingVariables, Environment.path? entry.1 = none := by
  have hv : homeHost.settingVariables = [("HOME", "/h")] := by decide +kernel
  change ∀ entry ∈ homeHost.settingVariables, _
  rw [hv]
  exact List.forall_mem_singleton.mpr (by decide +kernel)

/-- The versions of the runs below, one of which looks like a number. -/
def versions : List String :=
  ["6.8.0", "11"]

theorem bare_versions : ∀ v ∈ versions, Environment.Bare v := by
  simp only [versions, List.forall_mem_cons]
  refine ⟨⟨by decide, by decide, by decide⟩, ⟨by decide, by decide, by decide⟩, ?_⟩
  exact List.forall_mem_nil _

theorem configPath?_versionVariable :
    ∀ v ∈ versions, (versionVariable v).configPath? = some homePath := by
  decide +kernel

theorem only_versionVariable : ∀ v ∈ versions, Environment.Only (versionVariable v).settingVariables
    (Environment.variableName (.override .osVersion)) v := by
  intro v hm
  have hv : ∀ v ∈ versions, (versionVariable v).settingVariables =
      [("HOME", "/h"), ("PLATPROPS_OVERRIDES__OS_VERSION", v)] := by decide +kernel
  have hname : Environment.variableName (.override .osVersion) =
      "PLATPROPS_OVERRIDES__OS_VERSION" := by decide +kernel
  have hhome : Environment.path? "HOME" = none := by decide +kernel
  rw [hv v hm, hname]
  refine ⟨List.mem_cons_of_mem _ (List.mem_cons_self ..), ?_⟩
  simp only [List.forall_mem_cons]
  exact ⟨fun hp => absurd hhome hp, fun _ => trivial, List.forall_mem_nil _⟩

theorem fileSets_versionFile : ∀ v ∈ versions, FileSets ((versionFile v).path homePath)
    (Function.update (fun _ => none) (.override .osVersion) (some v)) := by
  intro v hm
  rw [path_versionFile]
  refine fileSets_of_map_text? (o := .osVersion) (by rw [Function.update_self]; exact nofun) ?_
  intro l
  revert v
  cases l with
  | override o => cases o <;> decide +kernel
  | _ => decide +kernel

theorem literal_eleven : Environment.Literal "11".toList (.natural 11) :=
  .number (.natural ((Decimal.integer?_eq_some_iff _ 11).mp (by decide)) (by decide) (by decide))

/-- A version of three parts is text in a variable too. A single number is not. -/
theorem load_override_variable_version :
    load (versionVariable "6.8.0") = load (versionFile "6.8.0") ∧
      load (versionFile "6.8.0") = .ok (({} : Config).withOverride .osVersion (some "6.8.0")) ∧
      load (versionVariable "11") =
        .error (.invalid (.wrongType ["overrides", "os_version"] (.natural 11) .text)) := by
  have hthree : "6.8.0" ∈ versions := by decide
  have heleven : "11" ∈ versions := by decide
  have htext : (Environment.setting "6.8.0").text? = some "6.8.0" := by decide +kernel
  obtain ⟨hfile, hiff, -⟩ := load_override_variable (bare_versions _ hthree)
    (configPath?_versionVariable _ hthree) rfl (only_versionVariable _ hthree)
    (configPath?_versionFile _) (fileSets_versionFile _ hthree) (path?_versionFile _)
  obtain ⟨-, -, hnumber⟩ := load_override_variable (bare_versions _ heleven)
    (configPath?_versionVariable _ heleven) rfl (only_versionVariable _ heleven)
    (configPath?_versionFile _) (fileSets_versionFile _ heleven) (path?_versionFile _)
  exact ⟨hiff.mpr (Environment.not_literal_of_text? (bare_versions _ hthree) htext), hfile,
    hnumber _ literal_eleven⟩

/-- A version that is a single number is refused in a variable and taken from a file. -/
theorem load_versionVariable_number :
    load (versionVariable "11") =
        .error (.invalid (.wrongType ["overrides", "os_version"] (.natural 11) .text)) ∧
      load (versionFile "11") = .ok (({} : Config).withOverride .osVersion (some "11")) := by
  have heleven : "11" ∈ versions := by decide
  obtain ⟨hl, -, hr⟩ := Environment.setting_of_bare (bare_versions _ heleven)
  have hload := load_of_only (configPath?_versionVariable _ heleven) rfl
    (only_versionVariable _ heleven) hr
  constructor
  · rw [hload, hl _ literal_eleven]
    rfl
  · exact load_of_fileSets (configPath?_versionFile _) (fileSets_versionFile _ heleven)
      (path?_versionFile _)

end Config

end HostProfile
