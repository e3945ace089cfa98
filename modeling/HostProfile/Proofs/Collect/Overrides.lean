import HostProfile.Proofs.Charset
import HostProfile.Proofs.Collect.Fields
import Mathlib.Data.List.Perm.Basic

/-! An override sets its own field, whatever the host says, and shows nowhere else but for the
encodings that follow the native one. The order of overrides is free. -/
namespace HostProfile

namespace Config

/-- The configuration with another value for one override. -/
def withOverride (c : Config) (o : Override) (value : Option String) : Config :=
  { c with overrides := Function.update c.overrides o value }

/-- The configuration with overrides set one after the other. -/
def withOverrides (c : Config) (settings : List (Override × String)) : Config :=
  settings.foldl (fun c s => c.withOverride s.1 (some s.2)) c

theorem withOverride_comm (c : Config) {o o' : Override} (h : o ≠ o') (v w : Option String) :
    (c.withOverride o v).withOverride o' w = (c.withOverride o' w).withOverride o v := by
  simp only [withOverride, Function.update_comm h]

theorem withOverrides_perm (c : Config) {settings order : List (Override × String)}
    (hn : (settings.map Prod.fst).Nodup) (hp : settings.Perm order) :
    c.withOverrides settings = c.withOverrides order := by
  refine hp.foldl_eq' (fun s hs t ht c => ?_) c
  by_cases hst : s.1 = t.1
  · rw [List.inj_on_of_nodup_map hn hs ht hst]
  · exact c.withOverride_comm hst _ _

end Config

namespace Override

/-- How the value of an override is read. -/
def reading : Override → String → String
  | .nativeEncoding, name => Charset.canonical name
  | _, text => text

/-- The fields in which an override shows. -/
def reach (c : Config) : Override → List Field
  | .nativeEncoding =>
    [.text .nativeEncoding, .text .stdoutEncoding, .text .stderrEncoding] ++
      if c.defaultEncoding = .native then [.text .encoding] else []
  | o => [.text o.field]

end Override

namespace Collect

variable {c c' : Config} {h : Host}

theorem nativeEncoding_config (ho : c'.overrides .nativeEncoding = c.overrides .nativeEncoding) :
    nativeEncoding c' h = nativeEncoding c h := by
  rw [nativeEncoding, nativeEncoding, ho]

/-- A configuration matters to a text through the overrides that reach it. -/
theorem text_config {f : TextField} (hd : c'.defaultEncoding = c.defaultEncoding)
    (ho : ∀ o : Override, .text f ∈ o.reach c → c'.overrides o = c.overrides o) :
    text c' h f = text c h f := by
  have hn (hf : .text f ∈ Override.reach c .nativeEncoding) :
      nativeEncoding c' h = nativeEncoding c h := nativeEncoding_config (ho _ hf)
  cases f with
  | osName => simp only [text, osName, ho .osName (List.mem_singleton.mpr rfl)]
  | osVersion => simp only [text, osVersion, ho .osVersion (List.mem_singleton.mpr rfl)]
  | osArch => simp only [text, osArch, ho .osArch (List.mem_singleton.mpr rfl)]
  | archAbi => exact ho .archAbi (List.mem_singleton.mpr rfl)
  | patchLevel => exact ho .patchLevel (List.mem_singleton.mpr rfl)
  | encoding =>
    simp only [text, encoding, hd]
    cases hc : c.defaultEncoding with
    | utf8 => rfl
    | native => rw [hn (by simp [Override.reach, hc])]
  | nativeEncoding => simp only [text, hn (by simp [Override.reach])]
  | stdoutEncoding => simp only [text, streamEncoding, hn (by simp [Override.reach])]
  | stderrEncoding => simp only [text, streamEncoding, hn (by simp [Override.reach])]
  | _ => rfl

theorem found_config {f : Field} (hd : c'.defaultEncoding = c.defaultEncoding)
    (ho : ∀ o : Override, f ∈ o.reach c → c'.overrides o = c.overrides o) :
    found c' h f = found c h f := by
  cases f with
  | text f => rw [found, found, text_config hd ho]
  | _ => rfl

theorem text_of_override {o : Override} {v : String} (ho : c.overrides o = some v) :
    text c h o.field = some (o.reading v) := by
  cases o <;> simp [text, Override.field, Override.reading, osName, osVersion, osArch,
    nativeEncoding, ho]

end Collect

open Collect

theorem content_collect_config {c c' : Config} {h : Host} {f : Field}
    (hd : c'.defaultEncoding = c.defaultEncoding)
    (ho : ∀ o : Override, f ∈ o.reach c → c'.overrides o = c.overrides o) :
    (collect c' h).content f = (collect c h).content f := by
  rw [content_collect, content_collect, found_config hd ho]

theorem Override.reading_eq_empty_iff (o : Override) (v : String) : o.reading v = "" ↔ v = "" := by
  cases o with
  | nativeEncoding => exact Charset.canonical_eq_empty_iff v
  | _ => rfl

theorem text_collect_of_override {c : Config} {o : Override} {v : String}
    (ho : c.overrides o = some v) (h : Host) :
    (collect c h).text o.field = if v = "" then none else some (o.reading v) := by
  rw [text_collect, text_of_override ho, Option.filter_some]
  simp [Override.reading_eq_empty_iff]

/-- An override gives its field the value, or none if the value is empty, and changes only the
fields that it reaches. Overrides may be set in any order, and the level of the log and the policy
for proxies have no say. -/
theorem collect_withOverride (c : Config) (h : Host) :
    (∀ (o : Override) (v : String), ∀ f, f ∉ o.reach c →
      (collect (c.withOverride o (some v)) h).content f = (collect c h).content f) ∧
    (∀ (o : Override) (v : String), (collect (c.withOverride o (some v)) h).text o.field =
      if v = "" then none else some (o.reading v)) ∧
    (∀ settings order : List (Override × String), (settings.map Prod.fst).Nodup →
      settings.Perm order → collect (c.withOverrides settings) h = collect (c.withOverrides order) h) ∧
    (∀ (level : String) (policy : Proxy.Policy),
      collect { c with logLevel := level, partialProxy := policy } h = collect c h) := by
  refine ⟨fun o v f hf => ?_, fun o v => ?_, fun settings order hn hp => ?_,
    fun level policy => rfl⟩
  · refine content_collect_config rfl fun o' ho' => Function.update_of_ne ?_ _ _
    rintro rfl
    exact hf ho'
  · exact text_collect_of_override (Function.update_self ..) h
  · rw [c.withOverrides_perm hn hp]

/-- The default encoding follows a native encoding that is set, and the system's name does not. -/
theorem collect_withOverride_nativeEncoding :
    let c : Config := { defaultEncoding := .native }
    let h : Host :=
      { output? := fun command =>
          if command = .kernelName then some (Text.Utf8.encode "Darwin\n".toList) else none }
    let settings : List (Override × String) := [(.nativeEncoding, "ISO646-US"), (.archAbi, "")]
    .text .osName ∉ Override.reach c .nativeEncoding ∧
      (collect (c.withOverride .nativeEncoding (some "ISO646-US")) h).content (.text .osName) =
        (collect c h).content (.text .osName) ∧
      (collect c h).text .osName = some "Mac OS X" ∧
      (collect (c.withOverride .nativeEncoding (some "ISO646-US")) h).text .nativeEncoding =
        some "US-ASCII" ∧
      (collect (c.withOverride .nativeEncoding (some "ISO646-US")) h).text .encoding =
        some "US-ASCII" ∧
      collect (c.withOverrides settings) h = collect (c.withOverrides settings.reverse) h := by
  intro c h settings
  obtain ⟨hf, hv, hp, -⟩ := collect_withOverride c h
  have hr : .text .osName ∉ Override.reach c .nativeEncoding := by decide
  refine ⟨hr, hf _ _ _ hr, ?_, hv .nativeEncoding "ISO646-US", ?_,
    hp _ _ (by decide) (List.reverse_perm _).symm⟩
  · rw [text_collect]
    decide +kernel
  · rw [text_collect]
    decide +kernel

end HostProfile
