import HostProfile.Settings.Config
import HostProfile.Settings.DecodeError

/-! Reading a configuration from settings. -/
namespace HostProfile

namespace Setting

/-- A result, or the first error. -/
abbrev Decoded (α : Type) := Except DecodeError α

def toText (path : List String) : Setting → Decoded String
  | .text s => .ok s
  | .letter c => .ok (.singleton c)
  | v => .error (.wrongType path v .text)

/-- Null stands for no text. -/
def toText? (path : List String) : Setting → Decoded (Option String)
  | .null => .ok none
  | v => (toText path v).map some

/-- The value with a given name. -/
def variant {α : Type} (c : Choice α) (path : List String) (name : String) : Decoded α :=
  match valueAt? name c.variants with
  | some a => .ok a
  | none => .error (.unknownVariant path name (c.variants.map Prod.fst))

def toNothing (path : List String) : Setting → Decoded Unit
  | .null => .ok ()
  | v => .error (.wrongType path v .nothing)

/-- A variant is a name, or a table with the name as its key and nothing as its value. Layered
settings look at the first key of the table only. -/
def toChoice {α : Type} (source : SettingSource) (c : Choice α) (path : List String) :
    Setting → Decoded α
  | .text s => variant c path s
  | .table es =>
    match source, es with
    | .json, [(k, v)] | .layers, (k, v) :: _ => do
      let a ← variant c (path ++ [k]) k
      toNothing (path ++ [k]) v
      pure a
    | .json, _ => .error .notOneVariant
    | .layers, [] => .error (.wrongType path (.table []) .anyChoice)
  | v => .error (.wrongType path v (.choice c.name))

/-- Reads an entry of a table, if the table has it. -/
def readEntry {α : Type} (es : List (String × Setting)) (path : List String) (key : String)
    (missing : α) (read : List String → Setting → Decoded α) : Decoded α :=
  match valueAt? key es with
  | some v => read (path ++ [key]) v
  | none => .ok missing

/-- Reads an item of an array, if the array reaches that far. -/
def readItem {α : Type} (xs : List Setting) (path : List String) (i : Nat)
    (missing : α) (read : List String → Setting → Decoded α) : Decoded α :=
  match xs[i]? with
  | some v => read (path ++ [toString i]) v
  | none => .ok missing

/-- A JSON array may not have items that nothing reads. -/
def checkLength (source : SettingSource) (xs : List Setting) (n : Nat) : Decoded Unit :=
  if source = .json && n < xs.length then .error (.tooLong xs.length) else .ok ()

/-- Overrides read one after the other, as a function of the override. -/
def readOverrides (read : Override → Decoded (Option String)) :
    List Override → Decoded (Override → Option String)
  | [] => .ok fun _ => none
  | o :: os => do
    let v ← read o
    let rest ← readOverrides read os
    pure fun o' => if o' = o then v else rest o'

/-- The overrides in the order of their keys. -/
def overridesByKey : List Override :=
  [.archAbi, .nativeEncoding, .osArch, .osName, .osVersion, .patchLevel]

/-- Overrides are a table, or an array with one item for each. -/
def toOverrides (source : SettingSource) (path : List String) :
    Setting → Decoded (Override → Option String)
  | .table es => readOverrides (fun o => readEntry es path o.key none toText?) overridesByKey
  | .array xs => do
    let os ← readOverrides (fun o => readItem xs path (Override.all.idxOf o) none toText?)
      Override.all
    checkLength source xs Override.all.length
    pure os
  | v => .error (.wrongType path v (.record "Overrides"))

end Setting

namespace Config

open Setting

/-- Reads a configuration. Missing entries take their defaults, unknown ones are ignored, and
entries are read in the order of their keys, so that the first error is that of the first wrong
key. -/
def ofSetting (source : SettingSource) : Setting → Decoded Config
  | .table es => do
    let defaults : Config := {}
    let defaultEncoding ← readEntry es [] "default_encoding" defaults.defaultEncoding
      (toChoice source DefaultEncoding.choice)
    let logLevel ← readEntry es [] "log_level" defaults.logLevel toText
    let overrides ← readEntry es [] "overrides" defaults.overrides (toOverrides source)
    let partialProxy ← readEntry es [] "partial_proxy" defaults.partialProxy
      (toChoice source Proxy.Policy.choice)
    pure { logLevel, defaultEncoding, partialProxy, overrides }
  | .array xs => do
    let defaults : Config := {}
    let logLevel ← readItem xs [] 0 defaults.logLevel toText
    let defaultEncoding ← readItem xs [] 1 defaults.defaultEncoding
      (toChoice source DefaultEncoding.choice)
    let partialProxy ← readItem xs [] 2 defaults.partialProxy
      (toChoice source Proxy.Policy.choice)
    let overrides ← readItem xs [] 3 defaults.overrides (toOverrides source)
    checkLength source xs 4
    pure { logLevel, defaultEncoding, partialProxy, overrides }
  | v => .error (.wrongType [] v (.record "Config"))

def ofJson (v : Json) : Decoded Config :=
  ofSetting .json (.ofJson v)

end Config

/-- Reads a policy from JSON. -/
def Proxy.Policy.ofJson (v : Json) : Setting.Decoded Proxy.Policy :=
  Setting.toChoice .json choice [] (.ofJson v)

end HostProfile
