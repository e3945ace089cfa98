import HostProfile.Host
import HostProfile.Settings.Decoding
import HostProfile.Settings.Environment
import HostProfile.Toml.Document

/-! Finding the configuration of a host: the defaults, then the file, then the environment, each
laid over the one before. -/
namespace HostProfile

open Text

inductive LoadError where
  /-- The user has no directory for configurations. -/
  | noDirectory
  | missing (path : List UInt8)
  /-- A variable that holds a setting cannot be read. -/
  | torn
  | malformed
  | invalid (error : DecodeError)

/-- The name of a path, for people. -/
def pathText (path : List UInt8) : String :=
  .ofList (Utf8.decodeLossy path)

/-- What went wrong, for people. Where a variable is torn or a document malformed is not told: these two
texts are this library's own wording, and nothing rests on it. -/
def LoadError.message : LoadError → String
  | .noDirectory => "could not determine config directory"
  | .missing path => s!"config file {pathText path} does not exist"
  | .torn => "a variable is cut inside a character"
  | .malformed => "invalid configuration: not a TOML document"
  | .invalid error => "invalid configuration: " ++ error.message .layers

/-- A path and a name below it, with one slash between them. -/
def joinPath (base : List UInt8) (name : String) : List UInt8 :=
  let slash := if base.isEmpty || base.getLast? = some 0x2F then [] else [0x2F]
  base ++ slash ++ Utf8.encode name.toList

namespace Host

/-- The variables that may hold settings. -/
def settingVariables (h : Host) : List (String × String) :=
  h.environment.map fun (name, bytes) => (name, .ofList (Utf8.decodeLossy bytes))

/-- The user's directory of configurations. -/
def configDirectory? (h : Host) : Option (List UInt8) :=
  (h.value? "XDG_CONFIG_HOME").filter (·.head? = some 0x2F) <|>
    h.home?.map fun home => joinPath home ".config"

/-- Where the configuration is unless the user says otherwise. -/
def configPath? (h : Host) : Option (List UInt8) :=
  h.configDirectory?.map fun dir => joinPath (joinPath dir "platprops") "config.toml"

end Host

namespace Config

/-- The defaults as the lowest layer. -/
def defaultLayer : List (String × Setting) :=
  match Setting.ofJson ({} : Config).toJson with
  | .table es => es
  | _ => []

/-- The file's layer. -/
def fileLayer (file : PathState) : Except LoadError (List (String × Setting)) :=
  match file with
  | .text s =>
    match Toml.document? s with
    | some es => .ok es
    | none => .error .malformed
  | .unreadable => .error .malformed
  | .missing | .notAFile => .ok []

/-- The configuration of a file, which may be missing, and an environment. The environment is read
first. -/
def ofLayers (file : PathState) (env : List (String × String)) : Except LoadError Config := do
  if Environment.hasTorn env then throw .torn
  let fileEntries ← fileLayer file
  let entries := Setting.mergeEntries (Setting.mergeEntries defaultLayer fileEntries)
    (Environment.table env)
  match ofSetting .layers (.table entries) with
  | .ok c => pure c
  | .error e => throw (.invalid e)

/-- The configuration of the host, with the file in its usual place. There need not be a file, but
there must be such a place. -/
def load (h : Host) : Except LoadError Config :=
  match h.configPath? with
  | some path => ofLayers (h.path path) h.settingVariables
  | none => .error .noDirectory

/-- The configuration with a file of the user's choice, which must exist. -/
def loadFrom (h : Host) (path : List UInt8) : Except LoadError Config :=
  match h.path path with
  | .missing => .error (.missing path)
  | file => ofLayers file h.settingVariables

end Config

end HostProfile
