import HostProfile.Cli.Arguments
import HostProfile.Cli.Report
import HostProfile.Collect
import HostProfile.Settings.Loading

/-! What the program prints, and how it ends, for a command line and a host. -/
namespace HostProfile.Cli

open Text

/-- What a run leaves behind. The error stream is given by the program's own messages; the lines of
the log, which go there too, are not part of it. -/
structure Outcome where
  exitCode : Nat := 0
  stdout : String := ""
  stderr : String := ""
  deriving DecidableEq, Repr

def programName : String := "platprops"

def versionText : String := "0.3.0"

/-- The help. That it is shown matters, and not its wording, which is this library's own. -/
def usage : String :=
  joinLines ["Usage: " ++ programName ++ " [OPTIONS] <COMMAND>", "",
    "Commands:",
    "  show [--format table|json|properties]  Show all properties of this host",
    "  normalize <NAMES>...                   Show the registered names of encodings",
    "  get <KEY>                              Show one property", "",
    "Options:",
    "  --config <PATH>      Read this configuration file",
    "  --log-level <LEVEL>  Set the log level",
    "  --log-json           Write the log as JSON",
    "  -h, --help           Show this help",
    "  -V, --version        Show the version"]

def Outcome.failure (message : String) : Outcome :=
  { exitCode := 1, stderr := message ++ "\n" }

/-- The error of a failed load, and below it the cause, indented. -/
def loadMessage (subject : String) (e : LoadError) : String :=
  "Error: loading " ++ subject ++ "\n\nCaused by:\n    " ++
    .ofList (replace '\n' "\n    ".toList e.message.toList)

/-- How the program ends when its configuration does not load. -/
def loadFailure (subject : String) : LoadError → Outcome
  | .torn => { exitCode := 101, stderr := LoadError.torn.message ++ "\n" }
  | e => .failure (loadMessage subject e)

/-- The configuration that the options ask for, or the end of the program without it. -/
def loadConfig (o : Options) (h : Host) : Except Outcome Config :=
  match o.config with
  | some path => (Config.loadFrom h (Utf8.encode path.toList)).mapError (loadFailure path)
  | none => (Config.load h).mapError (loadFailure "configuration")

/-- A registered name is shown alone, and any other name with the registered one. -/
def normalizedLine (colours : Bool) (name : String) : String :=
  let canonical := Charset.canonical name
  if canonical = name then name
  else paint colours .dimmed name ++ " " ++ paint colours .dimmed "→" ++ " " ++
    paint colours .strong canonical

def answer (c : Config) (h : Host) : Request → Outcome
  | .show format =>
    match Format.ofName? format with
    | some format => { stdout := report (usesColours h) (collect c h) format }
    | none => .failure s!"Error: unknown format '{format}' (expected table, json or properties)"
  | .normalize names => { stdout := joinLines (names.map (normalizedLine (usesColours h))) }
  | .get key =>
    match (collect c h).properties.get? key with
    | some value => { stdout := joinLines [escape value] }
    | none => .failure s!"property '{key}' is not set on this host"

/-- A configuration that does not load ends every command. -/
def run (words : List String) (h : Host) : Outcome :=
  match Invocation.ofArguments words with
  | .help => { stdout := usage }
  | .version => { stdout := joinLines [programName ++ " " ++ versionText] }
  | .misuse => { exitCode := 2, stderr := usage }
  | .run options request =>
    match loadConfig options h with
    | .ok c => answer c h request
    | .error outcome => outcome

end HostProfile.Cli
