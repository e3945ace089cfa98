import HostProfile.Charset
import HostProfile.Event
import HostProfile.Host
import HostProfile.Locale.Name
import HostProfile.Processor
import HostProfile.Record.Basic
import HostProfile.Settings.Config

/-! Collecting a record. Each field is found out on its own: a source that fails leaves its field
absent, or filled from elsewhere, and is reported. -/
namespace HostProfile

open Text

/-- What a search for a value has found, and what it reports. -/
structure Finding (α : Type) where
  value : α
  events : List Event := []

namespace Collect

/-- What a command prints, without the white space around it. -/
def answer? (h : Host) (c : Command) : Option String :=
  (h.outputText? c).map fun s => .ofList (trim s.toList)

def locale (h : Host) (category : Locale.Category) : Locale :=
  (Locale.resolve? category h.textValue?).getD {}

/-- The encoding of text that goes to the operating system: the format locale's codeset, or else the
one the locale tool names. -/
def hostEncoding (os : OsFamily) (formatLocale : Locale) (h : Host) : Finding String :=
  match formatLocale.codeset with
  | some codeset => ⟨codeset, []⟩
  | none =>
    if os.isWindows then ⟨Charset.utf8, []⟩
    else match (answer? h .charmap).bind nonEmpty? with
      | some charmap => ⟨Charset.canonical charmap, []⟩
      | none => ⟨Charset.ascii, [.charmapUnknown]⟩

def nativeEncoding (c : Config) (h : Host) : Finding String :=
  match c.overrides .nativeEncoding with
  | some name => ⟨Charset.canonical name, []⟩
  | none => hostEncoding .host (locale h .format) h

def encoding (c : Config) (h : Host) : String :=
  match c.defaultEncoding with
  | .utf8 => Charset.utf8
  | .native => (nativeEncoding c h).value

def streamEncoding (c : Config) (h : Host) (s : Stream) : Option String :=
  if h.isTerminal s then some (nativeEncoding c h).value else none

def osName (c : Config) (h : Host) : Finding (Option String) :=
  match c.overrides .osName with
  | some name => ⟨some name, []⟩
  | none =>
    match answer? h .kernelName with
    | some kernel => ⟨some (Machine.osName kernel), []⟩
    | none => ⟨some OsFamily.host.fallbackName, [.kernelNameUnknown]⟩

def osVersion (c : Config) (h : Host) : Finding (Option String) :=
  match c.overrides .osVersion with
  | some version => ⟨some version, []⟩
  | none =>
    match answer? h .kernelRelease with
    | some version => ⟨some version, []⟩
    | none => ⟨none, [.releaseUnknown]⟩

def osArch (c : Config) : String :=
  (c.overrides .osArch).getD (Machine.archName Machine.hostArch)

def tmpDir (h : Host) : NativeText :=
  .narrow ((h.value? "TMPDIR").getD (Utf8.encode "/tmp".toList))

def userDir (h : Host) : Finding (Option NativeText) :=
  match h.workingDirectory with
  | .ok path => ⟨some (.narrow path), []⟩
  | .error e => ⟨none, [.workingDirectoryUnknown e]⟩

/-- The user's name: the first variable that is set and not empty, or else what the system says. -/
def userName (h : Host) : Finding (Option NativeText) :=
  match (["USER", "LOGNAME"].filterMap h.value?).find? (!·.isEmpty) with
  | some name => ⟨some (.narrow name), []⟩
  | none =>
    match answer? h .userName with
    | some name => ⟨some (.ofString name), []⟩
    | none => ⟨none, [.userUnknown]⟩

def instructionSets (h : Host) : Finding (Option (List String)) :=
  match h.cpuinfo with
  | .ok cpuinfo => ⟨Processor.instructionSets? cpuinfo, []⟩
  | .error e => ⟨none, [.processorsUnknown e]⟩

def assignments (c : Config) (h : Host) : List Assignment :=
  [.text .osName (osName c h).value,
    .text .osVersion (osVersion c h).value,
    .text .osArch (some (osArch c)),
    .text .archAbi (c.overrides .archAbi),
    .native .tmpDir (some (tmpDir h)),
    .native .userDir (userDir h).value,
    .text .fileSeparator (some OsFamily.host.fileSeparator),
    .text .pathSeparator (some OsFamily.host.pathSeparator),
    .text .lineSeparator (some OsFamily.host.lineSeparator),
    .native .userName (userName h).value,
    .native .userHome (h.home?.map .narrow),
    .formatLocale (locale h .format),
    .displayLocale (locale h .display),
    .text .encoding (some (encoding c h)),
    .text .nativeEncoding (some (nativeEncoding c h).value),
    .text .stdoutEncoding (streamEncoding c h .stdout),
    .text .stderrEncoding (streamEncoding c h .stderr),
    .unicodeOrder .host,
    .instructionSets (instructionSets h).value,
    .text .cpuEndian (some ByteOrder.host.name),
    .text .dataModel (some Machine.dataModel),
    .text .patchLevel (c.overrides .patchLevel),
    .proxy none]

end Collect

/-- The record of a host. No host is without one. -/
def collect (c : Config) (h : Host) : Record :=
  .ofAssignments (Collect.assignments c h)

/-- The summary that ends a collection. -/
def Record.collectedEvent (r : Record) : Event :=
  let shown (f : TextField) := (r.text f).getD "unknown"
  .collected (shown .osName) (shown .osArch) (shown .nativeEncoding)

/-- What collecting the record reports, in the order of the search. -/
def collectEvents (c : Config) (h : Host) : List Event :=
  (Collect.nativeEncoding c h).events ++ (Collect.osName c h).events ++
    (Collect.osVersion c h).events ++ (Collect.userDir h).events ++
    (Collect.userName h).events ++ (Collect.instructionSets h).events ++
    [(collect c h).collectedEvent]

/-- The record that a process keeps: it is collected once, with the default configuration, when it is
first asked for. -/
structure Snapshot where
  record? : Option Record := none

namespace Snapshot

/-- The record, and the snapshot that holds it from now on. -/
def get (s : Snapshot) (h : Host) : Record × Snapshot :=
  let r := s.record?.getD (collect {} h)
  (r, ⟨some r⟩)

/-- The records that one process gives when it is asked on each host in turn. -/
def getEach : Snapshot → List Host → List Record
  | _, [] => []
  | s, h :: hs =>
    let (r, s') := s.get h
    r :: getEach s' hs

end Snapshot

end HostProfile
