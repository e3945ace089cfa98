import HostProfile.Dictionary
import HostProfile.Event
import HostProfile.Record.Basic

/-! The flat view of a record: the system properties that a language runtime starts with. -/
namespace HostProfile

def TextField.propertyKey : TextField → String
  | .osName => "os.name"
  | .osVersion => "os.version"
  | .osArch => "os.arch"
  | .archAbi => "os.arch.abi"
  | .fileSeparator => "file.separator"
  | .pathSeparator => "path.separator"
  | .lineSeparator => "line.separator"
  | .encoding => "file.encoding"
  | .nativeEncoding => "native.encoding"
  | .stdoutEncoding => "stdout.encoding"
  | .stderrEncoding => "stderr.encoding"
  | .cpuEndian => "cpu.endian"
  | .dataModel => "data.model"
  | .patchLevel => "patch.level"

def NativeField.propertyKey : NativeField → String
  | .tmpDir => "tmp.dir"
  | .userDir => "user.dir"
  | .userName => "user.name"
  | .userHome => "user.home"

def Locale.Part.propertyKey : Locale.Part → String
  | .language => "user.language"
  | .script => "user.script"
  | .country => "user.country"
  | .variant => "user.variant"

namespace Record

/-- Where a property comes from. -/
inductive Source where
  | text (field : TextField)
  | native (field : NativeField)
  | displayPart (part : Locale.Part)
  | formatPart (part : Locale.Part)
  | unicodeOrder
  | instructionSets
  | proxyHost (kind : Proxy.Kind)
  | proxyPort (kind : Proxy.Kind)
  | httpBypass
  | ftpBypass
  deriving DecidableEq, Repr

namespace Source

def all : List Source :=
  TextField.all.map .text ++ NativeField.all.map .native ++
    Locale.Part.all.flatMap (fun p => [.displayPart p, .formatPart p]) ++
    [.unicodeOrder, .instructionSets] ++
    Proxy.Kind.all.flatMap (fun k => [.proxyHost k, .proxyPort k]) ++ [.httpBypass, .ftpBypass]

def key : Source → String
  | .text field => field.propertyKey
  | .native field => field.propertyKey
  | .displayPart part => part.propertyKey
  | .formatPart part => part.propertyKey ++ ".format"
  | .unicodeOrder => "unicode.encoding"
  | .instructionSets => "cpu.isalist"
  | .proxyHost kind => kind.hostKey
  | .proxyPort kind => kind.portKey
  | .httpBypass => "http.nonProxyHosts"
  | .ftpBypass => "ftp.nonProxyHosts"

end Source

/-- The endpoint of a kind of proxy, if it is enabled. -/
def enabledEndpoint? (r : Record) (kind : Proxy.Kind) : Option Proxy.Endpoint :=
  (r.proxy.map fun p => p.endpoint kind).filter fun e => e.enabled

/-- The value that a source gives. The display locale comes first: the format locale has a say only
where it differs. -/
def property? (r : Record) : Source → Option String
  | .text field => r.text field
  | .native field => (r.native field).bind fun t => t.toString?.toOption
  | .displayPart part => r.displayLocale.part part
  | .formatPart part =>
    if r.formatLocale.part part = r.displayLocale.part part then none else r.formatLocale.part part
  | .unicodeOrder => some r.unicodeOrder.unicodeName
  | .instructionSets => r.instructionSets.map fun sets => " ".intercalate sets
  | .proxyHost kind => (r.enabledEndpoint? kind).bind fun e => e.host
  | .proxyPort kind => (r.enabledEndpoint? kind).bind fun e => e.port
  | .httpBypass | .ftpBypass => r.proxy.bind fun p => p.bypassText?

/-- The properties by key. A source without a value has no entry. -/
def properties (r : Record) : Dictionary String :=
  .ofList (Source.all.filterMap fun s => (r.property? s).map fun v => (s.key, v))

/-- The warning that a field's native text cannot be a property. -/
def unconvertible? (r : Record) (f : NativeField) : Option Event := do
  match (← r.native f).toString? with
  | .ok _ => none
  | .error e => some (.unconvertible f.propertyKey e)

def propertyEvents (r : Record) : List Event :=
  NativeField.all.filterMap r.unconvertible?

end Record

end HostProfile
