import HostProfile.Json
import HostProfile.Record.Basic

/-! The JSON form of a record. -/
namespace HostProfile

def Locale.toJson (l : Locale) : Json :=
  .object [("language", .ofText? l.language), ("script", .ofText? l.script),
    ("country", .ofText? l.country), ("variant", .ofText? l.variant),
    ("codeset", .ofText? l.codeset)]

namespace Proxy

def Kind.fieldName : Kind → String
  | .http => "http"
  | .https => "https"
  | .ftp => "ftp"
  | .socks => "socks"

def Endpoint.toJson (e : Endpoint) : Json :=
  .object [("enabled", .bool e.enabled), ("host", .ofText? e.host), ("port", .ofText? e.port)]

def Settings.toJson (s : Settings) : Json :=
  .object (Kind.all.map (fun k => (k.fieldName, (s.endpoint k).toJson)) ++
    [("exceptions", .array (s.exceptions.map .text))])

end Proxy

namespace Record

def textEntry (r : Record) (f : TextField) : String × Json :=
  (f.name, .ofText? (r.text f))

def nativeEntry (r : Record) (f : NativeField) : String × Json :=
  (f.name, match r.native f with
    | some t => t.toJson
    | none => .null)

def instructionSetsJson (r : Record) : Json :=
  match r.instructionSets with
  | some sets => .array (sets.map .text)
  | none => .null

/-- Every field has an entry, except that an absent proxy has none. -/
def toJson (r : Record) : Json :=
  .object <|
    [.osName, .osVersion, .osArch, .archAbi].map r.textEntry ++
    [.tmpDir, .userDir].map r.nativeEntry ++
    [.fileSeparator, .pathSeparator, .lineSeparator].map r.textEntry ++
    [.userName, .userHome].map r.nativeEntry ++
    [("format_locale", r.formatLocale.toJson), ("display_locale", r.displayLocale.toJson)] ++
    [.encoding, .nativeEncoding, .stdoutEncoding, .stderrEncoding].map r.textEntry ++
    [("unicode_encoding", .text r.unicodeOrder.unicodeName),
      ("cpu_isalist", r.instructionSetsJson)] ++
    [.cpuEndian, .dataModel, .patchLevel].map r.textEntry ++
    r.proxy.toList.map fun p => ("proxy", p.toJson)

end Record

end HostProfile
