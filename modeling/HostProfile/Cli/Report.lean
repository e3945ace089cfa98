import HostProfile.Cli.Style
import HostProfile.Record.Properties
import HostProfile.Record.Written
import HostProfile.Text.Escape

/-! The forms in which a record is shown. -/
namespace HostProfile.Cli

open Text

def joinLines (lines : List String) : String :=
  .join (lines.map fun l => l ++ "\n")

/-- One line for each property, in the order of the keys. -/
def propertyLines (r : Record) : List String :=
  r.properties.entries.map fun (k, v) => k ++ "=" ++ escape v

section Table

variable (colours : Bool)

def absentCell : String :=
  paint colours .dimmed "(absent)"

def textCell : Option String → String
  | some s => escape s
  | none => absentCell colours

/-- Native text that does not convert is shown as well as it can be, and marked. -/
def nativeCell : Option NativeText → String
  | some t =>
    match t.toString? with
    | .ok s => s
    | .error _ => t.toStringLossy ++ " " ++ paint colours .bad "(not valid text)"
  | none => absentCell colours

def localeCell (l : Locale) : String :=
  if l.tag.isEmpty then absentCell colours else l.tag

def padTo (width : Nat) (s : String) : String :=
  s ++ .ofList (List.replicate (width - s.length) ' ')

def row (label value : String) : String :=
  "  " ++ padTo 17 (label ++ ":") ++ value

def heading (s : String) : List String :=
  ["", paint colours .heading ("── " ++ s ++ " ──")]

def osLines (r : Record) : List String :=
  heading colours "OS" ++
    [row "Name" (textCell colours (r.text .osName)),
      row "Version" (textCell colours (r.text .osVersion)),
      row "Arch" (textCell colours (r.text .osArch))] ++
    (r.text .archAbi).toList.map (row "ABI") ++
    (r.text .patchLevel).toList.map (row "Patch Level") ++
    [row "Data Model" ((r.text .dataModel).getD "?" ++ "-bit"),
      row "CPU Endian" (textCell colours (r.text .cpuEndian))] ++
    r.instructionSets.toList.map fun sets => row "ISA List" s!"{sets.length} entries"

def environmentLines (r : Record) : List String :=
  heading colours "Environment" ++
    [row "User" (nativeCell colours (r.native .userName)),
      row "Home" (nativeCell colours (r.native .userHome)),
      row "Working Dir" (nativeCell colours (r.native .userDir)),
      row "Temp Dir" (nativeCell colours (r.native .tmpDir)),
      row "File Separator" (textCell colours (r.text .fileSeparator)),
      row "Path Separator" (textCell colours (r.text .pathSeparator)),
      row "Line Separator" (textCell colours (r.text .lineSeparator))]

def localeLines (r : Record) : List String :=
  heading colours "Locale" ++
    [row "Format" (localeCell colours r.formatLocale),
      row "Display" (localeCell colours r.displayLocale)]

def encodingLines (r : Record) : List String :=
  heading colours "Encoding" ++
    [row "Default" (textCell colours (r.text .encoding)),
      row "Native" (textCell colours (r.text .nativeEncoding)),
      row "Stdout" (textCell colours (r.text .stdoutEncoding)),
      row "Stderr" (textCell colours (r.text .stderrEncoding)),
      row "Unicode" r.unicodeOrder.unicodeName]

def endpointRow (kind : Proxy.Kind) (e : Proxy.Endpoint) : String :=
  let state := if e.enabled then paint colours .good "enabled" else paint colours .dimmed "disabled"
  row kind.name (state ++ " " ++ e.host.getD "-" ++ ":" ++ e.port.getD "-")

def proxyLines (p : Proxy.Settings) : List String :=
  heading colours "Proxy" ++
    Proxy.Kind.all.map (fun k => endpointRow colours k (p.endpoint k)) ++
    if p.exceptions.isEmpty then [] else [row "Exceptions" (", ".intercalate p.exceptions)]

/-- The table for people: sections with a row for each field. -/
def tableLines (r : Record) : List String :=
  [paint colours .title "═══ Platform Properties ═══"] ++ osLines colours r ++
    environmentLines colours r ++ localeLines colours r ++ encodingLines colours r ++
    match r.proxy with
    | some p => proxyLines colours p
    | none => []

end Table

/-- The forms by name. -/
inductive Format where
  | table | json | properties
  deriving DecidableEq, Repr

def Format.ofName? (name : String) : Option Format :=
  if name = "table" then some .table
  else if name = "json" then some .json
  else if name = "properties" then some .properties
  else none

def report (colours : Bool) (r : Record) : Format → String
  | .table => joinLines (tableLines colours r)
  | .json => joinLines [r.toJson.pretty]
  | .properties => joinLines (propertyLines r)

end HostProfile.Cli
