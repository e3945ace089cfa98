import HostProfile.Settings.Setting
import HostProfile.Text.Escape

/-! Why a setting does not have the value it needs, and the wording of that. -/
namespace HostProfile

open Text

/-- Where settings come from: one JSON value, or sources laid over each other. The two agree on what
is right, up to a few details, and word their errors differently. -/
inductive SettingSource where
  | json | layers
  deriving DecidableEq, Repr

/-- What a setting should have been. -/
inductive Wanted where
  | text
  | record (name : String)
  | choice (name : String)
  | anyChoice
  | nothing
  deriving DecidableEq, Repr

/-- Each error but the last two says where it is. -/
inductive DecodeError where
  | wrongType (path : List String) (found : Setting) (wanted : Wanted)
  | unknownVariant (path : List String) (name : String) (variants : List String)
  | notOneVariant
  | tooLong (length : Nat)

/-- What a value is called in a message. -/
def Setting.describe : SettingSource → Setting → String
  | .json, .null => "null"
  | .layers, .null => "unit"
  | .json, .bool b => s!"boolean `{b}`"
  | .layers, .bool b => s!"bool {b}"
  | .json, .integer n => s!"integer `{n}`"
  | .layers, .integer n => s!"signed int `{n}`"
  | .json, .natural n => s!"integer `{n}`"
  | .layers, .natural n => s!"unsigned int `{n}`"
  | .json, .decimal x => s!"floating point `{Json.decimalText x}`"
  | .layers, .decimal x => s!"float `{x.text}`"
  | _, .letter c => "string " ++ quoted (.singleton c)
  | _, .text s => "string " ++ quoted s
  | _, .array _ => "sequence"
  | _, .table _ => "map"

def Wanted.describe : SettingSource → Wanted → String
  | _, .text => "a string"
  | _, .record name => "struct " ++ name
  | .json, .choice _ => "string or map"
  | .layers, .choice name => "enum " ++ name
  | _, .anyChoice => "enum"
  | _, .nothing => "unit"

/-- Names in backticks, as a list in words. -/
def alternatives (names : List String) : String :=
  match names with
  | [a, b] => s!"`{a}` or `{b}`"
  | _ => ", ".intercalate (names.map fun a => s!"`{a}`")

namespace DecodeError

def path : DecodeError → List String
  | .wrongType path _ _ | .unknownVariant path _ _ => path
  | .notOneVariant | .tooLong _ => []

def message (source : SettingSource) : DecodeError → String
  | .wrongType _ found wanted =>
    let f := found.describe source
    let w := wanted.describe source
    match source with
    | .json => s!"invalid type: {f}, expected {w}"
    | .layers => s!"invalid type: found {f}, expected {w}"
  | .unknownVariant _ name variants =>
    let vs := alternatives variants
    match source with
    | .json => s!"unknown variant `{name}`, expected {vs}"
    | .layers => s!"unknown variant: found `{name}`, expected `{vs}`"
  | .notOneVariant => "invalid value: map, expected map with a single key"
  | .tooLong n => s!"invalid length {n}, expected fewer elements in array"

end DecodeError

end HostProfile
