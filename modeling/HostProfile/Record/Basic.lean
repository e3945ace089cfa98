import HostProfile.Locale.Basic
import HostProfile.Machine
import HostProfile.NativeText
import HostProfile.Proxy.Basic

/-! The record of a host's properties, and the assignments that fill it. -/
namespace HostProfile

/-- The fields that hold plain text. -/
inductive TextField where
  | osName | osVersion | osArch | archAbi | fileSeparator | pathSeparator | lineSeparator
  | encoding | nativeEncoding | stdoutEncoding | stderrEncoding | cpuEndian | dataModel | patchLevel
  deriving DecidableEq, Repr

/-- The fields that hold text as the operating system gave it. -/
inductive NativeField where
  | tmpDir | userDir | userName | userHome
  deriving DecidableEq, Repr

namespace TextField

def all : List TextField :=
  [.osName, .osVersion, .osArch, .archAbi, .fileSeparator, .pathSeparator, .lineSeparator,
    .encoding, .nativeEncoding, .stdoutEncoding, .stderrEncoding, .cpuEndian, .dataModel,
    .patchLevel]

def name : TextField → String
  | .osName => "os_name"
  | .osVersion => "os_version"
  | .osArch => "os_arch"
  | .archAbi => "arch_abi"
  | .fileSeparator => "file_separator"
  | .pathSeparator => "path_separator"
  | .lineSeparator => "line_separator"
  | .encoding => "encoding"
  | .nativeEncoding => "native_encoding"
  | .stdoutEncoding => "stdout_encoding"
  | .stderrEncoding => "stderr_encoding"
  | .cpuEndian => "cpu_endian"
  | .dataModel => "data_model"
  | .patchLevel => "patch_level"

end TextField

namespace NativeField

def all : List NativeField :=
  [.tmpDir, .userDir, .userName, .userHome]

def name : NativeField → String
  | .tmpDir => "tmp_dir"
  | .userDir => "user_dir"
  | .userName => "user_name"
  | .userHome => "user_home"

end NativeField

/-- Everything known of a host. A field that could not be found out is absent. -/
structure Record where
  text : TextField → Option String := fun _ => none
  native : NativeField → Option NativeText := fun _ => none
  formatLocale : Locale := {}
  displayLocale : Locale := {}
  unicodeOrder : ByteOrder := .host
  instructionSets : Option (List String) := none
  proxy : Option Proxy.Settings := none

/-- One field of a record with a value for it. -/
inductive Assignment where
  | text (field : TextField) (value : Option String)
  | native (field : NativeField) (value : Option NativeText)
  | formatLocale (value : Locale)
  | displayLocale (value : Locale)
  | unicodeOrder (value : ByteOrder)
  | instructionSets (value : Option (List String))
  | proxy (value : Option Proxy.Settings)

namespace Record

/-- Empty text, empty native text and an empty list are stored as absent. -/
def assign (r : Record) : Assignment → Record
  | .text field value =>
    { r with text := fun f => if f = field then value.filter (!·.isEmpty) else r.text f }
  | .native field value =>
    { r with native := fun f => if f = field then value.filter (!·.isEmpty) else r.native f }
  | .formatLocale value => { r with formatLocale := value }
  | .displayLocale value => { r with displayLocale := value }
  | .unicodeOrder value => { r with unicodeOrder := value }
  | .instructionSets value => { r with instructionSets := value.filter (!·.isEmpty) }
  | .proxy value => { r with proxy := value }

theorem native_assign_native (r : Record) (field f : NativeField) (value : Option NativeText) :
    (r.assign (.native field value)).native f =
      if f = field then value.filter (!·.isEmpty) else r.native f := rfl

/-- Fills a new record; of two assignments to one field the later counts. -/
def ofAssignments (as : List Assignment) : Record :=
  as.foldl assign {}

end Record

/-! ### Building -/

/-- The fields of a record that is being filled. Only the byte order starts without a value. -/
structure Builder where
  text : TextField → Option String := fun _ => none
  native : NativeField → Option NativeText := fun _ => none
  formatLocale : Locale := {}
  displayLocale : Locale := {}
  unicodeOrder? : Option ByteOrder := none
  instructionSets : Option (List String) := none
  proxy : Option Proxy.Settings := none

namespace Builder

/-- Sets one field. Empty text, empty native text and an empty list are stored as absent. -/
def set (b : Builder) : Assignment → Builder
  | .text field value =>
    { b with text := fun f => if f = field then value.filter (!·.isEmpty) else b.text f }
  | .native field value =>
    { b with native := fun f => if f = field then value.filter (!·.isEmpty) else b.native f }
  | .formatLocale value => { b with formatLocale := value }
  | .displayLocale value => { b with displayLocale := value }
  | .unicodeOrder value => { b with unicodeOrder? := some value }
  | .instructionSets value => { b with instructionSets := value.filter (!·.isEmpty) }
  | .proxy value => { b with proxy := value }

/-- The record with these fields. A byte order that nobody has given is the machine's. -/
def build (b : Builder) : Record where
  text := b.text
  native := b.native
  formatLocale := b.formatLocale
  displayLocale := b.displayLocale
  unicodeOrder := b.unicodeOrder?.getD .host
  instructionSets := b.instructionSets
  proxy := b.proxy

theorem build_empty : ({} : Builder).build = {} := rfl

theorem build_set (b : Builder) (a : Assignment) : (b.set a).build = b.build.assign a := by
  cases a <;> rfl

/-- Setting fields one after another and building comes to the same as assigning to a record. -/
theorem build_foldl_set (as : List Assignment) :
    (as.foldl set {}).build = Record.ofAssignments as := by
  rw [Record.ofAssignments, ← build_empty]
  exact (List.foldl_hom build fun b a => (build_set b a).symm).symm

end Builder

end HostProfile
