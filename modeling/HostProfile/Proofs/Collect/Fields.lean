import HostProfile.Collect
import HostProfile.Proofs.Record.Fields

/-! What a collection finds for each field. Every field is assigned once, so that the record holds
just that. -/
namespace HostProfile

/-- The fields in the order in which a collection assigns them. -/
def Field.all : List Field :=
  [.text .osName, .text .osVersion, .text .osArch, .text .archAbi, .native .tmpDir,
    .native .userDir, .text .fileSeparator, .text .pathSeparator, .text .lineSeparator,
    .native .userName, .native .userHome, .formatLocale, .displayLocale, .text .encoding,
    .text .nativeEncoding, .text .stdoutEncoding, .text .stderrEncoding, .unicodeOrder,
    .instructionSets, .text .cpuEndian, .text .dataModel, .text .patchLevel, .proxy]

theorem Field.mem_all (f : Field) : f ∈ Field.all := by
  cases f with
  | text f => cases f <;> decide
  | native f => cases f <;> decide
  | _ => decide

theorem Field.nodup_all : Field.all.Nodup := by
  decide

namespace Collect

/-- The text found for a field. -/
def text (c : Config) (h : Host) : TextField → Option String
  | .osName => (osName c h).value
  | .osVersion => (osVersion c h).value
  | .osArch => some (osArch c)
  | .archAbi => c.overrides .archAbi
  | .fileSeparator => some OsFamily.host.fileSeparator
  | .pathSeparator => some OsFamily.host.pathSeparator
  | .lineSeparator => some OsFamily.host.lineSeparator
  | .encoding => some (encoding c h)
  | .nativeEncoding => some (nativeEncoding c h).value
  | .stdoutEncoding => streamEncoding c h .stdout
  | .stderrEncoding => streamEncoding c h .stderr
  | .cpuEndian => some ByteOrder.host.name
  | .dataModel => some Machine.dataModel
  | .patchLevel => c.overrides .patchLevel

/-- The native text found for a field. -/
def native (h : Host) : NativeField → Option NativeText
  | .tmpDir => some (tmpDir h)
  | .userDir => (userDir h).value
  | .userName => (userName h).value
  | .userHome => h.home?.map .narrow

/-- What is found for a field, as the assignment of it. -/
def found (c : Config) (h : Host) : Field → Assignment
  | .text f => .text f (text c h f)
  | .native f => .native f (native h f)
  | .formatLocale => .formatLocale (locale h .format)
  | .displayLocale => .displayLocale (locale h .display)
  | .unicodeOrder => .unicodeOrder .host
  | .instructionSets => .instructionSets (instructionSets h).value
  | .proxy => .proxy none

theorem field_found (c : Config) (h : Host) (f : Field) : (found c h f).field = f := by
  cases f <;> rfl

theorem assignments_eq (c : Config) (h : Host) : assignments c h = Field.all.map (found c h) := rfl

end Collect

open Collect

theorem content_collect (c : Config) (h : Host) (f : Field) :
    (collect c h).content f = (found c h f).stored := by
  have hf : (assignments c h).map Assignment.field = Field.all := by
    rw [assignments_eq, List.map_map]
    exact (List.map_congr_left fun f _ => field_found c h f).trans (List.map_id _)
  have hm : found c h f ∈ assignments c h := by
    rw [assignments_eq]
    exact List.mem_map_of_mem f.mem_all
  have hc := Record.content_ofAssignments (hf ▸ Field.nodup_all) hm
  rwa [field_found] at hc

theorem text_collect (c : Config) (h : Host) (f : TextField) :
    (collect c h).text f = (text c h f).filter (!·.isEmpty) :=
  (Assignment.text.inj (content_collect c h (.text f))).2

theorem native_collect (c : Config) (h : Host) (f : NativeField) :
    (collect c h).native f = (native h f).filter (!·.isEmpty) :=
  (Assignment.native.inj (content_collect c h (.native f))).2

theorem native_collect_of_narrow (c : Config) {h : Host} {f : NativeField} {bytes : List UInt8}
    (hne : bytes ≠ []) (hf : native h f = some (.narrow bytes)) :
    (collect c h).native f = some (.narrow bytes) := by
  rw [native_collect, hf, Option.filter_some]
  simp [NativeText.isEmpty, hne]

theorem formatLocale_collect (c : Config) (h : Host) :
    (collect c h).formatLocale = locale h .format :=
  Assignment.formatLocale.inj (content_collect c h .formatLocale)

theorem displayLocale_collect (c : Config) (h : Host) :
    (collect c h).displayLocale = locale h .display :=
  Assignment.displayLocale.inj (content_collect c h .displayLocale)

end HostProfile
