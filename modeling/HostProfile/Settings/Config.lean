import HostProfile.Json
import HostProfile.Proxy.Policy
import HostProfile.Record.Basic

/-! The configuration and its written form. -/
namespace HostProfile

/-- Which encoding counts as the default: UTF-8, or the one of the host's locale. -/
inductive DefaultEncoding where
  | utf8 | native
  deriving DecidableEq, Repr

/-- The record's fields that a configuration can replace. -/
inductive Override where
  | osName | osVersion | osArch | archAbi | patchLevel | nativeEncoding
  deriving DecidableEq, Repr

def Override.all : List Override :=
  [.osName, .osVersion, .osArch, .archAbi, .patchLevel, .nativeEncoding]

def Override.field : Override → TextField
  | .osName => .osName
  | .osVersion => .osVersion
  | .osArch => .osArch
  | .archAbi => .archAbi
  | .patchLevel => .patchLevel
  | .nativeEncoding => .nativeEncoding

/-- The key of an override is the name of its field. -/
def Override.key (o : Override) : String :=
  o.field.name

structure Config where
  logLevel : String := "warn"
  defaultEncoding : DefaultEncoding := .utf8
  partialProxy : Proxy.Policy := .disable
  overrides : Override → Option String := fun _ => none

/-- A setting that takes one of a few names. -/
structure Choice (α : Type) where
  name : String
  variants : List (String × α)

def DefaultEncoding.choice : Choice DefaultEncoding :=
  ⟨"DefaultEncoding", [("utf8", .utf8), ("native", .native)]⟩

def Proxy.Policy.choice : Choice Proxy.Policy :=
  ⟨"PartialProxyPolicy", [("disable", .disable), ("pass-through", .passThrough)]⟩

/-- The name of a value, by the first variant that has it. -/
def Choice.nameOf {α : Type} [DecidableEq α] (c : Choice α) (a : α) : String :=
  ((c.variants.find? fun v => v.2 = a).map Prod.fst).getD ""

/-- The written form of a configuration. -/
def Config.toJson (c : Config) : Json :=
  .object [("log_level", .text c.logLevel),
    ("default_encoding", .text (DefaultEncoding.choice.nameOf c.defaultEncoding)),
    ("partial_proxy", .text (Proxy.Policy.choice.nameOf c.partialProxy)),
    ("overrides", .object (Override.all.map fun o => (o.key, .ofText? (c.overrides o))))]

end HostProfile
