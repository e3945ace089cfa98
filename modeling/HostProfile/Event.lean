import HostProfile.NativeText
import HostProfile.Proxy.Basic

/-! What collecting and showing a profile reports to the log. -/
namespace HostProfile

inductive Level where
  | warn | debug
  deriving DecidableEq, Repr

def Level.name : Level → String
  | .warn => "WARN"
  | .debug => "DEBUG"

inductive Event where
  | charmapUnknown
  | kernelNameUnknown
  | releaseUnknown
  | workingDirectoryUnknown (error : String)
  | userUnknown
  | processorsUnknown (error : String)
  | collected (os arch encoding : String)
  | proxyWithoutHost (kind : Proxy.Kind)
  | unconvertible (key : String) (error : ConversionError)
  deriving DecidableEq, Repr

namespace Event

def level : Event → Level
  | .charmapUnknown | .processorsUnknown _ | .collected .. => .debug
  | _ => .warn

def message : Event → String
  | .charmapUnknown => "no codeset in locale, falling back to US-ASCII"
  | .kernelNameUnknown => "uname -s failed, using compiled target name"
  | .releaseUnknown => "failed to determine OS version"
  | .workingDirectoryUnknown _ => "failed to read working directory"
  | .userUnknown => "failed to determine user name"
  | .processorsUnknown _ => "failed to read /proc/cpuinfo"
  | .collected .. => "collected platform properties"
  | .proxyWithoutHost _ => "proxy enabled without a host, treating as disabled"
  | .unconvertible .. => "omitting unconvertible property"

/-- The event's own values, by name. -/
def fields : Event → List (String × String)
  | .workingDirectoryUnknown error | .processorsUnknown error => [("error", error)]
  | .collected os arch encoding => [("os", os), ("arch", arch), ("encoding", encoding)]
  | .proxyWithoutHost kind => [("proxy", kind.name)]
  | .unconvertible key error => [("key", key), ("error", error.message)]
  | _ => []

end Event

end HostProfile
