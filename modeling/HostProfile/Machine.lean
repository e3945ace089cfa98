import HostProfile.Text.Split

/-! Operating systems and machines, and the names and versions reported for them. -/
namespace HostProfile

inductive OsFamily where
  | macOS | linux | windows | freeBsd | openBsd | netBsd | other
  deriving DecidableEq, Repr

namespace OsFamily

/-- The family of a build target's system name. -/
def ofTarget (name : String) : OsFamily :=
  if name = "macos" then .macOS
  else if name = "linux" || name = "android" then .linux
  else if name = "windows" then .windows
  else if name = "freebsd" then .freeBsd
  else if name = "openbsd" then .openBsd
  else if name = "netbsd" then .netBsd
  else .other

/-- The target of this build. -/
def hostTarget : String := "linux"

def host : OsFamily := .ofTarget hostTarget

def isWindows (os : OsFamily) : Bool :=
  os = .windows

/-- The name to report when the kernel gives none; a system outside the list goes by the name of the
build target. -/
def fallbackName : OsFamily → String
  | .macOS => "Mac OS X"
  | .linux => "Linux"
  | .windows => "Windows"
  | .freeBsd => "FreeBSD"
  | .openBsd => "OpenBSD"
  | .netBsd => "NetBSD"
  | .other => hostTarget

def fileSeparator (os : OsFamily) : String :=
  if os.isWindows then "\\" else "/"

def pathSeparator (os : OsFamily) : String :=
  if os.isWindows then ";" else ":"

def lineSeparator (os : OsFamily) : String :=
  if os.isWindows then "\r\n" else "\n"

end OsFamily

/-- The order of the bytes of a number in memory. -/
inductive ByteOrder where
  | big | little
  deriving DecidableEq, Repr

namespace ByteOrder

/-- The order of this build's machine. -/
def host : ByteOrder := .little

def name : ByteOrder → String
  | .big => "big"
  | .little => "little"

/-- The name of the fixed-width Unicode encoding of this order. -/
def unicodeName : ByteOrder → String
  | .big => "UnicodeBig"
  | .little => "UnicodeLittle"

end ByteOrder

namespace Machine

/-- The system name for what the kernel calls itself. -/
def osName (kernel : String) : String :=
  if kernel = "Darwin" then "Mac OS X" else kernel

/-- The name of a machine given as a build target's architecture. -/
def archName (arch : String) : String :=
  if arch = "x86_64" then "amd64"
  else if arch = "powerpc64" then (if ByteOrder.host = .little then "ppc64le" else "ppc64")
  else if arch = "powerpc" then "ppc"
  else arch

/-- The architecture of this build's machine. -/
def hostArch : String := "x86_64"

/-- The width of an address on this build's machine, in bits. -/
def dataModel : String := "64"

end Machine

namespace WindowsVersion

open Text

/-- The version in what the Windows command `ver` prints: the trimmed text in the first brackets that
say `Version`. Later brackets do not count. -/
def ofOutput? (output : String) : Option String := do
  let (_, rest) ← splitOnce? "[Version ".toList output.toList
  let (version, _) ← splitOnce? [']'] rest
  nonEmpty? (.ofList (trim version))

end WindowsVersion

end HostProfile
