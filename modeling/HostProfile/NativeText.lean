import HostProfile.Json
import HostProfile.Text.Escape
import HostProfile.Text.Utf16
import HostProfile.Text.Utf8

/-! Text in the width the operating system uses. It is kept as it came, and becomes a `String` only
where a reader asks for one; that fails rather than put replacement characters in. -/
namespace HostProfile

open Text

inductive NativeText where
  | narrow (bytes : List UInt8)
  | wide (units : List UInt16)
  deriving DecidableEq, Repr

inductive ConversionError where
  | invalidUtf8 (validLength : Nat)
  | invalidUtf16
  deriving DecidableEq, Repr

def ConversionError.message : ConversionError → String
  | .invalidUtf8 n => s!"native text is not valid UTF-8 (invalid sequence at byte {n})"
  | .invalidUtf16 => "native wide text is not valid UTF-16 (unpaired surrogate)"

namespace NativeText

def ofString (s : String) : NativeText :=
  .narrow (Utf8.encode s.toList)

def isEmpty : NativeText → Bool
  | .narrow bytes => bytes.isEmpty
  | .wide units => units.isEmpty

def toString? : NativeText → Except ConversionError String
  | .narrow bytes =>
    match Utf8.decode? bytes with
    | some cs => .ok (.ofList cs)
    | none => .error (.invalidUtf8 (Utf8.validLength bytes))
  | .wide units =>
    match Utf16.decode? units with
    | some cs => .ok (.ofList cs)
    | none => .error .invalidUtf16

/-- Text for people: every ill-formed piece shows as a replacement character. -/
def toStringLossy : NativeText → String
  | .narrow bytes => .ofList (Utf8.decodeLossy bytes)
  | .wide units => .ofList (Utf16.decodeLossy units)

def describe (t : NativeText) : String :=
  "NativeText(" ++ quoted t.toStringLossy ++ ")"

/-- Text that does not convert is null. -/
def toJson (t : NativeText) : Json :=
  match t.toString? with
  | .ok s => .text s
  | .error _ => .null

end NativeText

end HostProfile
