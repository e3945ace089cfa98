/-! UTF-16: encoding, and decoding that keeps account of the unpaired surrogates. -/
namespace HostProfile.Text.Utf16

/-- One unit, or a surrogate pair for a character above `FFFF`. -/
def encodeChar (c : Char) : List UInt16 :=
  let n := c.toNat
  if n < 0x10000 then [.ofNat n]
  else [.ofNat (0xD800 + (n - 0x10000) / 0x400), .ofNat (0xDC00 + (n - 0x10000) % 0x400)]

def encode (cs : List Char) : List UInt16 :=
  cs.flatMap encodeChar

def isHigh (u : UInt16) : Bool :=
  0xD800 ≤ u && u ≤ 0xDBFF

def isLow (u : UInt16) : Bool :=
  0xDC00 ≤ u && u ≤ 0xDFFF

/-- The character of a surrogate pair. -/
def pair (u v : UInt16) : Char :=
  .ofNat (0x10000 + u.toNat % 0x400 * 0x400 + v.toNat % 0x400)

/-- Reads units as characters, with `none` for each unpaired surrogate. -/
def scan : List UInt16 → List (Option Char)
  | [] => []
  | u :: r =>
    if isHigh u then
      match r with
      | [] => [none]
      | v :: r₁ => if isLow v then some (pair u v) :: scan r₁ else none :: scan (v :: r₁)
    else if isLow u then none :: scan r
    else some (.ofNat u.toNat) :: scan r

/-- The text of a unit sequence without unpaired surrogates. -/
def decode? (us : List UInt16) : Option (List Char) :=
  (scan us).mapM id

/-- The text with one replacement character for each unpaired surrogate. -/
def decodeLossy (us : List UInt16) : List Char :=
  (scan us).map (·.getD '\uFFFD')

end HostProfile.Text.Utf16
