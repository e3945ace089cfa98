/-! UTF-8: encoding, and decoding that keeps account of the ill-formed places. -/
namespace HostProfile.Text.Utf8

/-- The one to four bytes of a character. -/
def encodeChar (c : Char) : List UInt8 :=
  let n := c.toNat
  if n < 0x80 then [.ofNat n]
  else if n < 0x800 then [.ofNat (0xC0 + n / 0x40), .ofNat (0x80 + n % 0x40)]
  else if n < 0x10000 then
    [.ofNat (0xE0 + n / 0x1000), .ofNat (0x80 + n / 0x40 % 0x40), .ofNat (0x80 + n % 0x40)]
  else
    [.ofNat (0xF0 + n / 0x40000), .ofNat (0x80 + n / 0x1000 % 0x40),
      .ofNat (0x80 + n / 0x40 % 0x40), .ofNat (0x80 + n % 0x40)]

def encode (cs : List Char) : List UInt8 :=
  cs.flatMap encodeChar

def isTail (b : UInt8) : Bool :=
  0x80 ≤ b && b ≤ 0xBF

/-- Whether `a b` is a character of two bytes; `C0` and `C1` would only give overlong forms. -/
def isPair (a b : UInt8) : Bool :=
  0xC2 ≤ a && a ≤ 0xDF && isTail b

/-- Whether `a b` opens a character of three bytes: no overlong form and no surrogate. -/
def opensThree (a b : UInt8) : Bool :=
  (a == 0xE0 && 0xA0 ≤ b && b ≤ 0xBF) || (0xE1 ≤ a && a ≤ 0xEC && isTail b) ||
    (a == 0xED && 0x80 ≤ b && b ≤ 0x9F) || (0xEE ≤ a && a ≤ 0xEF && isTail b)

/-- Whether `a b` opens a character of four bytes: no overlong form and nothing above `10FFFF`. -/
def opensFour (a b : UInt8) : Bool :=
  (a == 0xF0 && 0x90 ≤ b && b ≤ 0xBF) || (0xF1 ≤ a && a ≤ 0xF3 && isTail b) ||
    (a == 0xF4 && 0x80 ≤ b && b ≤ 0x8F)

/-- The six payload bits of a tail byte. -/
def low (b : UInt8) : Nat :=
  b.toNat % 0x40

/-- Reads bytes as characters, with `none` for each maximal ill-formed piece: the longest start of
a well-formed character that is there, or else one byte. -/
def scan : List UInt8 → List (Option Char)
  | [] => []
  | a :: r =>
    if a < 0x80 then some (.ofNat a.toNat) :: scan r
    else match r with
      | [] => [none]
      | b :: r₁ =>
        if isPair a b then some (.ofNat (a.toNat % 0x20 * 0x40 + low b)) :: scan r₁
        else if !(opensThree a b || opensFour a b) then none :: scan (b :: r₁)
        else match r₁ with
          | [] => [none]
          | c :: r₂ =>
            if !isTail c then none :: scan (c :: r₂)
            else if opensThree a b then
              some (.ofNat (a.toNat % 0x10 * 0x1000 + low b * 0x40 + low c)) :: scan r₂
            else match r₂ with
              | [] => [none]
              | d :: r₃ =>
                if isTail d then
                  some (.ofNat (a.toNat % 0x08 * 0x40000 + low b * 0x1000 + low c * 0x40 + low d))
                    :: scan r₃
                else none :: scan (d :: r₃)

/-- The text of a well-formed byte sequence. -/
def decode? (bs : List UInt8) : Option (List Char) :=
  (scan bs).mapM id

/-- The text with one replacement character for each ill-formed piece. -/
def decodeLossy (bs : List UInt8) : List Char :=
  (scan bs).map (·.getD '\uFFFD')

/-- The number of bytes before the first ill-formed piece. -/
def validLength (bs : List UInt8) : Nat :=
  (encode (((scan bs).takeWhile Option.isSome).filterMap id)).length

end HostProfile.Text.Utf8
