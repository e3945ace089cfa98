import HostProfile.Decimal.Binary64
import HostProfile.Text.Reader

/-! Reading numbers from their decimal text. -/
namespace HostProfile

open Text

namespace Decimal

/-- A sign, if there is one, and the rest. -/
def sign : List Char → Bool × List Char
  | '-' :: r => (true, r)
  | '+' :: r => (false, r)
  | r => (false, r)

/-- A whole number with an optional sign. -/
def integer? (cs : List Char) : Option Int := do
  let (negative, digits) := sign cs
  let n ← Reader.number? 10 digits
  pure (if negative then -n else n)

def exponent? : List Char → Option Int
  | [] => some 0
  | c :: r => if c == 'e' || c == 'E' then integer? r else none

/-- A decimal is its sign and `digits * 10 ^ exponent`. -/
structure Parts where
  negative : Bool
  digits : Nat
  exponent : Int
  deriving DecidableEq, Repr

/-- A decimal with an optional sign, point and exponent. Digits may be missing on one side of the
point but not on both. -/
def parts? (cs : List Char) : Option Parts := do
  let (negative, cs) := sign cs
  let (whole, cs) := Reader.run Char.isDigit cs
  let (places, cs) := match cs with
    | '.' :: r => Reader.run Char.isDigit r
    | _ => ([], cs)
  let digits ← Reader.number? 10 (whole ++ places)
  let exponent ← exponent? cs
  pure ⟨negative, digits, exponent - places.length⟩

/-- The number nearest to a decimal. -/
def Parts.nearest (p : Parts) : Binary64 :=
  .ofDecimal p.negative p.digits p.exponent

end Decimal

def Binary64.ofText? (cs : List Char) : Option Binary64 :=
  (Decimal.parts? cs).map Decimal.Parts.nearest

end HostProfile
