import HostProfile.Decimal.Binary64

/-! The shortest decimal that reads back as a given number, and its text. -/
namespace HostProfile.Binary64

/-- The points `d * 10 ^ k` next to the number that lie in the interval rounding to it, nearest
first. The interval is closed exactly when the mantissa is even, and it is narrower below a power
of two. -/
def gridPoint? (m : Nat) (q : Int) (k : Int) : Option Nat :=
  let a := Nat.pow 2 (q - 2).toNat * Nat.pow 10 (-k).toNat
  let b := Nat.pow 10 k.toNat * Nat.pow 2 (2 - q).toNat
  let value := 4 * m * a
  let low := (4 * m - if m = Nat.pow 2 52 && -1074 < q then 1 else 2) * a
  let high := (4 * m + 2) * a
  let inside (d : Nat) : Bool :=
    if m % 2 = 0 then low ≤ d * b && d * b ≤ high else low < d * b && d * b < high
  let d := value / b
  let below := value - d * b
  let above := (d + 1) * b - value
  let (near, far) :=
    if below < above || (below == above && d % 2 == 0) then (d, d + 1) else (d + 1, d)
  if inside near then some near else if inside far then some far else none

/-- The first grid with a point, `steps` grids down from `10 ^ k`. -/
def shortestFrom (m : Nat) (q : Int) : Nat → Int → Nat × Int
  | 0, k => (m, k)
  | steps + 1, k =>
    match gridPoint? m q k with
    | some d => (d, k)
    | none => shortestFrom m q steps (k - 1)

def digitCount (n : Nat) : Nat :=
  (Nat.toDigits 10 n).length

/-- The fewest digits `d`, with their exponent `k`, such that `d * 10 ^ k` rounds to `m * 2 ^ q`,
for positive `m`. Seventeen digits always suffice. -/
def shortest (m : Nat) (q : Int) : Nat × Int :=
  let whole := m * Nat.pow 2 q.toNat / Nat.pow 2 (-q).toNat
  let top : Int :=
    if whole = 0 then -(digitCount (Nat.pow 2 (-q).toNat / m) : Int) + 1 else digitCount whole
  shortestFrom m q 20 top

/-- The text of `d * 10 ^ k` without an exponent; a whole number has no point. -/
def positional (d : Nat) (k : Int) : List Char :=
  let ds := Nat.toDigits 10 d
  if 0 ≤ k then ds ++ List.replicate k.toNat '0'
  else
    let places := (-k).toNat
    let padded := List.replicate (places + 1 - ds.length) '0' ++ ds
    padded.take (padded.length - places) ++ '.' :: padded.drop (padded.length - places)

/-- The text of `d * 10 ^ k` with one digit before the point and a signed exponent; a single digit
has no point. -/
def scientific (d : Nat) (k : Int) : List Char :=
  let ds := Nat.toDigits 10 d
  let e := k + ds.length - 1
  let places := if ds.length = 1 then [] else '.' :: ds.drop 1
  ds.take 1 ++ places ++ 'e' :: (if e < 0 then '-' else '+') :: Nat.toDigits 10 e.natAbs

def signed (negative : Bool) (cs : List Char) : String :=
  .ofList (if negative then '-' :: cs else cs)

/-- The shortest positional text. -/
def text : Binary64 → String
  | .finite negative 0 _ => signed negative ['0']
  | .finite negative m q =>
    let (d, k) := shortest m q
    signed negative (positional d k)
  | .infinite negative => signed negative ['i', 'n', 'f']
  | .undefined => "NaN"

end HostProfile.Binary64
