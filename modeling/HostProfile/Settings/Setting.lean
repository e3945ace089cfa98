import HostProfile.Decimal.Stepwise
import HostProfile.Dictionary
import HostProfile.Json

/-! Values of settings, from whatever source, before anyone knows what they are for. -/
namespace HostProfile

/-- Sources differ in what they tell apart: some give numbers a sign and others do not, and one
gives single characters. -/
inductive Setting where
  | null
  | bool (b : Bool)
  | integer (n : Int)
  | natural (n : Nat)
  | decimal (x : Binary64)
  | letter (c : Char)
  | text (s : String)
  | array (items : List Setting)
  | table (entries : List (String × Setting))

namespace Setting

mutual

/-- Lays a value over another: tables are joined entry by entry, and anything else is replaced. -/
def merge (below : Setting) : Setting → Setting
  | .table es =>
    match below with
    | .table lower => .table (mergeEntries lower es)
    | _ => .table es
  | v => v

def mergeEntries (below : List (String × Setting)) :
    List (String × Setting) → List (String × Setting)
  | [] => below
  | (k, v) :: es =>
    let merged := match valueAt? k below with
      | some lower => merge lower v
      | none => v
    mergeEntries (setEntry k merged below) es

end

/-- The value at the end of a path of keys. -/
def nest : List String → Setting → Setting
  | [], v => v
  | k :: ks, v => .table [(k, nest ks v)]

/-- Numbers that fit neither 64-bit integer type are decimals. -/
def ofJsonInteger (n : Int) : Setting :=
  if Int64.minValue.toInt ≤ n && n < UInt64.size then .integer n
  else .decimal (Decimal.Parts.stepwise ⟨n < 0, n.natAbs, 0⟩)

mutual

/-- The entries of an object come out in the order of their keys. -/
def ofJson : Json → Setting
  | .null => .null
  | .bool b => .bool b
  | .integer n => ofJsonInteger n
  | .decimal x => .decimal x
  | .text s => .text s
  | .array xs => .array (ofJsonItems xs)
  | .object es => .table (orderEntries (ofJsonEntries es))

def ofJsonItems : List Json → List Setting
  | [] => []
  | x :: xs => ofJson x :: ofJsonItems xs

def ofJsonEntries : List (String × Json) → List (String × Setting)
  | [] => []
  | (k, x) :: es => (k, ofJson x) :: ofJsonEntries es

end

end Setting

end HostProfile
