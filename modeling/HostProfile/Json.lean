import HostProfile.Decimal.Shortest

/-! JSON values and their text. -/
namespace HostProfile

inductive Json where
  | null
  | bool (b : Bool)
  | integer (n : Int)
  | decimal (x : Binary64)
  | text (s : String)
  | array (items : List Json)
  | object (entries : List (String × Json))

namespace Json

def ofText? (s : Option String) : Json :=
  match s with
  | some s => .text s
  | none => .null

def hexDigit (n : Nat) : Char :=
  (Nat.digitChar (n % 16))

def escapedChar (c : Char) : List Char :=
  match c with
  | '"' => ['\\', '"']
  | '\\' => ['\\', '\\']
  | '\x08' => ['\\', 'b']
  | '\x0c' => ['\\', 'f']
  | '\n' => ['\\', 'n']
  | '\r' => ['\\', 'r']
  | '\t' => ['\\', 't']
  | _ =>
    if c.toNat < 0x20 then ['\\', 'u', '0', '0', hexDigit (c.toNat / 16), hexDigit c.toNat]
    else [c]

def quote (s : String) : String :=
  .ofList ('"' :: s.toList.flatMap escapedChar ++ ['"'])

/-- The text of a number. From `10 ^ -5` up to `10 ^ 16` it has a point and no exponent, and outside
of that an exponent. -/
def decimalText : Binary64 → String
  | .finite negative 0 _ => Binary64.signed negative ['0', '.', '0']
  | .finite negative m q =>
    let (d, k) := Binary64.shortest m q
    let point := k + Binary64.digitCount d
    Binary64.signed negative <|
      if point ≤ -5 || 16 < point then Binary64.scientific d k
      else if 0 ≤ k then Binary64.positional d k ++ ['.', '0']
      else Binary64.positional d k
  | x => x.text

/-- The text of a value that has no parts. -/
def atom : Json → String
  | .null => "null"
  | .bool b => if b then "true" else "false"
  | .integer n => toString n
  | .decimal x => match x with
    | .finite .. => decimalText x
    | _ => "null"
  | .text s => quote s
  | .array _ => "[]"
  | .object _ => "\x7b\x7d"

def indent (depth : Nat) : String :=
  "\n" ++ .ofList (List.replicate (2 * depth) ' ')

mutual

/-- The text that puts each item and each entry on a line of its own. -/
def prettyAt (depth : Nat) : Json → String
  | .array (x :: xs) =>
    "[" ++ indent (depth + 1) ++ prettyAt (depth + 1) x ++ prettyItems (depth + 1) xs ++
      indent depth ++ "]"
  | .object ((k, x) :: es) =>
    "\x7b" ++ indent (depth + 1) ++ quote k ++ ": " ++ prettyAt (depth + 1) x ++
      prettyEntries (depth + 1) es ++ indent depth ++ "\x7d"
  | v => atom v

def prettyItems (depth : Nat) : List Json → String
  | [] => ""
  | x :: xs => "," ++ indent depth ++ prettyAt depth x ++ prettyItems depth xs

def prettyEntries (depth : Nat) : List (String × Json) → String
  | [] => ""
  | (k, x) :: es =>
    "," ++ indent depth ++ quote k ++ ": " ++ prettyAt depth x ++ prettyEntries depth es

end

def pretty (v : Json) : String :=
  prettyAt 0 v

mutual

/-- The text without any space between tokens. -/
def compact : Json → String
  | .array (x :: xs) => "[" ++ compact x ++ compactItems xs ++ "]"
  | .object ((k, x) :: es) =>
    "\x7b" ++ quote k ++ ":" ++ compact x ++ compactEntries es ++ "\x7d"
  | v => atom v

def compactItems : List Json → String
  | [] => ""
  | x :: xs => "," ++ compact x ++ compactItems xs

def compactEntries : List (String × Json) → String
  | [] => ""
  | (k, x) :: es => "," ++ quote k ++ ":" ++ compact x ++ compactEntries es

end

end Json

end HostProfile
