import HostProfile.Text.Printable

/-! Text written with escapes, in two codes. -/
namespace HostProfile.Text

/-! ### Double quotes

For messages: what cannot be seen is written as an escape. -/

/-- Lower-case hexadecimal digits without leading zeros. -/
def hex (n : Nat) : List Char :=
  Nat.toDigits 16 n

def quotedChar (c : Char) : List Char :=
  match c with
  | '"' => ['\\', '"']
  | '\\' => ['\\', '\\']
  | '\n' => ['\\', 'n']
  | '\r' => ['\\', 'r']
  | '\t' => ['\\', 't']
  | '\x00' => ['\\', '0']
  | _ => if isPrintable c then [c] else ['\\', 'u', '\x7b'] ++ hex c.toNat ++ ['\x7d']

def quoted (s : String) : String :=
  .ofList ('"' :: s.toList.flatMap quotedChar ++ ['"'])

/-! ### One line

For shown values: a backslash pair for each backslash, line end and tab. -/

/-- Writes `new` for every `old`. -/
def replace (old : Char) (new : List Char) (cs : List Char) : List Char :=
  cs.flatMap fun d => if d == old then new else [d]

/-- The backslash goes first, so that those written for the other three stay single. -/
def escape (s : String) : String :=
  .ofList <| replace '\t' ['\\', 't'] <| replace '\n' ['\\', 'n'] <|
    replace '\r' ['\\', 'r'] <| replace '\\' ['\\', '\\'] s.toList

/-- Reads escaped text back; a backslash before anything but its four partners is refused. -/
def unescapeList? : List Char → Option (List Char)
  | [] => some []
  | '\\' :: '\\' :: r => (unescapeList? r).map ('\\' :: ·)
  | '\\' :: 'r' :: r => (unescapeList? r).map ('\r' :: ·)
  | '\\' :: 'n' :: r => (unescapeList? r).map ('\n' :: ·)
  | '\\' :: 't' :: r => (unescapeList? r).map ('\t' :: ·)
  | c :: r => if c == '\\' then none else (unescapeList? r).map (c :: ·)

def unescape? (s : String) : Option String :=
  (unescapeList? s.toList).map .ofList

end HostProfile.Text
