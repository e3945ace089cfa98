import HostProfile.Decimal.Reading
import HostProfile.Settings.Setting
import HostProfile.Text.Basic
import HostProfile.Text.Split
import HostProfile.Text.Utf8

/-! Settings from environment variables. A variable's name is a path of keys, and its value is read
as a number, a truth value, a list or a table where it has the form of one. -/
namespace HostProfile.Environment

open Text

/-- What the names of settings start with, in any case. -/
def marker : String := "PLATPROPS_"

/-- Writes a point for each pair of underscores, from left to right. -/
def pointNames : List Char → List Char
  | '_' :: '_' :: r => '.' :: pointNames r
  | c :: r => c :: pointNames r
  | [] => []

/-- The keys that a variable's name leads through. -/
def path? (name : String) : Option (List String) :=
  let cs := trim name.toList
  let start := cs.take marker.length
  if equalsIgnoringCase (.ofList start) marker then
    let keys := splitAll (· == '.') (pointNames (trim (cs.drop marker.length)))
    if keys.any List.isEmpty then none
    else some (keys.map fun k => lower (.ofList k))
  else none

def skipBlanks (cs : List Char) : List Char :=
  cs.dropWhile isAsciiBlank

/-- Characters that end a value without quotes. -/
def isMark (c : Char) : Bool :=
  c == ',' || c == '\x7b' || c == '\x7d' || c == '[' || c == ']'

/-- Text without quotes: a decimal if it has a point, or else a natural number, an integer, or
itself. -/
def plain (cs : List Char) : Setting :=
  let decimal? := if cs.contains '.' then Binary64.ofText? cs else none
  match decimal? with
  | some x => .decimal x
  | none =>
    match Decimal.integer? cs with
    | some n =>
      if 0 ≤ n && n < UInt64.size && cs.head? != some '-' then .natural n.toNat
      else if Int64.minValue.toInt ≤ n && n ≤ Int64.maxValue.toInt then .integer n
      else .text (.ofList cs)
    | none => .text (.ofList cs)

/-- Why a text is not read as a value. -/
inductive Unread where
  /-- It has not the form of one, and stands for itself. -/
  | noForm
  /-- A quoted text is cut inside a character, which ends all reading. -/
  | torn
  deriving DecidableEq, Repr

/-- Takes a value off the front of a text and leaves the rest. -/
abbrev ValueReader (α : Type) := List Char → Except Unread (α × List Char)

/-- The text up to the closing double quote, its escapes as they stand. -/
def enclosed? : List Char → Option (List Char × List Char)
  | [] => none
  | '"' :: r => some ([], r)
  | '\\' :: c :: r => (enclosed? r).map fun (s, e) => ('\\' :: c :: s, e)
  | c :: r => (enclosed? r).map fun (s, e) => (c :: s, e)

/-- Reads the escapes of a text. What stands before the first of them is cut to as many bytes as it
has characters. -/
def unquoted (cs : List Char) : Except Unread (List Char) :=
  let (head, tail) := Reader.run (· != '\\') cs
  if head.any Reader.isControl then .error .noForm
  else if tail.isEmpty then .ok head
  else
    match Utf8.decode? ((Utf8.encode head).take head.length) with
    | none => .error .torn
    | some kept =>
      match Reader.quotedRest? (tail ++ ['"']) with
      | some (s, []) => .ok (kept ++ s)
      | _ => .error .noForm

/-- Reads quoted text after its opening quote. -/
def quotedText : ValueReader String := fun cs =>
  match enclosed? cs with
  | some (s, r) => (unquoted s).map fun s => (.ofList s, r)
  | none => .error .noForm

def key : ValueReader String := fun cs => do
  let (k, r) ← match skipBlanks cs with
    | '"' :: r => quotedText r
    | cs =>
      let (k, r) := Reader.run Reader.isBareKey cs
      if k.isEmpty then .error .noForm else .ok (.ofList k, r)
  match skipBlanks r with
  | '=' :: r => .ok (k, r)
  | _ => .error .noForm

/-- Reads a value without parts. Text without quotes may be empty. -/
def scalar : ValueReader Setting
  | 't' :: 'r' :: 'u' :: 'e' :: r => .ok (.bool true, r)
  | 'f' :: 'a' :: 'l' :: 's' :: 'e' :: r => .ok (.bool false, r)
  | '"' :: r => (quotedText r).map fun (s, r) => (.text s, r)
  | '\'' :: c :: '\'' :: r => .ok (.letter c, r)
  | '\'' :: _ => .error .noForm
  | cs =>
    let (s, r) := Reader.run (fun c => !isMark c) cs
    .ok (plain (trim s), r)

/-- Reads an entry of a table, whose value `item` reads. -/
def pair (item : ValueReader Setting) : ValueReader (String × Setting) := fun cs => do
  let (k, r) ← key cs
  let (v, r) ← item r
  pure ((k, v), r)

/-- Reads items with commas between them, up to `close`. A comma may follow the last one. -/
def items {α : Type} (close : Char) (item : ValueReader α) (cs : List Char) :
    Except Unread (List α × List Char) :=
  match cs with
  | [] => .error .noForm
  | c :: r =>
    if c == close then .ok ([], r)
    else match item (c :: r) with
      | .error e => .error e
      | .ok (_, []) => .error .noForm
      | .ok (x, d :: rest) =>
        if d == ',' && rest.length < (c :: r).length then
          (items close item rest).map fun (xs, e) => (x :: xs, e)
        else if d == close then .ok ([x], rest)
        else .error .noForm
  termination_by cs.length
  decreasing_by simp_all

/-- Reads a value with at most `depth` lists and tables around each other, and the blanks on both
sides of it. -/
def value (depth : Nat) : ValueReader Setting := fun cs => do
  let (v, r) ← match depth, skipBlanks cs with
    | depth + 1, '[' :: r => (items ']' (value depth) r).map fun (xs, r) => (.array xs, r)
    | depth + 1, '\x7b' :: r =>
      (items '\x7d' (pair (value depth)) r).map fun (es, r) => (.table (orderEntries es), r)
    | _, cs => scalar cs
  pure (v, skipBlanks r)

/-- Text that is not a value to its end stands for itself. -/
def setting (s : String) : Setting :=
  match value s.length s.toList with
  | .ok (v, []) => v
  | _ => .text s

/-- Whether a text cannot be read at all. -/
def isTorn (s : String) : Bool :=
  match value s.length s.toList with
  | .error .torn => true
  | _ => false

/-- Whether some variable that holds a setting cannot be read. -/
def hasTorn (env : List (String × String)) : Bool :=
  env.any fun (name, s) => (path? name).isSome && isTorn s

/-- The table that variables make, each laid over those that come before it in the environment. -/
def table (env : List (String × String)) : List (String × Setting) :=
  env.foldl (fun acc (name, s) =>
    match path? name with
    | some (k :: ks) => Setting.mergeEntries acc [(k, Setting.nest ks (setting s))]
    | _ => acc) []

end HostProfile.Environment
