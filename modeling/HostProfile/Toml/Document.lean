import HostProfile.Toml.Scalar
import HostProfile.Toml.Tree

/-! Reading TOML documents. The reader says whether a text is a document, not what is wrong with
it. -/
namespace HostProfile.Toml

open Text

/-- Skips spaces, line ends and comments; a comment holds no control characters. -/
def gap? : (inComment : Bool) → List Char → Option (List Char)
  | _, '\n' :: r => gap? false r
  | _, '\r' :: '\n' :: r => gap? false r
  | true, c :: r => if Reader.isControl c then none else gap? true r
  | false, '#' :: r => gap? true r
  | false, c :: r => if isSpace c then gap? false r else some (c :: r)
  | _, [] => some []

/-- Skips what may follow a statement on its line, and the line end. -/
def lineEnd? (cs : List Char) : Option (List Char) :=
  let cs := match skipSpaces cs with
    | '#' :: r => r.dropWhile fun c => !Reader.isControl c
    | r => r
  match cs with
  | [] => some []
  | '\n' :: r => some r
  | '\r' :: '\n' :: r => some r
  | _ => none

def simpleKey? : Reader String
  | '"' :: r => (Reader.quotedRest? r).map fun (k, r) => (.ofList k, r)
  | '\'' :: r => (literalRest? r).map fun (k, r) => (.ofList k, r)
  | cs =>
    let (k, r) := Reader.run Reader.isBareKey cs
    if k.isEmpty then none else some (.ofList k, r)

/-- Reads keys with points between them, with spaces around each. -/
def dottedKey? (cs : List Char) : Option (List String × List Char) :=
  match simpleKey? (skipSpaces cs) with
  | none => none
  | some (k, rest) =>
    match skipSpaces rest with
    | '.' :: r =>
      if r.length < cs.length then (dottedKey? r).map fun (ks, r) => (k :: ks, r) else none
    | r => some ([k], r)
  termination_by cs.length

/-- The most keys that may stand in a row, and one more than the arrays and inline tables that may
stand around each other. -/
def depthLimit : Nat := 80

/-- Reads the path that leads to a key, and the key. -/
def path? : Reader (List String × String) := fun cs => do
  let (ks, r) ← dottedKey? cs
  if depthLimit ≤ ks.length then none
  else do
    let k ← ks.getLast?
    pure ((ks.dropLast, k), r)

/-- Reads a key, an equals sign, and with `item` a value. -/
def pair? (item : Reader Setting) : Reader ((List String × String) × Setting) := fun cs => do
  let (key, r) ← path? cs
  match r with
  | '=' :: r =>
    let (v, r) ← item (skipSpaces r)
    pure ((key, v), r)
  | _ => none

/-- The table of an inline table's entries. -/
def inlineTable? (pairs : List ((List String × String) × Setting)) : Option Setting := do
  let es ← pairs.foldlM (fun es ((path, k), v) => assign? path k v .header es) []
  pure (.table (entrySettings es))

/-- Reads a value with at most `depth` arrays and inline tables around each other. -/
def value? (depth : Nat) : Reader Setting := fun cs =>
  match depth, cs with
  | depth + 1, '[' :: r =>
    (Reader.items true ']' (gap? false) (value? depth) r).map fun (xs, r) => (.array xs, r)
  | depth + 1, '\x7b' :: r => do
    let (pairs, r) ← Reader.items false '\x7d' (some ∘ skipSpaces) (pair? (value? depth)) r
    let v ← inlineTable? pairs
    pure (v, r)
  | _, cs => scalar? cs

/-- The tree so far, and the path of the header that the next entries belong to. -/
structure State where
  header : List String := []
  entries : Entries := []

namespace State

def assign? (s : State) (path : List String) (k : String) (v : Setting) : Option State := do
  let entries ← editAt? false (Toml.assign? path k v) s.header .header s.entries
  pure { s with entries }

def open? (s : State) (edit : String → Origin → Entries → Option Entries) (path : List String)
    (k : String) : Option State := do
  let entries ← editAt? false (edit k) path .header s.entries
  pure { header := path ++ [k], entries }

/-- Reads one line, or one statement with the lines that its value takes up. -/
def step? (s : State) (cs : List Char) : Option (State × List Char) := do
  let (s, r) ← match skipSpaces cs with
    | '[' :: '[' :: r => do
      let ((path, k), r) ← path? r
      let r ← Reader.skip? [']', ']'] r
      pure (← s.open? addTable? path k, r)
    | '[' :: r => do
      let ((path, k), r) ← path? r
      let r ← Reader.skip? [']'] r
      pure (← s.open? openTable? path k, r)
    | [] => some (s, [])
    | c :: r =>
      if c == '#' || c == '\n' || c == '\r' then some (s, c :: r)
      else do
        let (((path, k), v), r) ← pair? (value? (depthLimit - 1)) (c :: r)
        pure (← s.assign? path k v, r)
  let r ← lineEnd? r
  pure (s, r)

def readAll? (s : State) (cs : List Char) : Option State :=
  if cs.isEmpty then some s
  else match s.step? cs with
    | none => none
    | some (s', r) => if r.length < cs.length then readAll? s' r else none
  termination_by cs.length

end State

/-- The top table of a document. A byte order mark at the start is skipped. -/
def document? (s : String) : Option (List (String × Setting)) :=
  let cs := match s.toList with
    | '\uFEFF' :: r => r
    | cs => cs
  (State.readAll? {} cs).map fun s => entrySettings s.entries

end HostProfile.Toml
