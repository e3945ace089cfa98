import HostProfile.Settings.Setting

/-! The tree a TOML document builds. A table remembers how it came about, because only some tables
may be opened again. -/
namespace HostProfile.Toml

/-- A table was opened by its own header, or implied by a longer header or by a dotted key. -/
inductive Origin where
  | header | implied | dotted
  deriving DecidableEq, Repr

inductive Node where
  | value (v : Setting)
  | table (origin : Origin) (entries : List (String × Node))
  | tables (earlier : List (List (String × Node))) (last : List (String × Node))

abbrev Entries := List (String × Node)

/-- Edits the table at the end of a path, opening the tables that are missing on the way; an array
of tables leads to its last one. A dotted key may not pass through a table that has a header. -/
def editAt? (dotted : Bool) (edit : Origin → Entries → Option Entries) :
    List String → Origin → Entries → Option Entries
  | [], origin, es => edit origin es
  | k :: ks, _, es =>
    match valueAt? k es with
    | none => do
      let origin : Origin := if dotted then .dotted else .implied
      let inner ← editAt? dotted edit ks origin []
      pure (setEntry k (.table origin inner) es)
    | some (.value _) => none
    | some (.table origin inner) =>
      if dotted && origin = .header then none
      else do
        let inner ← editAt? dotted edit ks origin inner
        pure (setEntry k (.table origin inner) es)
    | some (.tables earlier last) => do
      let last ← editAt? dotted edit ks .header last
      pure (setEntry k (.tables earlier last) es)

/-- Adds an entry that is not there yet. With a dotted key it goes to a table that dotted keys have
made, and to no other. -/
def assign? (path : List String) (k : String) (v : Setting) (origin : Origin) (es : Entries) :
    Option Entries :=
  editAt? true (fun origin es =>
    if decide (origin = .dotted) == path.isEmpty then none
    else if (valueAt? k es).isSome then none
    else some (setEntry k (.value v) es)) path origin es

/-- Opens a table under its header, once. -/
def openTable? (k : String) (_ : Origin) (es : Entries) : Option Entries :=
  match valueAt? k es with
  | none => some (setEntry k (.table .header []) es)
  | some (.table .implied inner) => some (setEntry k (.table .header inner) es)
  | _ => none

/-- Adds a table to an array of tables. -/
def addTable? (k : String) (_ : Origin) (es : Entries) : Option Entries :=
  match valueAt? k es with
  | none => some (setEntry k (.tables [] []) es)
  | some (.tables earlier last) => some (setEntry k (.tables (earlier ++ [last]) []) es)
  | _ => none

mutual

def Node.toSetting : Node → Setting
  | .value v => v
  | .table _ es => .table (entrySettings es)
  | .tables earlier last => .array (tableSettings earlier ++ [.table (entrySettings last)])

def entrySettings : List (String × Node) → List (String × Setting)
  | [] => []
  | (k, n) :: es => (k, n.toSetting) :: entrySettings es

def tableSettings : List (List (String × Node)) → List Setting
  | [] => []
  | es :: ts => .table (entrySettings es) :: tableSettings ts

end

end HostProfile.Toml
