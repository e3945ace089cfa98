/-! Readers: each takes a value off the front of a text and leaves the rest. -/
namespace HostProfile.Text

abbrev Reader (α : Type) := List Char → Option (α × List Char)

namespace Reader

/-- Takes the longest run of characters that satisfy `p`; the run may be empty. -/
def run (p : Char → Bool) (cs : List Char) : List Char × List Char :=
  (cs.takeWhile p, cs.dropWhile p)

theorem run_append (p : Char → Bool) (cs : List Char) : (run p cs).1 ++ (run p cs).2 = cs :=
  List.takeWhile_append_dropWhile

/-- The characters of a key without quotes. -/
def isBareKey (c : Char) : Bool :=
  c.isAlphanum || c == '_' || c == '-'

/-- Removes a text from the front. -/
def skip? (s : List Char) (cs : List Char) : Option (List Char) :=
  if s.isPrefixOf cs then some (cs.drop s.length) else none

/-- Items with commas between them, up to `close`. `gap` skips what may stand before and after an
item, and `mayClose` says whether the list may end here. -/
def itemsFrom {α : Type} (trailingComma : Bool) (close : Char)
    (gap : List Char → Option (List Char)) (item : Reader α) (mayClose : Bool) (cs : List Char) :
    Option (List α × List Char) :=
  match gap cs with
  | none => none
  | some [] => none
  | some (c :: r) =>
    if c == close && mayClose then some ([], r)
    else match item (c :: r) with
      | none => none
      | some (x, rest) =>
        match gap rest with
        | some (d :: r') =>
          if d == ',' && r'.length < cs.length then
            (itemsFrom trailingComma close gap item trailingComma r').map fun (xs, e) =>
              (x :: xs, e)
          else if d == close then some ([x], r')
          else none
        | _ => none
  termination_by cs.length
  decreasing_by simp_all

/-- Items with commas between them, up to `close`. A comma may follow the last item only where
`trailingComma` says so. -/
def items {α : Type} (trailingComma : Bool) (close : Char) (gap : List Char → Option (List Char))
    (item : Reader α) : Reader (List α) :=
  itemsFrom trailingComma close gap item true

def hexValue? (c : Char) : Option Nat :=
  if '0' ≤ c && c ≤ '9' then some (c.toNat - '0'.toNat)
  else if 'a' ≤ c && c ≤ 'f' then some (c.toNat - 'a'.toNat + 10)
  else if 'A' ≤ c && c ≤ 'F' then some (c.toNat - 'A'.toNat + 10)
  else none

/-- The number that digits in a base stand for; there must be one, and all must be digits. -/
def number? (base : Nat) (digits : List Char) : Option Nat :=
  if digits.isEmpty then none
  else digits.foldlM (fun n c => do
    let d ← hexValue? c
    if d < base then some (n * base + d) else none) 0

/-- The character with a hexadecimal number of `width` digits. -/
def numbered? (width : Nat) (cs : List Char) : Option (Char × List Char) :=
  let digits := cs.take width
  if digits.length < width then none
  else match number? 16 digits with
    | some n => if n.isValidChar then some (.ofNat n, cs.drop width) else none
    | none => none

/-- The escapes of one letter, with what each stands for. -/
def letterEscapes : List (Char × Char) :=
  [('b', '\x08'), ('t', '\t'), ('n', '\n'), ('f', '\x0c'), ('r', '\r'), ('"', '"'), ('\\', '\\')]

/-- The character that an escape stands for, from what follows its backslash. -/
def escaped? : Reader Char
  | [] => none
  | c :: r =>
    match letterEscapes.lookup c with
    | some d => some (d, r)
    | none => if c == 'u' then numbered? 4 r else if c == 'U' then numbered? 8 r else none

private theorem length_of_numbered? {width : Nat} {cs rest : List Char} {c : Char}
    (h : numbered? width cs = some (c, rest)) : rest.length ≤ cs.length := by
  simp only [numbered?] at h
  split at h
  · cases h
  · split at h
    · split at h
      · obtain ⟨-, rfl⟩ := Prod.mk.inj (Option.some.inj h)
        simp
      · cases h
    · cases h

theorem length_of_escaped? {cs rest : List Char} {c : Char} (h : escaped? cs = some (c, rest)) :
    rest.length < cs.length := by
  cases cs with
  | nil => cases h
  | cons d r =>
    simp only [escaped?] at h
    split at h
    · obtain ⟨-, rfl⟩ := Prod.mk.inj (Option.some.inj h)
      simp
    · split at h
      · exact Nat.lt_succ_of_le (length_of_numbered? h)
      · split at h
        · exact Nat.lt_succ_of_le (length_of_numbered? h)
        · cases h

/-- A control character other than the tab. -/
def isControl (c : Char) : Bool :=
  (c.toNat < 0x20 && c != '\t') || c.toNat == 0x7F

/-- The text up to the closing double quote, with its escapes read. -/
def quotedRest? (cs : List Char) : Option (List Char × List Char) :=
  match cs with
  | [] => none
  | '"' :: r => some ([], r)
  | '\\' :: r =>
    match _h : escaped? r with
    | none => none
    | some (c, rest) => (quotedRest? rest).map fun (s, e) => (c :: s, e)
  | c :: r =>
    if isControl c then none
    else (quotedRest? r).map fun (s, e) => (c :: s, e)
  termination_by cs.length
  decreasing_by
    · have := length_of_escaped? _h
      simp only [List.length_cons]; omega
    · simp only [List.length_cons]; omega

end Reader

end HostProfile.Text
