import HostProfile.Decimal.Reading
import HostProfile.Text.Split
import HostProfile.Toml.DateTime

/-! The TOML values without parts: strings, numbers, truth values, dates and times. -/
namespace HostProfile.Toml

open Text

/-- White space that does not end a line. -/
def isSpace (c : Char) : Bool :=
  c == ' ' || c == '\t'

def skipSpaces (cs : List Char) : List Char :=
  cs.dropWhile isSpace

/-- The text up to the closing single quote. -/
def literalRest? (cs : List Char) : Option (List Char × List Char) :=
  match Reader.run (fun c => !Reader.isControl c && c != '\'') cs with
  | (s, '\'' :: r) => some (s, r)
  | _ => none

/-- A line end just after the opening quotes does not belong to the text. -/
def dropLineEnd : List Char → List Char
  | '\n' :: r => r
  | '\r' :: '\n' :: r => r
  | r => r

/-- What is left at three closing quotes: up to two more of them belong to the text. -/
def closing (quote : Char) (r : List Char) : List Char × List Char :=
  let extra := min 2 (r.takeWhile (· == quote)).length
  (List.replicate extra quote, r.drop extra)

/-- The text of several lines up to three single quotes. -/
def literalLinesRest? : List Char → Option (List Char × List Char)
  | [] => none
  | '\'' :: '\'' :: '\'' :: r => some (closing '\'' r)
  | '\r' :: '\n' :: r => (literalLinesRest? r).map fun (s, e) => ('\n' :: s, e)
  | c :: r =>
    if Reader.isControl c && c != '\n' then none
    else (literalLinesRest? r).map fun (s, e) => (c :: s, e)

def skipLineEnds : List Char → List Char
  | '\n' :: r => skipLineEnds r
  | '\r' :: '\n' :: r => skipLineEnds r
  | c :: r => if isSpace c then skipLineEnds r else c :: r
  | [] => []

private theorem length_skipLineEnds (cs : List Char) :
    (skipLineEnds cs).length ≤ cs.length := by
  fun_induction skipLineEnds cs <;> simp <;> omega

/-- What follows a backslash at the end of a line, from the next visible character on. -/
def continuation? (cs : List Char) : Option (List Char) :=
  match skipSpaces cs with
  | '\n' :: r => some (skipLineEnds r)
  | '\r' :: '\n' :: r => some (skipLineEnds r)
  | _ => none

private theorem length_skipSpaces (cs : List Char) : (skipSpaces cs).length ≤ cs.length :=
  (List.dropWhile_suffix _).length_le

private theorem length_of_continuation? {cs rest : List Char} (h : continuation? cs = some rest) :
    rest.length < cs.length := by
  have hs := length_skipSpaces cs
  unfold continuation? at h
  split at h
  · rename_i r hr
    have := length_skipLineEnds r
    simp only [hr, List.length_cons] at hs
    cases h
    omega
  · rename_i r hr
    have := length_skipLineEnds r
    simp only [hr, List.length_cons] at hs
    cases h
    omega
  · cases h

/-- The text of several lines up to three double quotes, with its escapes read. -/
def quotedLinesRest? (cs : List Char) : Option (List Char × List Char) :=
  match cs with
  | [] => none
  | '"' :: '"' :: '"' :: r => some (closing '"' r)
  | '\r' :: '\n' :: r => (quotedLinesRest? r).map fun (s, e) => ('\n' :: s, e)
  | '\\' :: r =>
    match _h : continuation? r with
    | some rest => quotedLinesRest? rest
    | none =>
      match _h : Reader.escaped? r with
      | none => none
      | some (c, rest) => (quotedLinesRest? rest).map fun (s, e) => (c :: s, e)
  | c :: r =>
    if Reader.isControl c && c != '\n' then none
    else (quotedLinesRest? r).map fun (s, e) => (c :: s, e)
  termination_by cs.length
  decreasing_by
    · simp only [List.length_cons]; omega
    · have := length_of_continuation? _h
      simp only [List.length_cons]; omega
    · have := Reader.length_of_escaped? _h
      simp only [List.length_cons]; omega
    · simp only [List.length_cons]; omega

/-- Digits without the single underscores that may stand between them. -/
def ungrouped? (p : Char → Bool) (cs : List Char) : Option (List Char) :=
  let groups := splitAll (· == '_') cs
  if groups.all fun g => !g.isEmpty && g.all p then some groups.flatten else none

def hasLeadingZero (digits : List Char) : Bool :=
  digits.head? == some '0' && 1 < digits.length

/-- Integers have 64 bits. -/
def fits (n : Int) : Option Setting :=
  if Int64.minValue.toInt ≤ n && n ≤ Int64.maxValue.toInt then some (.integer n) else none

def natural? (base : Nat) (cs : List Char) : Option Setting := do
  let digits ← ungrouped? Char.isAlphanum cs
  fits (← Reader.number? base digits)

/-- The part of a decimal from its exponent on. -/
def exponentDigits? : List Char → Option (List Char)
  | [] => some []
  | c :: r =>
    if c == 'e' || c == 'E' then
      match r with
      | '+' :: r => (ungrouped? Char.isDigit r).map fun ds => 'e' :: ds
      | '-' :: r => (ungrouped? Char.isDigit r).map fun ds => 'e' :: '-' :: ds
      | r => (ungrouped? Char.isDigit r).map fun ds => 'e' :: ds
    else none

/-- A decimal without its sign: digits, and then a point or an exponent or both. A decimal above the
largest finite number is refused. -/
def decimal? (negative : Bool) (whole : List Char) (cs : List Char) : Option Setting := do
  let (places, r) ← match cs with
    | '.' :: r =>
      let (ds, r) := Reader.run (fun c => c.isDigit || c == '_') r
      (ungrouped? Char.isDigit ds).map fun ds => ('.' :: ds, r)
    | r => some ([], r)
  let exponent ← exponentDigits? r
  let x ← Binary64.ofText? ((if negative then ['-'] else []) ++ whole ++ places ++ exponent)
  if x = .infinite false then none else some (.decimal x)

/-- A number in base ten without its sign. -/
def unsigned? (negative : Bool) (cs : List Char) : Option Setting :=
  if cs = "inf".toList then some (.decimal (.infinite negative))
  else if cs = "nan".toList then some (.decimal .undefined)
  else do
    let (ds, r) := Reader.run (fun c => c.isDigit || c == '_') cs
    let whole ← ungrouped? Char.isDigit ds
    if hasLeadingZero whole then none
    else if r.isEmpty then
      let n ← Reader.number? 10 whole
      fits (if negative then -n else n)
    else decimal? negative whole r

/-- The value of a word without quotes. -/
def word? : List Char → Option Setting
  | ['t', 'r', 'u', 'e'] => some (.bool true)
  | ['f', 'a', 'l', 's', 'e'] => some (.bool false)
  | '0' :: 'x' :: r => natural? 16 r
  | '0' :: 'o' :: r => natural? 8 r
  | '0' :: 'b' :: r => natural? 2 r
  | '+' :: r => unsigned? false r
  | '-' :: r => unsigned? true r
  | cs => unsigned? false cs

def isWordChar (c : Char) : Bool :=
  c.isAlphanum || c == '_' || c == '.' || c == '+' || c == '-'

def textValue (r : Option (List Char × List Char)) : Option (Setting × List Char) :=
  r.map fun (s, e) => (.text (.ofList s), e)

def scalar? : Reader Setting
  | '"' :: '"' :: '"' :: r => textValue (quotedLinesRest? (dropLineEnd r))
  | '"' :: r => textValue (Reader.quotedRest? r)
  | '\'' :: '\'' :: '\'' :: r => textValue (literalLinesRest? (dropLineEnd r))
  | '\'' :: r => textValue (literalRest? r)
  | cs =>
    match dateTime? cs with
    | some found => some found
    | none =>
      let (w, r) := Reader.run isWordChar cs
      (word? w).map fun v => (v, r)

end HostProfile.Toml
