/-! Characters as such: white space, which trimming removes and which separates words, and the case of
the ASCII letters. -/
namespace HostProfile.Text

/-- Unicode's White_Space property. -/
def isBlank (c : Char) : Bool :=
  let n := c.toNat
  (0x09 ≤ n && n ≤ 0x0D) || n == 0x20 || n == 0x85 || n == 0xA0 || n == 0x1680 ||
    (0x2000 ≤ n && n ≤ 0x200A) || n == 0x2028 || n == 0x2029 || n == 0x202F || n == 0x205F ||
    n == 0x3000

/-- The blanks of the ASCII range that HTML and URL readers skip; the line tab is not one. -/
def isAsciiBlank (c : Char) : Bool :=
  c == ' ' || c == '\t' || c == '\n' || c == '\x0c' || c == '\r'

def trimStart (cs : List Char) : List Char :=
  cs.dropWhile isBlank

def trimEnd (cs : List Char) : List Char :=
  (cs.reverse.dropWhile isBlank).reverse

def trim (cs : List Char) : List Char :=
  trimEnd (trimStart cs)

/-- Empty text counts as absent. -/
def nonEmpty? (s : String) : Option String :=
  if s.isEmpty then none else some s

/-! Every character but the ASCII letters is its own upper and lower case. -/

def lower (s : String) : String :=
  .ofList (s.toList.map Char.toLower)

def upper (s : String) : String :=
  .ofList (s.toList.map Char.toUpper)

def equalsIgnoringCase (s t : String) : Bool :=
  lower s == lower t

end HostProfile.Text
