import HostProfile.Text.Utf8

/-! A host, as far as its profile depends on it: what the operating system and its tools answer. -/
namespace HostProfile

/-- The tools that are asked. -/
inductive Command where
  | kernelName | kernelRelease | userName | charmap
  deriving DecidableEq, Repr

/-- The program and its arguments. -/
def Command.words : Command → List String
  | .kernelName => ["uname", "-s"]
  | .kernelRelease => ["uname", "-r"]
  | .userName => ["id", "-un"]
  | .charmap => ["locale", "charmap"]

/-- The streams that output goes to. -/
inductive Stream where
  | stdout | stderr
  deriving DecidableEq, Repr

/-- What is at a path: nothing, a text file, a file that is not text, or something else. -/
inductive PathState where
  | missing
  | text (s : String)
  | unreadable
  | notAFile
  deriving DecidableEq, Repr

/-- A command that fails has no output. Paths and the values of variables are bytes. The account is the
one that the user database has for the user, if it has one. -/
structure Host where
  environment : List (String × List UInt8) := []
  accountHome? : Option (List UInt8) := none
  output? : Command → Option (List UInt8) := fun _ => none
  workingDirectory : Except String (List UInt8) := .ok [0x2F]
  isTerminal : Stream → Bool := fun _ => false
  cpuinfo : Except String String := .ok ""
  path : List UInt8 → PathState := fun _ => .missing

namespace Host

def value? (h : Host) (name : String) : Option (List UInt8) :=
  (h.environment.find? fun e => e.1 == name).map Prod.snd

/-- The value of a variable; one that is not UTF-8 counts as unset. -/
def textValue? (h : Host) (name : String) : Option String :=
  ((h.value? name).bind Text.Utf8.decode?).map .ofList

/-- What a command prints, as far as it is text. -/
def outputText? (h : Host) (c : Command) : Option String :=
  (h.output? c).map fun bytes => .ofList (Text.Utf8.decodeLossy bytes)

/-- The user's home directory: the environment's, or else the account's. -/
def home? (h : Host) : Option (List UInt8) :=
  (h.value? "HOME").filter (!·.isEmpty) <|> h.accountHome?.filter (!·.isEmpty)

end Host

end HostProfile
