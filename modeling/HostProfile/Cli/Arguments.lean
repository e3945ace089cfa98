/-! The command line: what its words ask for. -/
namespace HostProfile.Cli

/-- The options that every command takes. The log is not part of a command's output. -/
structure Options where
  config : Option String := none
  logLevel : Option String := none
  logJson : Bool := false
  deriving DecidableEq, Repr

/-- Options given after the command win over those before it. -/
def Options.override (outer inner : Options) : Options :=
  { config := inner.config <|> outer.config
    logLevel := inner.logLevel <|> outer.logLevel
    logJson := inner.logJson || outer.logJson }

inductive Request where
  | show (format : String)
  | normalize (names : List String)
  | get (key : String)
  deriving DecidableEq, Repr

/-- What a command line amounts to. -/
inductive Invocation where
  | run (options : Options) (request : Request)
  | help
  | version
  | misuse
  deriving DecidableEq, Repr

/-- A word of the command line, by its dashes. -/
inductive Word where
  | endOfOptions
  | long (name : String) (value : Option String)
  | short (letter : Char)
  | plain
  deriving DecidableEq, Repr

/-- A dash alone is a plain word. -/
def Word.of (s : String) : Word :=
  match s.toList with
  | ['-', '-'] => .endOfOptions
  | '-' :: '-' :: r =>
    let name := r.takeWhile (· != '=')
    .long (.ofList name) <| match r.dropWhile (· != '=') with
      | [] => none
      | _ :: value => some (.ofList value)
  | '-' :: c :: _ => .short c
  | _ => .plain

inductive Verb where
  | show | normalize | get
  deriving DecidableEq, Repr

def Verb.name : Verb → String
  | .show => "show"
  | .normalize => "normalize"
  | .get => "get"

def Verb.all : List Verb :=
  [.show, .normalize, .get]

def verb? (s : String) : Option Verb :=
  Verb.all.find? fun v => v.name == s

/-- What has been read of the words before the command, or of those after it. -/
structure Seen where
  options : Options := {}
  format : Option String := none
  plain : List String := []

namespace Seen

/-- Takes an option with a value. None may be given twice, and a path may not be empty. -/
def setValue? (s : Seen) (verb : Option Verb) (name value : String) : Option Seen :=
  if name = "config" then
    if s.options.config.isSome || value.isEmpty then none
    else some { s with options.config := some value }
  else if name = "log-level" then
    if s.options.logLevel.isSome then none else some { s with options.logLevel := some value }
  else if name = "format" && verb = some .show then
    if s.format.isSome then none else some { s with format := some value }
  else none

/-- Takes a word that is no option, after a command that has room for it. -/
def addPlain? (s : Seen) (verb : Verb) (word : String) : Option Seen :=
  match verb with
  | .show => none
  | .get => if s.plain.isEmpty then some { s with plain := [word] } else none
  | .normalize => some { s with plain := s.plain ++ [word] }

/-- The request, if nothing is missing from it. -/
def request? (s : Seen) : Verb → Option Request
  | .show => some (.show (s.format.getD "table"))
  | .normalize => if s.plain.isEmpty then none else some (.normalize s.plain)
  | .get => s.plain.head?.map .get

end Seen

def finish (outer : Options) (verb : Verb) (s : Seen) : Invocation :=
  match s.request? verb with
  | some request => .run (outer.override s.options) request
  | none => .misuse

/-- Everything after the end of options is plain. -/
def finishPlain (outer : Options) (verb : Verb) (s : Seen) : List String → Invocation
  | [] => finish outer verb s
  | w :: ws =>
    match s.addPlain? verb w with
    | some s => finishPlain outer verb s ws
    | none => .misuse

/-- Help may be asked for a command by name. -/
def helpFor : List String → Invocation
  | [] => .help
  | [w] => if w = "help" || (verb? w).isSome then .help else .misuse
  | _ => .misuse

/-- Whether an option can take a word as its value. -/
def isValue (word : String) : Bool :=
  Word.of word == .plain

/-- Reads words in order, first without a command and then with one. Help and version answer at
once, and so does the first mistake. -/
def read (outer : Options) (verb : Option Verb) (s : Seen) : List String → Invocation
  | [] =>
    match verb with
    | some verb => finish outer verb s
    | none => .misuse
  | w :: ws =>
    match Word.of w with
    | .endOfOptions =>
      match verb with
      | some verb => finishPlain outer verb s ws
      | none => .misuse
    | .short c =>
      if c = 'h' then .help
      else if c = 'V' && verb.isNone then .version
      else .misuse
    | .long name none =>
      if name = "help" then .help
      else if name = "version" && verb.isNone then .version
      else if name = "log-json" then
        if s.options.logJson then .misuse
        else read outer verb { s with options.logJson := true } ws
      else match ws with
        | value :: ws =>
          if isValue value then
            match s.setValue? verb name value with
            | some s => read outer verb s ws
            | none => .misuse
          else .misuse
        | [] => .misuse
    | .long name (some value) =>
      match s.setValue? verb name value with
      | some s => read outer verb s ws
      | none => .misuse
    | .plain =>
      match verb with
      | some verb =>
        match s.addPlain? verb w with
        | some s => read outer (some verb) s ws
        | none => .misuse
      | none =>
        match verb? w with
        | some verb => read s.options (some verb) {} ws
        | none => if w = "help" then helpFor ws else .misuse

def Invocation.ofArguments (words : List String) : Invocation :=
  read {} none {} words

end HostProfile.Cli
