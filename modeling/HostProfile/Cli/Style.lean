import HostProfile.Host

/-! Colours and weights of terminal text. -/
namespace HostProfile.Cli

inductive Style where
  | title | heading | dimmed | strong | good | bad
  deriving DecidableEq, Repr

/-- The parameters of the style's control sequence. -/
def Style.parameters : Style → String
  | .title => "1;36"
  | .heading => "33"
  | .dimmed => "2"
  | .strong => "1"
  | .good => "32"
  | .bad => "31"

/-- A text in a style, or as it is where colours are off. -/
def paint (colours : Bool) (style : Style) (s : String) : String :=
  if colours then "\x1b[" ++ style.parameters ++ "m" ++ s ++ "\x1b[0m" else s

/-- Colours can be forced, and else are on for a terminal unless a variable says no. -/
def usesColours (h : Host) : Bool :=
  let isOn (name : String) := (h.textValue? name).map fun v => v != "0"
  if isOn "CLICOLOR_FORCE" = some true then true
  else if (isOn "NO_COLOR").isSome then false
  else (isOn "CLICOLOR").getD true && h.isTerminal .stdout

end HostProfile.Cli
