import HostProfile.Text.Split

/-! The instruction sets of a processor, from the text in which Linux describes each processor. -/
namespace HostProfile.Processor

open Text

/-- The trimmed text before a line's first colon. -/
def key (line : List Char) : List Char :=
  trim (cut [':'] line).1

/-- The trimmed text after a line's first colon. -/
def value? (line : List Char) : Option (List Char) :=
  (cut [':'] line).2.map trim

/-- The value on the first line with the given key. -/
def field? (name : String) (cpuinfo : List Char) : Option (List Char) :=
  ((lines cpuinfo).find? fun line => key line == name.toList).bind value?

/-- The members of a list where they first occur. -/
def distinct {α : Type} [BEq α] : List α → List α
  | [] => []
  | x :: xs => x :: (distinct xs).filter fun y => !(y == x)

/-- The flags of the first processor that lists any, without repetitions. -/
def instructionSets? (cpuinfo : String) : Option (List String) :=
  let cs := cpuinfo.toList
  match field? "flags" cs <|> field? "Features" cs with
  | none => none
  | some flags =>
    let sets := distinct (words flags)
    if sets.isEmpty then none else some (sets.map .ofList)

end HostProfile.Processor
