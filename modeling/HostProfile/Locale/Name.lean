import HostProfile.Charset
import HostProfile.Locale.Basic
import HostProfile.Text.Split

/-! Locale names of the form `language[_COUNTRY][.codeset][@modifier]`, and where they are found. -/
namespace HostProfile

open Text

/-- A locale name in its four parts, each as it was written. -/
structure LocaleName where
  language : String
  country : Option String
  codeset : Option String
  modifier : Option String
  deriving DecidableEq, Repr

namespace LocaleName

/-- The modifier starts at the first `@`, the codeset at the first `.` before it, and the country at
the first `_` before both. -/
def ofText (cs : List Char) : LocaleName :=
  let (rest, modifier) := cut ['@'] cs
  let (rest, codeset) := cut ['.'] rest
  let (language, country) := cut ['_'] rest
  ⟨.ofList language, country.map .ofList, codeset.map .ofList, modifier.map .ofList⟩

def toText (n : LocaleName) : String :=
  let part (mark : String) : Option String → String
    | some s => mark ++ s
    | none => ""
  n.language ++ part "_" n.country ++ part "." n.codeset ++ part "@" n.modifier

end LocaleName

namespace Locale

/-- The script that a modifier stands for. -/
def scriptOf? (modifier : String) : Option String :=
  if modifier = "latin" then some "Latn"
  else if modifier = "cyrillic" then some "Cyrl"
  else if modifier = "devanagari" then some "Deva"
  else none

/-- The variant that a modifier stands for: itself, unless it means something else. -/
def variantOf? (modifier : String) : Option String :=
  if modifier = "euro" || (scriptOf? modifier).isSome then none
  else nonEmpty? (upper modifier)

/-- The names `C` and `POSIX` stand for English and keep only their codeset. The modifier `euro`
gives a codeset to a name that has none. -/
def ofName (n : LocaleName) : Locale :=
  let codeset := n.codeset.bind fun c => nonEmpty? (Charset.canonicalCodeset c)
  if n.language = "C" || n.language = "POSIX" then
    { language := some "en", codeset }
  else
    { language := nonEmpty? (lower n.language)
      script := n.modifier.bind scriptOf?
      country := n.country.bind fun c => nonEmpty? (upper c)
      variant := n.modifier.bind variantOf?
      codeset := codeset <|> if n.modifier = some "euro" then some Charset.latin9 else none }

/-- The locale of a name; a blank name has none. -/
def parse? (name : String) : Option Locale :=
  let cs := trim name.toList
  if cs.isEmpty then none else some (ofName (.ofText cs))

/-- The modifier that a locale's script or variant comes from. -/
def modifier? (l : Locale) : Option String :=
  match l.script with
  | some "Latn" => some "latin"
  | some "Cyrl" => some "cyrillic"
  | some "Deva" => some "devanagari"
  | _ => l.variant

/-- A name for the locale. -/
def toName (l : Locale) : LocaleName :=
  ⟨l.language.getD "", l.country, l.codeset, l.modifier?⟩

/-! ### The locale of a category, found in the environment -/

/-- What a locale is used for: writing numbers and dates, or talking to the user. -/
inductive Category where
  | format | display
  deriving DecidableEq, Repr

/-- The variables that name the locale, the strongest first. -/
def Category.variableNames : Category → List String
  | .format => ["LC_ALL", "LC_CTYPE", "LANG"]
  | .display => ["LC_ALL", "LC_MESSAGES", "LANG"]

/-- The first name that is set and not empty, or else `C`. -/
def resolveName (category : Category) (lookup : String → Option String) : String :=
  ((category.variableNames.filterMap lookup).find? fun name => !name.isEmpty).getD "C"

def resolve? (category : Category) (lookup : String → Option String) : Option Locale :=
  parse? (resolveName category lookup)

end Locale

end HostProfile
