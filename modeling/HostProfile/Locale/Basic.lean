/-! Locales: a language with the script, country and variant it is used in. -/
namespace HostProfile

/-- The codeset is the one a locale name gives, under its registered name. -/
structure Locale where
  language : Option String := none
  script : Option String := none
  country : Option String := none
  variant : Option String := none
  codeset : Option String := none
  deriving DecidableEq, Repr

namespace Locale

/-- The parts of a locale that a tag shows, in the order of the tag. -/
inductive Part where
  | language | script | country | variant
  deriving DecidableEq, Repr

def Part.all : List Part :=
  [.language, .script, .country, .variant]

def part (l : Locale) : Part → Option String
  | .language => l.language
  | .script => l.script
  | .country => l.country
  | .variant => l.variant

/-- The present parts with a dash between them, such as `sr-Latn-RS`. -/
def tag (l : Locale) : String :=
  "-".intercalate (Part.all.filterMap l.part)

end Locale

end HostProfile
