import HostProfile.Text.Basic

/-! Names of character sets. Hosts use a few names from before the IANA registry; every other name
is taken to be the registered one. -/
namespace HostProfile.Charset

def utf8 : String := "UTF-8"
def latin1 : String := "ISO-8859-1"
def ascii : String := "US-ASCII"
def latin9 : String := "ISO-8859-15"
def windowsCyrillic : String := "windows-1251"

/-- The registered name. Case matters. -/
def canonical (name : String) : String :=
  if name = "ISO8859-1" then latin1
  else if name = "ISO8859-15" then latin9
  else if name = "ANSI_X3.4-1968" || name = "ISO646-US" then ascii
  else name

/-- The registered name of a codeset in a locale name, where UTF-8 is also spelled without its dash
and in any case. -/
def canonicalCodeset (name : String) : String :=
  if Text.equalsIgnoringCase name "utf8" || Text.equalsIgnoringCase name "utf-8" then utf8
  else canonical name

end HostProfile.Charset
