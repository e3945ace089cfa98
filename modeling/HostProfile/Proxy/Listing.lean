import HostProfile.Proxy.Basic
import HostProfile.Text.Split

/-! Reading proxy settings from the dictionary the system configuration tool of macOS prints: lines
`KEY : VALUE`, with the exceptions in a block of their own. -/
namespace HostProfile.Proxy

open Text

/-- What an entry of the dictionary says of its endpoint. -/
inductive Field where
  | enable | host | port
  deriving DecidableEq, Repr

def Kind.listingName : Kind → String
  | .http => "HTTP"
  | .https => "HTTPS"
  | .ftp => "FTP"
  | .socks => "SOCKS"

def Field.listingName : Field → String
  | .enable => "Enable"
  | .host => "Proxy"
  | .port => "Port"

def Field.ofListingName? (name : String) : Option Field :=
  [.enable, .host, .port].find? fun field => field.listingName == name

/-- The entry of a key that is read: the first kind whose name starts the key and leaves the name of
a field. `HTTPSPort` starts with `HTTP` as well, but `SPort` is no field. -/
def slot? (key : String) : Option (Kind × Field) :=
  Kind.all.findSome? fun kind => do
    let rest ← kind.listingName.toList.isPrefixOf? key.toList
    let field ← Field.ofListingName? (.ofList rest)
    return (kind, field)

def Endpoint.set (e : Endpoint) (value : String) : Field → Endpoint
  | .enable => { e with enabled := value == "1" }
  | .host => { e with host := nonEmpty? value }
  | .port => { e with port := nonEmpty? value }

/-- The trimmed key and value of an entry. -/
def entryOf? (line : List Char) : Option (String × String) :=
  (splitOnce? [' ', ':', ' '] line).map fun (k, v) => (.ofList (trim k), .ofList (trim v))

/-- What has been read, and whether the next line is inside the block of exceptions. -/
structure Listing where
  settings : Settings := {}
  inExceptions : Bool := false

namespace Listing

def addException (l : Listing) (line : List Char) : Listing :=
  match entryOf? line with
  | some (_, pattern) =>
    if pattern.isEmpty then l
    else { l with settings.exceptions := l.settings.exceptions ++ [pattern] }
  | none => l

def addEntry (l : Listing) (line : List Char) : Listing :=
  match entryOf? line with
  | none => l
  | some (key, value) =>
    if key = "ExceptionsList" then
      { l with inExceptions := "<array>".toList.isPrefixOf value.toList }
    else match slot? key with
      | some (kind, field) =>
        { l with settings :=
            l.settings.setEndpoint kind ((l.settings.endpoint kind).set value field) }
      | none => l

/-- Reads one line. A closing brace ends the block of exceptions and nothing else. -/
def step (l : Listing) (line : List Char) : Listing :=
  let line := trim line
  if l.inExceptions then
    if line = ['\x7d'] then { l with inExceptions := false } else l.addException line
  else l.addEntry line

end Listing

/-- The settings of a printed dictionary. Of several entries with one key the last counts. -/
def Settings.ofListing (s : String) : Settings :=
  ((lines s.toList).foldl Listing.step {}).settings

end HostProfile.Proxy
