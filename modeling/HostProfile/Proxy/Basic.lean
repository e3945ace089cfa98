/-! System-wide proxy settings: an endpoint for each kind of proxy, and the hosts that need none. -/
namespace HostProfile.Proxy

inductive Kind where
  | http | https | ftp | socks
  deriving DecidableEq, Repr

namespace Kind

def all : List Kind :=
  [.http, .https, .ftp, .socks]

def name : Kind → String
  | .http => "Http"
  | .https => "Https"
  | .ftp => "Ftp"
  | .socks => "Socks"

def hostKey : Kind → String
  | .http => "http.proxyHost"
  | .https => "https.proxyHost"
  | .ftp => "ftp.proxyHost"
  | .socks => "socksProxyHost"

def portKey : Kind → String
  | .http => "http.proxyPort"
  | .https => "https.proxyPort"
  | .ftp => "ftp.proxyPort"
  | .socks => "socksProxyPort"

theorem mem_all (k : Kind) : k ∈ all := by
  cases k <;> decide

end Kind

structure Endpoint where
  enabled : Bool := false
  host : Option String := none
  port : Option String := none
  deriving DecidableEq, Repr

/-- The exceptions are patterns of hosts that are reached without any proxy. -/
structure Settings where
  endpoint : Kind → Endpoint := fun _ => {}
  exceptions : List String := []

namespace Settings

theorem ext_endpoint {s t : Settings} (he : ∀ k, s.endpoint k = t.endpoint k)
    (hx : s.exceptions = t.exceptions) : s = t := by
  obtain ⟨endpoint, exceptions⟩ := s
  obtain ⟨endpoint', exceptions'⟩ := t
  obtain rfl : endpoint = endpoint' := funext he
  obtain rfl : exceptions = exceptions' := hx
  rfl

def setEndpoint (s : Settings) (kind : Kind) (e : Endpoint) : Settings :=
  { s with endpoint := fun k => if k = kind then e else s.endpoint k }

@[simp] theorem endpoint_setEndpoint (s : Settings) (kind k : Kind) (e : Endpoint) :
    (s.setEndpoint kind e).endpoint k = if k = kind then e else s.endpoint k := rfl

@[simp] theorem exceptions_setEndpoint (s : Settings) (kind : Kind) (e : Endpoint) :
    (s.setEndpoint kind e).exceptions = s.exceptions := rfl

/-- The exceptions in one text; none gives no text. -/
def bypassText? (s : Settings) : Option String :=
  if s.exceptions.isEmpty then none else some ("|".intercalate s.exceptions)

end Settings

end HostProfile.Proxy
