import HostProfile.Event

/-! What becomes of a proxy that is enabled but has no host. -/
namespace HostProfile.Proxy

inductive Policy where
  | disable | passThrough
  deriving DecidableEq, Repr

def Endpoint.isPartial (e : Endpoint) : Bool :=
  e.enabled && e.host.isNone

namespace Settings

/-- The settings with every partial endpoint switched off. -/
def disablePartial (s : Settings) : Settings :=
  { s with endpoint := fun k =>
      let e := s.endpoint k
      if e.isPartial then { e with enabled := false } else e }

/-- Only the policy that switches endpoints off reports them. -/
def applyPolicy (s : Settings) : Policy → Settings × List Event
  | .passThrough => (s, [])
  | .disable =>
    (s.disablePartial,
      (Kind.all.filter fun k => (s.endpoint k).isPartial).map Event.proxyWithoutHost)

end Settings

end HostProfile.Proxy
