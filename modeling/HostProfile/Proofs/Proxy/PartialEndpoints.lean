import HostProfile.Proofs.Proxy.Filled
import Mathlib.Data.List.Induction
import Mathlib.Data.List.Nodup

/-! Endpoints that are enabled but have no host. The policy that disables them goes from one
endpoint to the next, and its log says exactly which of them it has switched off. -/
namespace HostProfile.Proxy

/-- The endpoint with its flag taken back unless there is a host. -/
def Endpoint.settled (e : Endpoint) : Endpoint :=
  { e with enabled := e.enabled && e.host.isSome }

namespace Endpoint

theorem settled_eq (e : Endpoint) :
    e.settled = if e.isPartial then { e with enabled := false } else e := by
  obtain ⟨enabled, host, port⟩ := e
  cases enabled <;> cases host <;> rfl

theorem isPartial_settled (e : Endpoint) : e.settled.isPartial = false := by
  obtain ⟨enabled, host, port⟩ := e
  cases enabled <;> cases host <;> rfl

theorem settled_ne_iff (e : Endpoint) : e.settled ≠ e ↔ e.isPartial = true := by
  obtain ⟨enabled, host, port⟩ := e
  cases enabled <;> cases host <;> simp [settled, isPartial]

/-- The partial endpoints are those that are switched off. -/
theorem isPartial_eq (e : Endpoint) : e.isPartial = (e.enabled && !e.settled.enabled) := by
  obtain ⟨enabled, host, port⟩ := e
  cases enabled <;> cases host <;> rfl

end Endpoint

namespace Settings

theorem endpoint_disablePartial (s : Settings) (k : Kind) :
    s.disablePartial.endpoint k =
      { s.endpoint k with enabled := (s.endpoint k).enabled && (s.endpoint k).host.isSome } :=
  (s.endpoint k).settled_eq.symm

/-! ### One endpoint after the other -/

/-- Looks at one endpoint: a partial one is switched off and reported. -/
def visit (r : Settings × List Event) (k : Kind) : Settings × List Event :=
  if (r.1.endpoint k).isPartial then
    (r.1.setEndpoint k { r.1.endpoint k with enabled := false }, r.2 ++ [.proxyWithoutHost k])
  else r

theorem endpoint_visit (r : Settings × List Event) (k j : Kind) :
    (visit r k).1.endpoint j = if j = k then (r.1.endpoint k).settled else r.1.endpoint j := by
  unfold visit
  rw [Endpoint.settled_eq]
  by_cases hj : j = k
  · subst hj
    split <;> simp
  · split <;> simp [hj]

theorem exceptions_visit (r : Settings × List Event) (k : Kind) :
    (visit r k).1.exceptions = r.1.exceptions := by
  unfold visit
  split <;> rfl

theorem events_visit (r : Settings × List Event) (k : Kind) :
    (visit r k).2 = r.2 ++ if (r.1.endpoint k).isPartial then [.proxyWithoutHost k] else [] := by
  unfold visit
  split <;> simp

/-- The endpoints of some kinds have been looked at, and nothing else has happened. -/
structure Visited (s : Settings) (ks : List Kind) (r : Settings × List Event) : Prop where
  endpoint : ∀ k, r.1.endpoint k = if k ∈ ks then (s.endpoint k).settled else s.endpoint k
  exceptions : r.1.exceptions = s.exceptions
  events : r.2 = (ks.filter fun k => (s.endpoint k).isPartial).map .proxyWithoutHost

theorem Visited.visit {s : Settings} {ks : List Kind} {r : Settings × List Event} {k : Kind}
    (h : Visited s ks r) (hk : k ∉ ks) : Visited s (ks ++ [k]) (visit r k) := by
  have hs : r.1.endpoint k = s.endpoint k := by rw [h.endpoint, if_neg hk]
  refine ⟨fun j => ?_, (exceptions_visit r k).trans h.exceptions, ?_⟩
  · rw [endpoint_visit, hs, h.endpoint]
    by_cases hj : j = k
    · simp [hj]
    · simp [hj]
  · rw [events_visit, hs, h.events, List.filter_append, List.map_append]
    by_cases hp : (s.endpoint k).isPartial = true
    · simp [hp]
    · simp [hp]

/-- No kind is visited twice, so that each endpoint is judged as it was at first. -/
theorem visited_foldl (s : Settings) {ks : List Kind} (hn : ks.Nodup) :
    Visited s ks (ks.foldl Settings.visit (s, [])) := by
  induction ks using List.reverseRecOn with
  | nil => exact ⟨fun k => by simp, rfl, rfl⟩
  | append_singleton ks k ih =>
    rw [List.nodup_append] at hn
    rw [List.foldl_append]
    exact (ih hn.1).visit fun hk => hn.2.2 k hk k (List.mem_singleton_self k) rfl

theorem visited_applyPolicy (s : Settings) : Visited s Kind.all (s.applyPolicy .disable) :=
  ⟨fun k => by rw [if_pos k.mem_all]; exact s.endpoint_disablePartial k, rfl, rfl⟩

/-- The policy looks at every endpoint once, in the order of the kinds. -/
theorem applyPolicy_disable_eq_foldl (s : Settings) :
    s.applyPolicy .disable = Kind.all.foldl Settings.visit (s, []) := by
  have hp := s.visited_applyPolicy
  have hn : Kind.all.Nodup := by decide
  have hv := s.visited_foldl hn
  refine Prod.ext (ext_endpoint (fun k => ?_) ?_) ?_
  · rw [hp.endpoint, hv.endpoint]
  · rw [hp.exceptions, hv.exceptions]
  · rw [hp.events, hv.events]

/-! ### What the policy does -/

theorem endpoint_applyPolicy (s : Settings) (k : Kind) :
    (s.applyPolicy .disable).1.endpoint k = (s.endpoint k).settled := by
  rw [s.visited_applyPolicy.endpoint, if_pos k.mem_all]

theorem applyPolicy_of_no_partial {s : Settings} (h : ∀ k, (s.endpoint k).isPartial = false) :
    s.applyPolicy .disable = (s, []) := by
  have hv := s.visited_applyPolicy
  refine Prod.ext (ext_endpoint (fun k => ?_) hv.exceptions) ?_
  · rw [endpoint_applyPolicy, Endpoint.settled_eq, h k]
    rfl
  · rw [hv.events]
    simp [h]

/-- A host that is read from a listing is not empty, so that an endpoint that stays enabled has
one. -/
theorem host_of_enabled_ofListing {t : String} {k : Kind}
    (h : (((ofListing t).applyPolicy .disable).1.endpoint k).enabled = true) :
    ∃ host, (((ofListing t).applyPolicy .disable).1.endpoint k).host = some host ∧ host ≠ "" := by
  have hf := ((filled_ofListing t).applyPolicy .disable).endpoint k
  have he := endpoint_applyPolicy (ofListing t) k
  rw [he] at h hf ⊢
  have hs : ((ofListing t).endpoint k).host.isSome = true := (Bool.and_eq_true_iff.mp h).2
  obtain ⟨host, hh⟩ := Option.isSome_iff_exists.mp hs
  refine ⟨host, hh, ?_⟩
  rintro rfl
  exact hf.host hh

/-- One policy leaves the settings alone and is silent. The other goes through the endpoints in
order: hosts, ports and exceptions stay, an enabled endpoint stays enabled just if it has a host, no
other is enabled, and the log has a warning for each endpoint that was switched off, which are the
only ones touched. A second time there is nothing left to do. Of a listing no endpoint stays enabled
without a host that is not empty. -/
theorem applyPolicy_exact :
    (∀ s : Settings, s.applyPolicy .passThrough = (s, [])) ∧
    (∀ s : Settings,
      let r := s.applyPolicy .disable
      r = [Kind.http, .https, .ftp, .socks].foldl Settings.visit (s, []) ∧
      (∀ k, (r.1.endpoint k).host = (s.endpoint k).host ∧
        (r.1.endpoint k).port = (s.endpoint k).port ∧
        ((r.1.endpoint k).enabled = true ↔
          (s.endpoint k).enabled = true ∧ (s.endpoint k).host ≠ none)) ∧
      r.1.exceptions = s.exceptions ∧
      r.2 = ([Kind.http, .https, .ftp, .socks].filter fun k =>
        (s.endpoint k).enabled && !(r.1.endpoint k).enabled).map .proxyWithoutHost ∧
      (∀ e ∈ r.2, e.level = .warn ∧
        e.message = "proxy enabled without a host, treating as disabled") ∧
      (∀ k, r.1.endpoint k ≠ s.endpoint k ↔ .proxyWithoutHost k ∈ r.2) ∧
      r.1.applyPolicy .disable = (r.1, [])) ∧
    ∀ (t : String) (k : Kind),
      let e := ((ofListing t).applyPolicy .disable).1.endpoint k
      e.enabled = true → ∃ host, e.host = some host ∧ host ≠ "" := by
  refine ⟨fun s => rfl, fun s => ?_, fun t k h => host_of_enabled_ofListing h⟩
  have hv := s.visited_applyPolicy
  have he := s.endpoint_applyPolicy
  refine ⟨s.applyPolicy_disable_eq_foldl, fun k => ?_, hv.exceptions, ?_, fun e hm => ?_,
    fun k => ?_, applyPolicy_of_no_partial fun k => ?_⟩
  · rw [he]
    simp [Endpoint.settled, Option.isSome_iff_ne_none]
  · rw [hv.events]
    refine congrArg (List.map _) (List.filter_congr fun k _ => ?_)
    rw [he, Endpoint.isPartial_eq]
  · rw [hv.events] at hm
    obtain ⟨k, -, rfl⟩ := List.mem_map.mp hm
    exact ⟨rfl, rfl⟩
  · rw [he, Endpoint.settled_ne_iff, hv.events]
    simp [k.mem_all]
  · rw [he]
    exact Endpoint.isPartial_settled _

/-- Two endpoints without a host, one of which is enabled, and one with a host. -/
theorem applyPolicy_exact_socks :
    let t :=
      "HTTPEnable : 1\nHTTPProxy : proxy.lan\nFTPPort : 21\nSOCKSEnable : 1\nSOCKSPort : 1080\n"
    let r := (ofListing t).applyPolicy .disable
    r.2 = [.proxyWithoutHost .socks] ∧
      (∀ e ∈ r.2, e.level = .warn ∧
        e.message = "proxy enabled without a host, treating as disabled") ∧
      (r.1.endpoint .http).enabled = true ∧
      (∃ host, (r.1.endpoint .http).host = some host ∧ host ≠ "") ∧
      (r.1.endpoint .socks).port = some "1080" ∧ r.1.applyPolicy .disable = (r.1, []) := by
  intro t r
  obtain ⟨-, hp, hl⟩ := applyPolicy_exact
  obtain ⟨-, hk, -, -, hw, -, hi⟩ := hp (ofListing t)
  have hr : r.2 = [.proxyWithoutHost .socks] ∧ (r.1.endpoint .http).enabled = true ∧
      ((ofListing t).endpoint .socks).port = some "1080" := by
    decide +kernel
  exact ⟨hr.1, hw, hr.2.1, hl t .http hr.2.1, (hk .socks).2.1.trans hr.2.2, hi⟩

end Settings

end HostProfile.Proxy
