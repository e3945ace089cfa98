import HostProfile.Proofs.Proxy.Contents
import HostProfile.Proofs.Proxy.PartialEndpoints
import HostProfile.Proofs.Record.Properties

/-! The proxy properties that come of a listing under the policy that disables partial endpoints. They
are read off the listing's lines: no port without its host, no value that is empty or padded, and the
exceptions as the listing has them. -/
namespace HostProfile

open Text

namespace Proxy

/-- Under the policy that disables, an endpoint is enabled if the listing says so and names its host. -/
theorem endpoint_of_listing (t : String) (k : Kind) :
    let e := ((Settings.ofListing t).applyPolicy .disable).1.endpoint k
    (e.enabled = true ↔ said? (trimmedLines t) (k, .enable) = some "1" ∧
        said? (trimmedLines t) (k, .host) ≠ none) ∧
      e.host = said? (trimmedLines t) (k, .host) ∧ e.port = said? (trimmedLines t) (k, .port) := by
  have hs : ((Settings.ofListing t).applyPolicy .disable).1 =
      (contents (trimmedLines t)).disablePartial := by
    rw [← Settings.ofListing_eq]
    rfl
  rw [hs, Settings.endpoint_disablePartial]
  dsimp only [contents]
  rw [Bool.and_eq_true, beq_iff_eq, Option.isSome_iff_ne_none]
  exact ⟨Iff.rfl, rfl, rfl⟩

theorem exceptions_of_listing (t : String) :
    ((Settings.ofListing t).applyPolicy .disable).1.exceptions = patterns (trimmedLines t) :=
  Settings.exceptions_ofListing t

/-- What is said of a place is said on one line of the listing. -/
theorem exists_entryOf?_of_said? {ls : List (List Char)} {slot : Kind × Field} {v : String}
    (h : said? ls slot = some v) : ∃ l ∈ ls, ∃ key, entryOf? l = some (key, v) := by
  obtain ⟨⟨slot', v'⟩, he, rfl⟩ := Option.map_eq_some_iff.mp h
  have hm : (slot', v') ∈ assigned ls := List.mem_reverse.mp (List.mem_of_find?_eq_some he)
  obtain ⟨l, hl, ha⟩ := List.mem_filterMap.mp hm
  obtain ⟨key, hk, -⟩ := assigned?_eq_some_iff.mp ha
  exact ⟨l, standing_subset false ls hl, key, hk⟩

/-- A value as a listing can hold it: not empty, not padded and of one line. -/
structure Tidy (v : String) : Prop where
  ne_empty : v ≠ ""
  trimmed : Trimmed v.toList
  oneLine : '\n' ∉ v.toList

theorem tidy_of_said? {t : String} {slot : Kind × Field} {v : String}
    (h : said? (trimmedLines t) slot = some v) : Tidy v := by
  obtain ⟨l, hl, key, he⟩ := exists_entryOf?_of_said? h
  obtain ⟨line, hline, rfl⟩ := List.mem_map.mp hl
  obtain ⟨ht, hc⟩ := entryOf?_value he
  refine ⟨(entryOf?_ne_empty (trimmed_trim line) he).2, ht, fun hn => ?_⟩
  exact not_mem_of_mem_lines hline (mem_of_mem_trim (hc _ hn))

/-- The text of exceptions without a bar is taken apart again at the bars. -/
theorem splitAll_bypassText? {s : Settings} {v : String} (h : s.bypassText? = some v)
    (hb : ∀ p ∈ s.exceptions, '|' ∉ p.toList) :
    (splitAll (· == '|') v.toList).map .ofList = s.exceptions := by
  obtain ⟨hne, rfl⟩ := (s.bypassText?_eq_some_iff v).mp h
  have hp : ∀ a ∈ s.exceptions.map String.toList, ∀ c ∈ a, (c == '|') = false := by
    intro a ha c hc
    obtain ⟨p, hm, rfl⟩ := List.mem_map.mp ha
    exact beq_eq_false_iff_ne.mpr fun he => hb p hm (he ▸ hc)
  have hn : s.exceptions.map String.toList ≠ [] := by simpa using hne
  have hs : splitAll (· == '|') ("|".intercalate s.exceptions).toList =
      s.exceptions.map String.toList := by
    have hbar : "|".toList = ['|'] := by decide
    rw [String.toList_intercalate, hbar]
    exact splitAll_intercalate (p := (· == '|')) (beq_self_eq_true '|') hn hp
  rw [hs, List.map_map]
  simp [Function.comp_def]

end Proxy

namespace Record

open Proxy

variable {t : String} {r : Record} {s : Settings}

theorem get?_endpointKeys (h : r.proxy = some s) (k : Kind) (v : String) :
    (r.properties.get? k.hostKey = some v ↔
        (s.endpoint k).enabled = true ∧ (s.endpoint k).host = some v) ∧
      (r.properties.get? k.portKey = some v ↔
        (s.endpoint k).enabled = true ∧ (s.endpoint k).port = some v) := by
  have hh : r.properties.get? k.hostKey = r.property? (.proxyHost k) :=
    r.get?_properties_key (.proxyHost k)
  have hp : r.properties.get? k.portKey = r.property? (.proxyPort k) :=
    r.get?_properties_key (.proxyPort k)
  rw [hh, hp, property?, property?, enabledEndpoint?, h]
  cases he : (s.endpoint k).enabled <;> simp [Option.filter, he]

theorem get?_bypassKeys (h : r.proxy = some s) :
    r.properties.get? "http.nonProxyHosts" = s.bypassText? ∧
      r.properties.get? "ftp.nonProxyHosts" = s.bypassText? := by
  have hh : r.properties.get? "http.nonProxyHosts" = r.property? .httpBypass :=
    r.get?_properties_key .httpBypass
  have hf : r.properties.get? "ftp.nonProxyHosts" = r.property? .ftpBypass :=
    r.get?_properties_key .ftpBypass
  rw [hh, hf, property?, property?, h]
  exact ⟨rfl, rfl⟩

theorem get?_hostKey_of_listing (h : r.proxy = some ((Settings.ofListing t).applyPolicy .disable).1)
    (k : Kind) (v : String) :
    r.properties.get? k.hostKey = some v ↔ said? (trimmedLines t) (k, .enable) = some "1" ∧
      said? (trimmedLines t) (k, .host) = some v := by
  obtain ⟨he, hh, -⟩ := endpoint_of_listing t k
  rw [(get?_endpointKeys h k v).1, he, hh, and_assoc]
  exact and_congr_right fun _ => and_iff_right_of_imp fun hv => by simp [hv]

theorem get?_portKey_of_listing (h : r.proxy = some ((Settings.ofListing t).applyPolicy .disable).1)
    (k : Kind) (v : String) :
    r.properties.get? k.portKey = some v ↔ said? (trimmedLines t) (k, .enable) = some "1" ∧
      said? (trimmedLines t) (k, .host) ≠ none ∧ said? (trimmedLines t) (k, .port) = some v := by
  obtain ⟨he, -, hp⟩ := endpoint_of_listing t k
  rw [(get?_endpointKeys h k v).2, he, hp, and_assoc]

end Record

/-- A kind's host is a property exactly if the listing enables the kind and names its host, and its port
exactly if it names the port as well. The exceptions are a property if there are any, under both keys
alike. -/
theorem Record.properties_of_listing (t : String) (r : Record) :
    let s := ((Proxy.Settings.ofListing t).applyPolicy .disable).1
    let m := ({ r with proxy := some s } : Record).properties
    let said := Proxy.said? (Proxy.trimmedLines t)
    let listed := Proxy.patterns (Proxy.trimmedLines t)
    (∀ k : Proxy.Kind,
      (m.get? k.hostKey ≠ none ↔ (s.endpoint k).enabled = true) ∧
      (m.get? k.portKey ≠ none → m.get? k.hostKey ≠ none) ∧
      (∀ v, m.get? k.hostKey = some v ∨ m.get? k.portKey = some v → Proxy.Tidy v) ∧
      (∀ v, m.get? k.hostKey = some v ↔
        said (k, .enable) = some "1" ∧ said (k, .host) = some v) ∧
      ∀ v, m.get? k.portKey = some v ↔
        said (k, .enable) = some "1" ∧ said (k, .host) ≠ none ∧ said (k, .port) = some v) ∧
    m.get? "http.nonProxyHosts" = m.get? "ftp.nonProxyHosts" ∧
    (m.get? "http.nonProxyHosts" ≠ none ↔ listed ≠ []) ∧
    ∀ v, m.get? "http.nonProxyHosts" = some v → (∀ p ∈ listed, '|' ∉ p.toList) →
      (splitAll (· == '|') v.toList).map .ofList = listed := by
  intro s m said listed
  have hr : ({ r with proxy := some s } : Record).proxy = some s := rfl
  have hexceptions : s.exceptions = listed := Proxy.exceptions_of_listing t
  obtain ⟨hhttp, hftp⟩ := Record.get?_bypassKeys hr
  refine ⟨fun k => ?_, hhttp.trans hftp.symm, ?_, fun v hv hb => ?_⟩
  · have hhost := Record.get?_hostKey_of_listing hr k
    have hport := Record.get?_portKey_of_listing hr k
    refine ⟨?_, fun h => ?_, fun v h => ?_, hhost, hport⟩
    · rw [(Proxy.endpoint_of_listing t k).1, Option.ne_none_iff_exists', Option.ne_none_iff_exists',
        ← exists_and_left]
      exact exists_congr hhost
    · obtain ⟨v, hv⟩ := Option.ne_none_iff_exists'.mp h
      obtain ⟨he, hh, -⟩ := (hport v).mp hv
      obtain ⟨w, hw⟩ := Option.ne_none_iff_exists'.mp hh
      exact Option.ne_none_iff_exists'.mpr ⟨w, (hhost w).mpr ⟨he, hw⟩⟩
    · rcases h with h | h
      · exact Proxy.tidy_of_said? ((hhost v).mp h).2
      · exact Proxy.tidy_of_said? ((hport v).mp h).2.2
  · have hb : m.get? "http.nonProxyHosts" = s.bypassText? := hhttp
    rw [hb, Option.ne_none_iff_exists', ← hexceptions]
    simp [Proxy.Settings.bypassText?_eq_some_iff]
  · rw [← hexceptions] at hb ⊢
    exact Proxy.splitAll_bypassText? (hhttp.symm.trans hv) hb

/-- A listing with a port that has no host, a host that has no port, and two exceptions. -/
private def uneven : String :=
  "HTTPEnable : 1\nHTTPPort : 80\nSOCKSEnable : 1\n SOCKSProxy :  p : q\n" ++
    "ExceptionsList : <array> \x7b\n 0 : *.local\n 1 : a : b\n\x7d\n"

theorem Record.properties_of_listing_uneven :
    let listed := Proxy.patterns (Proxy.trimmedLines uneven)
    let m := ({ proxy := some ((Proxy.Settings.ofListing uneven).applyPolicy .disable).1 } :
      Record).properties
    (∀ p ∈ listed, '|' ∉ p.toList) ∧ listed = ["*.local", "a : b"] ∧
      m.get? "http.proxyPort" = none ∧ m.get? "socksProxyHost" = some "p : q" ∧
      ∃ v, m.get? "http.nonProxyHosts" = some v ∧
        (splitAll (· == '|') v.toList).map .ofList = ["*.local", "a : b"] := by
  intro listed m
  have hl : listed = ["*.local", "a : b"] :=
    (Proxy.Settings.exceptions_ofListing uneven).symm.trans (by decide +kernel)
  have hb : ∀ p ∈ listed, '|' ∉ p.toList := by
    rw [hl]
    decide +kernel
  obtain ⟨hkinds, -, hlisted, hsplit⟩ := Record.properties_of_listing uneven {}
  obtain ⟨-, hport, -, hhttp, -⟩ := hkinds .http
  obtain ⟨-, -, -, hsocks, -⟩ := hkinds .socks
  have hnone : m.get? "http.proxyHost" = none := by
    have hs : Proxy.said? (Proxy.trimmedLines uneven) (.http, .host) = none := by decide +kernel
    rw [Option.eq_none_iff_forall_ne_some]
    intro v hv
    obtain ⟨-, hsaid⟩ := (hhttp v).mp hv
    rw [hs] at hsaid
    cases hsaid
  have hne : m.get? "http.nonProxyHosts" ≠ none := by
    apply hlisted.mpr
    intro he
    exact List.cons_ne_nil _ _ (hl.symm.trans he)
  obtain ⟨v, hv⟩ := Option.ne_none_iff_exists'.mp hne
  refine ⟨hb, hl, ?_, (hsocks "p : q").mpr (by decide +kernel), v, hv, hl ▸ hsplit v hv hb⟩
  by_contra h
  exact hport h hnone

end HostProfile
