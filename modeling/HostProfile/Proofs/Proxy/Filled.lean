import HostProfile.Proofs.Text.Blank
import HostProfile.Proxy.Listing
import HostProfile.Proxy.Policy

/-! Proxy settings that are read from a listing contain no empty text, whatever the listing says. -/
namespace HostProfile.Proxy

open Text

theorem nonEmpty?_ne_empty (s : String) : nonEmpty? s ≠ some "" := by
  rw [Ne, nonEmpty?_eq_some_iff]
  exact fun h => h.1 h.2

structure Endpoint.Filled (e : Endpoint) : Prop where
  host : e.host ≠ some ""
  port : e.port ≠ some ""

/-- No text in the settings is there but empty. -/
structure Settings.Filled (s : Settings) : Prop where
  endpoint : ∀ k, (s.endpoint k).Filled
  exceptions : "" ∉ s.exceptions

/-- An empty value leaves its place empty. -/
theorem Endpoint.Filled.set {e : Endpoint} (h : e.Filled) (value : String) (field : Field) :
    (e.set value field).Filled := by
  cases field with
  | enable => exact ⟨h.host, h.port⟩
  | host => exact ⟨nonEmpty?_ne_empty value, h.port⟩
  | port => exact ⟨h.host, nonEmpty?_ne_empty value⟩

namespace Settings

theorem filled_empty : Filled {} :=
  ⟨fun _ => ⟨by simp, by simp⟩, by simp⟩

theorem Filled.setEndpoint {s : Settings} (h : s.Filled) (kind : Kind) {e : Endpoint}
    (he : e.Filled) : (s.setEndpoint kind e).Filled := by
  refine ⟨fun k => ?_, h.exceptions⟩
  rw [endpoint_setEndpoint]
  split
  · exact he
  · exact h.endpoint k

theorem Filled.addException {s : Settings} (h : s.Filled) {pattern : String} (hp : pattern ≠ "") :
    Filled { s with exceptions := s.exceptions ++ [pattern] } := by
  refine ⟨h.endpoint, fun he => ?_⟩
  rcases List.mem_append.mp he with he | he
  · exact h.exceptions he
  · exact hp (List.mem_singleton.mp he).symm

theorem Filled.applyPolicy {s : Settings} (h : s.Filled) (policy : Policy) :
    (s.applyPolicy policy).1.Filled := by
  cases policy with
  | passThrough => exact h
  | disable =>
    refine ⟨fun k => ?_, h.exceptions⟩
    simp only [Settings.applyPolicy, disablePartial]
    split
    · exact ⟨(h.endpoint k).host, (h.endpoint k).port⟩
    · exact h.endpoint k

end Settings

namespace Listing

theorem filled_addException {l : Listing} (h : l.settings.Filled) (line : List Char) :
    (l.addException line).settings.Filled := by
  unfold addException
  split
  · split
    · exact h
    · next hp => exact h.addException (by simpa using hp)
  · exact h

theorem filled_addEntry {l : Listing} (h : l.settings.Filled) (line : List Char) :
    (l.addEntry line).settings.Filled := by
  unfold addEntry
  split
  · exact h
  · split
    · exact h
    · split
      · exact h.setEndpoint _ ((h.endpoint _).set ..)
      · exact h

theorem filled_step {l : Listing} (h : l.settings.Filled) (line : List Char) :
    (l.step line).settings.Filled := by
  simp only [step]
  split
  · split
    · exact h
    · exact filled_addException h _
  · exact filled_addEntry h _

theorem filled_foldl {l : Listing} (h : l.settings.Filled) (lines : List (List Char)) :
    (lines.foldl step l).settings.Filled := by
  induction lines generalizing l with
  | nil => exact h
  | cons line lines ih => exact ih (filled_step h line)

end Listing

theorem Settings.filled_ofListing (listing : String) : (ofListing listing).Filled :=
  Listing.filled_foldl filled_empty _

end HostProfile.Proxy
