import HostProfile.Proofs.Json
import HostProfile.Proofs.Record.Properties
import HostProfile.Record.Written

/-! The flat view of a record, read off its JSON form. Whatever the JSON form leaves out of a record,
the flat view leaves out as well: records that are written alike have the same properties. -/
namespace HostProfile

open Json

def Locale.Part.fieldName : Locale.Part → String
  | .language => "language"
  | .script => "script"
  | .country => "country"
  | .variant => "variant"

namespace Json

def textAt? (path : List String) (v : Json) : Option String :=
  (at? path v).bind text?

def textsAt? (path : List String) (v : Json) : Option (List String) :=
  (at? path v).bind texts?

/-- A text of an enabled endpoint. -/
def endpointTextAt? (kind : Proxy.Kind) (field : String) (v : Json) : Option String :=
  if (at? ["proxy", kind.fieldName, "enabled"] v).bind bool? = some true then
    textAt? ["proxy", kind.fieldName, field] v
  else none

/-- The value of a source, as read off the JSON form of a record. -/
def property? (v : Json) : Record.Source → Option String
  | .text field => textAt? [field.name] v
  | .native field => textAt? [field.name] v
  | .displayPart part => textAt? ["display_locale", part.fieldName] v
  | .formatPart part =>
    if textAt? ["format_locale", part.fieldName] v = textAt? ["display_locale", part.fieldName] v
    then none
    else textAt? ["format_locale", part.fieldName] v
  | .unicodeOrder => textAt? ["unicode_encoding"] v
  | .instructionSets => (textsAt? ["cpu_isalist"] v).map fun sets => " ".intercalate sets
  | .proxyHost kind => endpointTextAt? kind "host" v
  | .proxyPort kind => endpointTextAt? kind "port" v
  | .httpBypass | .ftpBypass =>
    ((textsAt? ["proxy", "exceptions"] v).filter (!·.isEmpty)).map fun xs => "|".intercalate xs

/-- The properties, as read off the JSON form of a record. -/
def properties (v : Json) : Dictionary String :=
  .ofList (Record.Source.all.filterMap fun s => (v.property? s).map fun w => (s.key, w))

theorem Same.property?_eq {v w : Json} (h : Same v w) (s : Record.Source) :
    v.property? s = w.property? s := by
  have ht (path : List String) : textAt? path v = textAt? path w := h.bind_at? Same.text?_eq path
  have hs (path : List String) : textsAt? path v = textsAt? path w := h.bind_at? Same.texts?_eq path
  have he (kind : Proxy.Kind) (field : String) :
      endpointTextAt? kind field v = endpointTextAt? kind field w := by
    simp only [endpointTextAt?, h.bind_at? Same.bool?_eq, ht]
  cases s <;> simp only [property?, ht, hs, he]

theorem Same.properties_eq {v w : Json} (h : Same v w) : v.properties = w.properties := by
  simp only [properties, h.property?_eq]

end Json

/-! ### What the JSON form holds -/

namespace Record

section Entries

-- the entries are fixed texts and their values, so that a look-up is a walk along them
attribute [local simp] at? toJson textEntry nativeEntry TextField.name NativeField.name
  Locale.toJson Locale.Part.fieldName Locale.part Proxy.Endpoint.toJson Proxy.Settings.toJson
  Proxy.Kind.all Proxy.Kind.fieldName valueAt?_cons valueAt?_nil

theorem at?_text (r : Record) (f : TextField) :
    at? [f.name] r.toJson = some (.ofText? (r.text f)) := by
  cases f <;> simp

/-- Native text is written as it is shown, and null if it does not convert. -/
theorem at?_native (r : Record) (f : NativeField) :
    at? [f.name] r.toJson = some (.ofText? (r.property? (.native f))) := by
  have hs : (r.nativeEntry f).2 = .ofText? (r.property? (.native f)) := by
    cases hn : r.native f with
    | none => simp [property?, hn, ofText?]
    | some t =>
      cases ht : t.toString? <;>
        simp [NativeText.toJson, property?, hn, ht, ofText?, Except.toOption]
  rw [← hs]
  cases f <;> simp

theorem at?_displayLocale (r : Record) (path : List String) :
    at? ("display_locale" :: path) r.toJson = at? path r.displayLocale.toJson := by
  simp

theorem at?_formatLocale (r : Record) (path : List String) :
    at? ("format_locale" :: path) r.toJson = at? path r.formatLocale.toJson := by
  simp

theorem at?_part (l : Locale) (p : Locale.Part) :
    at? [p.fieldName] l.toJson = some (.ofText? (l.part p)) := by
  cases p <;> simp

theorem at?_unicodeOrder (r : Record) :
    at? ["unicode_encoding"] r.toJson = some (.text r.unicodeOrder.unicodeName) := by
  simp

theorem at?_instructionSets (r : Record) :
    at? ["cpu_isalist"] r.toJson = some r.instructionSetsJson := by
  simp

theorem at?_proxy (r : Record) (path : List String) :
    at? ("proxy" :: path) r.toJson = r.proxy.bind fun p => at? path p.toJson := by
  cases hp : r.proxy <;> simp [hp]

theorem at?_endpoint (p : Proxy.Settings) (k : Proxy.Kind) (path : List String) :
    at? (k.fieldName :: path) p.toJson = at? path (p.endpoint k).toJson := by
  cases k <;> simp

theorem at?_exceptions (p : Proxy.Settings) :
    at? ["exceptions"] p.toJson = some (.array (p.exceptions.map .text)) := by
  simp

theorem at?_enabled (e : Proxy.Endpoint) : at? ["enabled"] e.toJson = some (.bool e.enabled) := by
  simp

theorem at?_host (e : Proxy.Endpoint) : at? ["host"] e.toJson = some (.ofText? e.host) := by
  simp

theorem at?_port (e : Proxy.Endpoint) : at? ["port"] e.toJson = some (.ofText? e.port) := by
  simp

end Entries

/-! ### The flat view -/

theorem endpointTextAt?_toJson (r : Record) (k : Proxy.Kind) {field : String}
    {value : Proxy.Endpoint → Option String}
    (hv : ∀ e : Proxy.Endpoint, at? [field] e.toJson = some (.ofText? (value e))) :
    endpointTextAt? k field r.toJson = (r.enabledEndpoint? k).bind value := by
  simp only [endpointTextAt?, textAt?, at?_proxy, enabledEndpoint?]
  cases r.proxy with
  | none => rfl
  | some p =>
    simp only [Option.bind_some, Option.map_some, at?_endpoint, at?_enabled, hv, text?_ofText?,
      bool?]
    cases h : (p.endpoint k).enabled <;> simp [h, Option.filter_some]

/-- Each source says in the JSON form what it says in the record. -/
theorem property?_toJson (r : Record) (s : Source) : r.toJson.property? s = r.property? s := by
  have ht {path : List String} {v : Option String} (h : at? path r.toJson = some (.ofText? v)) :
      textAt? path r.toJson = v := by
    rw [textAt?, h, Option.bind_some, text?_ofText?]
  have hd (p : Locale.Part) : textAt? ["display_locale", p.fieldName] r.toJson =
      r.displayLocale.part p := ht (by rw [at?_displayLocale, at?_part])
  have hf (p : Locale.Part) : textAt? ["format_locale", p.fieldName] r.toJson =
      r.formatLocale.part p := ht (by rw [at?_formatLocale, at?_part])
  cases s with
  | text f => exact ht (r.at?_text f)
  | native f => exact ht (r.at?_native f)
  | displayPart p => exact hd p
  | formatPart p => simp only [Json.property?, hd, hf, property?]
  | unicodeOrder => exact ht (v := some _) r.at?_unicodeOrder
  | instructionSets =>
    simp only [Json.property?, textsAt?, at?_instructionSets, Option.bind_some, property?,
      instructionSetsJson]
    cases r.instructionSets with
    | none => rfl
    | some sets => simp [texts?_array]
  | proxyHost k => exact r.endpointTextAt?_toJson k at?_host
  | proxyPort k => exact r.endpointTextAt?_toJson k at?_port
  | _ =>
    simp only [Json.property?, textsAt?, at?_proxy, property?]
    cases r.proxy with
    | none => rfl
    | some p =>
      simp only [Option.bind_some, at?_exceptions, texts?_array, Proxy.Settings.bypassText?]
      cases p.exceptions <;> simp [Option.filter_some]

theorem properties_toJson (r : Record) : r.toJson.properties = r.properties := by
  simp only [Json.properties, property?_toJson]
  rfl

/-- The sources of the properties that only a proxy has. -/
def Source.ofProxy : List Source :=
  Proxy.Kind.all.flatMap (fun k => [.proxyHost k, .proxyPort k]) ++ [.httpBypass, .ftpBypass]

theorem property?_of_proxy_eq_none {r : Record} (h : r.proxy = none) {s : Source}
    (hs : s ∈ Source.ofProxy) : r.property? s = none := by
  have hc : (∃ k, s = .proxyHost k ∨ s = .proxyPort k) ∨ s = .httpBypass ∨ s = .ftpBypass := by
    simpa [Source.ofProxy, Proxy.Kind.mem_all] using hs
  rcases hc with ⟨k, rfl | rfl⟩ | rfl | rfl <;> simp [property?, enabledEndpoint?, h]

/-- The properties are read off the JSON form of a record, in which the order of entries does not
count, and so records whose JSON forms are the same have the same properties. Native text is null in
the one where it is missing from the other, and without a proxy in the one no property of the other
tells of any. -/
theorem properties_of_json :
    (∀ r : Record, r.toJson.properties = r.properties) ∧
    (∀ v w, Same v w → v.properties = w.properties) ∧
    (∀ r s : Record, Same r.toJson s.toJson → r.properties = s.properties) ∧
    (∀ (r : Record) (f : NativeField),
      at? [f.name] r.toJson = some (.ofText? (r.properties.get? f.propertyKey))) ∧
    (∀ (r : Record) (f : NativeField) (t : NativeText) (e : ConversionError),
      r.native f = some t → t.toString? = .error e →
        at? [f.name] r.toJson = some .null ∧ r.properties.get? f.propertyKey = none) ∧
    (∀ r : Record, at? ["proxy"] r.toJson = none →
      ∀ s ∈ Source.ofProxy, r.properties.get? s.key = none) := by
  have hg (r : Record) (f : NativeField) :
      r.properties.get? f.propertyKey = r.property? (.native f) := r.get?_properties_key (.native f)
  refine ⟨properties_toJson, fun v w => Same.properties_eq, fun r s h => ?_, fun r f => ?_,
    fun r f t e hn ht => ?_, fun r hp s hs => ?_⟩
  · rw [← r.properties_toJson, h.properties_eq, properties_toJson]
  · rw [hg, at?_native]
  · have hv : r.property? (.native f) = none := by simp [property?, hn, ht, Except.toOption]
    exact ⟨by rw [at?_native, hv]; rfl, by rw [hg, hv]⟩
  · have hr : r.proxy = none := by
      rw [at?_proxy] at hp
      cases h : r.proxy with
      | none => rfl
      | some p => simp [h, at?] at hp
    rw [get?_properties_key, property?_of_proxy_eq_none hr hs]

/-- Two records that only their JSON form and their properties do not tell apart: of one the user's
name does not convert, and the other has none. -/
theorem properties_of_json_unconvertible :
    let name : NativeText := .narrow [0x61, 0xFF]
    let r : Record := ofAssignments [.native .userName (some name), .text .osName (some "Linux")]
    let s : Record := ofAssignments [.text .osName (some "Linux")]
    r.native .userName = some name ∧ s.native .userName = none ∧
      name.toString? = .error (.invalidUtf8 1) ∧
      Same r.toJson s.toJson ∧ r.properties = s.properties ∧
      at? ["user_name"] r.toJson = some .null ∧ r.properties.get? "user.name" = none ∧
      at? ["proxy"] r.toJson = none ∧ r.properties.get? "http.proxyHost" = none := by
  intro name r s
  obtain ⟨-, -, hs, -, hn, hp⟩ := properties_of_json
  have ht : name.toString? = .error (.invalidUtf8 1) := by decide +kernel
  have hr : r.toJson = s.toJson := by
    have he : r.nativeEntry .userName = s.nativeEntry .userName := by
      have hu : r.native .userName = some name := rfl
      simp only [nativeEntry, hu, NativeText.toJson, ht]
      rfl
    unfold toJson
    simp only [List.map_cons, he]
    rfl
  have hsame : Same r.toJson s.toJson := hr ▸ Same.refl _
  obtain ⟨hj, hg⟩ := hn r .userName name _ rfl ht
  have hproxy : at? ["proxy"] r.toJson = none := r.at?_proxy []
  exact ⟨rfl, rfl, ht, hsame, hs r s hsame, hj, hg, hproxy,
    hp r hproxy (.proxyHost .http) (by decide)⟩

end Record

end HostProfile
