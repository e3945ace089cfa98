import HostProfile.Proofs.Collect.Isolation
import HostProfile.Proofs.Collect.Reports
import HostProfile.Proofs.Record.Properties
import HostProfile.Proofs.Text.Utf8

/-! The user's name, by the place it is read at. A variable's bytes are kept as they are. What the
account tool prints goes through text, so that bytes that are none come out as replacement characters,
and nothing tells later that the name is not the user's. -/
namespace HostProfile

open Text

/-- The variable is unset or empty. -/
def Host.Lacks (h : Host) (key : String) : Prop :=
  h.value? key = none ∨ h.value? key = some []

/-- Where the user's name is read. -/
inductive NameOrigin where
  | user | logname | account
  deriving DecidableEq, Repr

namespace NameOrigin

/-- The name stands at this place and at no stronger one. The account tool ends it with a line
feed. -/
def Names (h : Host) (name : List UInt8) : NameOrigin → Prop
  | .user => h.value? "USER" = some name
  | .logname => h.Lacks "USER" ∧ h.value? "LOGNAME" = some name
  | .account =>
    h.Lacks "USER" ∧ h.Lacks "LOGNAME" ∧
      h.output? .userName = some (name ++ Utf8.encodeChar '\n')

/-- What is kept of a name. -/
def kept : NameOrigin → List UInt8 → List UInt8
  | .user, name | .logname, name => name
  | .account, name => Utf8.encode (Utf8.decodeLossy name)

theorem kept_eq_nil_iff (o : NameOrigin) (name : List UInt8) : o.kept name = [] ↔ name = [] := by
  cases o with
  | account => rw [kept, Utf8.encode_eq_nil_iff, Utf8.decodeLossy_eq_nil_iff]
  | _ => rfl

theorem kept_eq_iff (o : NameOrigin) (name : List UInt8) :
    o.kept name = name ↔ (o = .account → Utf8.decode? name ≠ none) := by
  cases o with
  | account => simp [kept, Utf8.encode_decodeLossy_eq_iff]
  | _ => simp [kept]

end NameOrigin

/-! ### Native text of bytes -/

theorem NativeText.toString?_of_encode (cs : List Char) :
    toString? (.narrow (Utf8.encode cs)) = .ok (.ofList cs) := by
  simp [toString?]

theorem NativeText.toString?_of_decode?_eq_none {bytes : List UInt8}
    (h : Utf8.decode? bytes = none) :
    toString? (.narrow bytes) = .error (.invalidUtf8 (Utf8.validLength bytes)) := by
  simp [toString?, h]

/-! ### The name that is found -/

namespace Collect

variable {h : Host} {name : List UInt8}

theorem not_namesUser_of_lacks (hu : h.Lacks "USER") (hl : h.Lacks "LOGNAME") :
    ¬ h.NamesUser := by
  rintro ⟨key, hk, value, hv, hne⟩
  have hlacks : h.Lacks key := by
    rcases List.mem_pair.mp hk with rfl | rfl
    · exact hu
    · exact hl
  rcases hlacks with hn | he
  · rw [hn] at hv
    cases hv
  · rw [he] at hv
    exact hne (Option.some.inj hv).symm

theorem userName_of_logname (hu : h.Lacks "USER") (hl : h.value? "LOGNAME" = some name)
    (hne : name ≠ []) : userName h = ⟨some (.narrow name), []⟩ := by
  have hf : (["USER", "LOGNAME"].filterMap h.value?).find? (!·.isEmpty) = some name := by
    rcases hu with hu | hu
    · rw [List.filterMap_cons_none hu, List.filterMap_cons_some hl,
        List.find?_cons_of_pos (by simpa using hne)]
    · rw [List.filterMap_cons_some hu, List.filterMap_cons_some hl,
        List.find?_cons_of_neg (by simp), List.find?_cons_of_pos (by simpa using hne)]
  rw [userName, hf]

theorem userName_of_account (hu : h.Lacks "USER") (hl : h.Lacks "LOGNAME")
    (ho : h.output? .userName = some (name ++ Utf8.encodeChar '\n')) (hn : Utf8.Unpadded name) :
    userName h = ⟨some (.narrow (Utf8.encode (Utf8.decodeLossy name))), []⟩ := by
  have hf : (["USER", "LOGNAME"].filterMap h.value?).find? (!·.isEmpty) = none :=
    (find?_eq_none_iff h).mpr (not_namesUser_of_lacks hu hl)
  have hb : AllBlank ['\n'] := by decide
  have ht : trim (Utf8.decodeLossy (name ++ Utf8.encodeChar '\n')) = Utf8.decodeLossy name := by
    rw [Utf8.decodeLossy_append_encodeChar, trim_append_right hb,
      trim_of_trimmed ((Utf8.trimmed_decodeLossy_iff name).mpr hn)]
  have ha : answer? h .userName = some (.ofList (Utf8.decodeLossy name)) := by
    simp only [answer?, Host.outputText?, ho, Option.map_some, String.toList_ofList, ht]
  rw [userName, hf]
  simp only [ha, NativeText.ofString, String.toList_ofList]

theorem userName_of_names {o : NameOrigin} (hne : name ≠ []) (hn : Utf8.Unpadded name)
    (hs : o.Names h name) : userName h = ⟨some (.narrow (o.kept name)), []⟩ := by
  cases o with
  | user => exact userName_of_variable hs hne
  | logname => exact userName_of_logname hs.1 hs.2 hne
  | account => exact userName_of_account hs.1 hs.2.1 hs.2.2 hn

end Collect

variable {name : List UInt8} {o : NameOrigin} {h : Host}

theorem native_userName_of_names (c : Config) (hne : name ≠ []) (hn : Utf8.Unpadded name)
    (hs : o.Names h name) :
    (collect c h).native .userName = some (.narrow (o.kept name)) := by
  have hk : o.kept name ≠ [] := (o.kept_eq_nil_iff name).not.mpr hne
  refine native_collect_of_narrow c hk ?_
  rw [Collect.native, Collect.userName_of_names hne hn hs]

theorem hasConversion_userName (c : Config) (hne : name ≠ []) (hn : Utf8.Unpadded name)
    (hs : o.Names h name) :
    (collect c h).HasConversion .userName (Record.conversion (some (.narrow (o.kept name)))) := by
  have hc := (collect c h).hasConversion_conversion .userName
  rwa [native_userName_of_names c hne hn hs] at hc

/-- A name is kept byte for byte, unless it is no text and the account tool gives it: there the record
has the text with replacement characters, and shows it as a property. Anywhere else such a name is no
property, and is reported. -/
theorem userName_exact (c : Config) (hne : name ≠ []) (hn : Utf8.Unpadded name)
    (hs : o.Names h name) :
    ((collect c h).native .userName = some (.narrow name) ↔
      (o = .account → Utf8.decode? name ≠ none)) ∧
    (∀ cs, Utf8.decode? name = some cs →
      (collect c h).HasConversion .userName (.property (.ofList cs))) ∧
    (Utf8.decode? name = none → o ≠ .account →
      (collect c h).HasConversion .userName
        (.unconvertible (.invalidUtf8 (Utf8.validLength name)))) ∧
    (Utf8.decode? name = none → o = .account →
      '\uFFFD' ∈ Utf8.decodeLossy name ∧
      (collect c h).HasConversion .userName (.property (.ofList (Utf8.decodeLossy name)))) := by
  have hc := hasConversion_userName c hne hn hs
  refine ⟨?kept, fun cs hd => ?text, fun hd ho => ?reported, fun hd ho => ?replaced⟩
  case kept =>
    rw [native_userName_of_names c hne hn hs, Option.some.injEq, NativeText.narrow.injEq]
    exact o.kept_eq_iff name
  case text =>
    have hk : o.kept name = Utf8.encode cs := by
      rw [(o.kept_eq_iff name).mpr fun _ => by simp [hd]]
      exact (Utf8.decode?_eq_some_iff name cs).mp hd
    rwa [hk, Record.conversion, NativeText.toString?_of_encode] at hc
  case reported =>
    have hk : o.kept name = name := (o.kept_eq_iff name).mpr fun ha => absurd ha ho
    rwa [hk, Record.conversion, NativeText.toString?_of_decode?_eq_none hd] at hc
  case replaced =>
    subst ho
    rw [NameOrigin.kept, Record.conversion, NativeText.toString?_of_encode] at hc
    exact ⟨Utf8.replacement_mem_decodeLossy hd, hc⟩

/-- A name that is no text, read from a variable that stands behind an empty one. -/
theorem userName_exact_logname :
    let name : List UInt8 := [0x61, 0xFF]
    let h : Host := { environment := [("USER", []), ("LOGNAME", name)] }
    name ≠ [] ∧ Utf8.Unpadded name ∧ NameOrigin.logname.Names h name ∧
      (collect {} h).native .userName = some (.narrow name) ∧
      (collect {} h).HasConversion .userName (.unconvertible (.invalidUtf8 1)) := by
  intro name h
  have hne : name ≠ [] := by decide
  have hn : Utf8.Unpadded name := by decide +kernel
  have hs : NameOrigin.logname.Names h name := ⟨.inr (by decide), by decide⟩
  have ho : NameOrigin.logname ≠ .account := by decide
  have hd : Utf8.decode? name = none := by decide +kernel
  obtain ⟨hk, -, hr, -⟩ := userName_exact {} hne hn hs
  have hl : Utf8.validLength name = 1 := by decide +kernel
  have hc := hr hd ho
  rw [hl] at hc
  exact ⟨hne, hn, hs, hk.mpr fun ha => absurd ha ho, hc⟩

/-- The byte `FF` from the account tool becomes the three bytes of a replacement character. -/
theorem userName_of_account_not_text :
    let name : List UInt8 := [0xFF]
    let h : Host :=
      { output? := fun command =>
          if command = .userName then some (name ++ Utf8.encodeChar '\n') else none }
    Utf8.Unpadded name ∧ NameOrigin.account.Names h name ∧
      (collect {} h).native .userName = some (.narrow [0xEF, 0xBF, 0xBD]) ∧
      (collect {} h).HasConversion .userName (.property "\uFFFD") := by
  intro name h
  have hne : name ≠ [] := by decide
  have hn : Utf8.Unpadded name := by decide +kernel
  have hs : NameOrigin.account.Names h name := ⟨.inl rfl, .inl rfl, rfl⟩
  have hl : Utf8.decodeLossy name = ['\uFFFD'] := by decide +kernel
  have he : Utf8.encode ['\uFFFD'] = [0xEF, 0xBF, 0xBD] := by decide +kernel
  have hk : NameOrigin.account.kept name = [0xEF, 0xBF, 0xBD] := by
    rw [NameOrigin.kept, hl, he]
  have hc := hasConversion_userName {} hne hn hs
  rw [NameOrigin.kept, hl, Record.conversion, NativeText.toString?_of_encode] at hc
  refine ⟨hn, hs, ?_, hc⟩
  rw [native_userName_of_names {} hne hn hs, hk]

end HostProfile
