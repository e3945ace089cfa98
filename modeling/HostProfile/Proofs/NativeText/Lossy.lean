import HostProfile.Proofs.NativeText.Narrow
import HostProfile.Proofs.NativeText.Wide

/-! Native text shown to people. Text that converts is shown as it is, text that does not has a
replacement character in it, and damage in the middle of a text stays there: what is shown of it is
the same whatever text stands before and behind it. -/
namespace HostProfile

open Text

namespace Text.Utf8

theorem take_validLength (bs : List UInt8) :
    bs.take (validLength bs) = encode (wellFormedStart bs) := by
  have h := encode_wellFormedStart_prefix bs
  exact (List.prefix_iff_eq_take.mp h).symm

/-- Bytes that cannot be read show what stands before the first ill-formed piece, and then a
replacement character. -/
theorem decodeLossy_of_decode?_eq_none {bs : List UInt8} (h : decode? bs = none) :
    ∃ cs, decodeLossy bs = wellFormedStart bs ++ '\uFFFD' :: cs := by
  have hs := scan_eq_append bs
  have hd := List.head?_dropWhile_not Option.isSome (scan bs)
  cases hr : (scan bs).dropWhile Option.isSome with
  | nil =>
    rw [hr, List.append_nil] at hs
    rw [eq_encode_of_scan hs, decode?_encode] at h
    cases h
  | cons x xs =>
    rw [hr] at hs hd
    cases x with
    | some c => cases hd
    | none =>
      refine ⟨xs.map (·.getD '\uFFFD'), ?_⟩
      rw [decodeLossy, hs]
      simp [Function.comp_def]

end Text.Utf8

namespace NativeText

theorem toStringLossy_narrow_append (s t : String) (bs : List UInt8) :
    (narrow (s.toUTF8.data.toList ++ bs ++ t.toUTF8.data.toList)).toStringLossy =
      s ++ (narrow bs).toStringLossy ++ t := by
  simp only [toStringLossy, ← Utf8.encode_toList, Utf8.decodeLossy_append_encode,
    Utf8.decodeLossy_encode_append, String.ofList_append, String.ofList_toList]

theorem toStringLossy_wide_append (s t : String) (us : List UInt16) :
    (wide (Utf16.encode s.toList ++ us ++ Utf16.encode t.toList)).toStringLossy =
      s ++ (wide us).toStringLossy ++ t := by
  simp only [toStringLossy, Utf16.decodeLossy_append_encode, Utf16.decodeLossy_encode_append,
    String.ofList_append, String.ofList_toList]

theorem toStringLossy_of_toString? {t : NativeText} {s : String} (h : t.toString? = .ok s) :
    t.toStringLossy = s := by
  cases t with
  | narrow bs =>
    have hd := (toString?_narrow_eq_ok_iff bs s).mp h
    rw [toStringLossy, (Utf8.decode?_eq_some_iff bs _).mp hd, Utf8.decodeLossy_encode,
      String.ofList_toList]
  | wide us =>
    have hd := (toString?_wide_eq_ok_iff us s).mp h
    rw [toStringLossy, (Utf16.decode?_eq_some_iff us _).mp hd, Utf16.decodeLossy_encode,
      String.ofList_toList]

theorem replacement_mem_toStringLossy {t : NativeText} {e : ConversionError}
    (h : t.toString? = .error e) : '\uFFFD' ∈ t.toStringLossy.toList := by
  cases t with
  | narrow bs =>
    rw [toStringLossy, String.toList_ofList]
    exact Utf8.replacement_mem_decodeLossy ((toString?_narrow_eq_error_iff bs e).mp h).1
  | wide us =>
    rw [toStringLossy, String.toList_ofList]
    exact Utf16.replacement_mem_decodeLossy ((toString?_wide_eq_error_iff us e).mp h).1

/-- What is shown of bytes that do not convert begins with their longest start that does. -/
theorem toStringLossy_of_invalidUtf8 {bs : List UInt8} {n : ℕ}
    (h : (narrow bs).toString? = .error (.invalidUtf8 n)) :
    ∃ s r : String, (narrow (bs.take n)).toString? = .ok s ∧
      (narrow bs).toStringLossy = s ++ "\uFFFD" ++ r := by
  obtain ⟨hd, he⟩ := (toString?_narrow_eq_error_iff bs _).mp h
  obtain rfl : n = Utf8.validLength bs := by injection he
  obtain ⟨cs, hcs⟩ := Utf8.decodeLossy_of_decode?_eq_none hd
  refine ⟨.ofList (Utf8.wellFormedStart bs), .ofList cs, ?_, ?_⟩
  · rw [toString?_narrow_eq_ok_iff, Utf8.take_validLength, Utf8.decode?_encode,
      String.toList_ofList]
  · rw [toStringLossy, hcs, List.append_cons, String.ofList_append, String.ofList_append]

/-- Text that converts is shown as it is. Text that does not is shown with a replacement character,
which in bytes stands right behind what they convert to up to the place of the error. Text around
damage is shown around what is shown of the damage, in either width, and what has been shown is
shown again as it is. -/
theorem toStringLossy_exact :
    (∀ (t : NativeText) (s : String), t.toString? = .ok s → t.toStringLossy = s) ∧
    (∀ (t : NativeText) (e : ConversionError), t.toString? = .error e →
      '\uFFFD' ∈ t.toStringLossy.toList) ∧
    (∀ (bs : List UInt8) (n : ℕ), (narrow bs).toString? = .error (.invalidUtf8 n) →
      ∃ s r : String, (narrow (bs.take n)).toString? = .ok s ∧
        (narrow bs).toStringLossy = s ++ "\uFFFD" ++ r) ∧
    (∀ (s t : String) (bs : List UInt8),
      (narrow (s.toUTF8.data.toList ++ bs ++ t.toUTF8.data.toList)).toStringLossy =
        s ++ (narrow bs).toStringLossy ++ t) ∧
    (∀ (s t : String) (us : List UInt16),
      (wide (Utf16.encode s.toList ++ us ++ Utf16.encode t.toList)).toStringLossy =
        s ++ (wide us).toStringLossy ++ t) ∧
    ∀ t : NativeText,
      (narrow t.toStringLossy.toUTF8.data.toList).toStringLossy = t.toStringLossy ∧
        (wide (Utf16.encode t.toStringLossy.toList)).toStringLossy = t.toStringLossy := by
  refine ⟨fun t s => toStringLossy_of_toString?, fun t e => replacement_mem_toStringLossy,
    fun bs n => toStringLossy_of_invalidUtf8, toStringLossy_narrow_append,
    toStringLossy_wide_append, fun t => ⟨?_, ?_⟩⟩
  · rw [← Utf8.encode_toList, toStringLossy, Utf8.decodeLossy_encode, String.ofList_toList]
  · rw [toStringLossy, Utf16.decodeLossy_encode, String.ofList_toList]

/-- A character of three bytes that breaks off after two, before one of two bytes, and a first half
before a character of two halves. -/
theorem toStringLossy_exact_broken :
    (narrow [0xC3, 0xA9, 0x78]).toString? = .ok "éx" ∧
    (narrow [0xC3, 0xA9, 0x78]).toStringLossy = "éx" ∧
    (narrow [0x78, 0xE2, 0x82, 0xC3, 0xA9]).toString? = .error (.invalidUtf8 1) ∧
    (∃ s r : String, (narrow [0x78]).toString? = .ok s ∧
      (narrow [0x78, 0xE2, 0x82, 0xC3, 0xA9]).toStringLossy = s ++ "\uFFFD" ++ r) ∧
    (wide [0x78, 0xD83D, 0xD83D, 0xDE00]).toString? = .error .invalidUtf16 ∧
    '\uFFFD' ∈ (wide [0x78, 0xD83D, 0xD83D, 0xDE00]).toStringLossy.toList := by
  obtain ⟨hok, herror, hbytes, -⟩ := toStringLossy_exact
  have ht : (narrow [0xC3, 0xA9, 0x78]).toString? = .ok "éx" := by decide
  have hn : (narrow [0x78, 0xE2, 0x82, 0xC3, 0xA9]).toString? = .error (.invalidUtf8 1) := by decide
  have hw : (wide [0x78, 0xD83D, 0xD83D, 0xDE00]).toString? = .error .invalidUtf16 := by decide
  exact ⟨ht, hok _ _ ht, hn, hbytes _ _ hn, hw, herror _ _ hw⟩

end NativeText

end HostProfile
