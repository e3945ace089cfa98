import HostProfile.NativeText
import HostProfile.Proofs.Text.Utf16

/-! Wide text converts exactly if its units are the UTF-16 form of a text, which is if no surrogate
stands in it without its other half beside it. -/
namespace HostProfile.NativeText

open Text

theorem toString?_wide_eq_ok_iff (us : List UInt16) (s : String) :
    (wide us).toString? = .ok s ↔ Utf16.decode? us = some s.toList := by
  simp only [toString?]
  cases Utf16.decode? us with
  | none => simp
  | some cs => simp [String.ofList_eq]

theorem toString?_wide_eq_error_iff (us : List UInt16) (e : ConversionError) :
    (wide us).toString? = .error e ↔ Utf16.decode? us = none ∧ e = .invalidUtf16 := by
  simp only [toString?]
  cases Utf16.decode? us with
  | none => simp [eq_comm]
  | some cs => simp

/-- Units convert to the text that is written as they are, and to no other. Written is a character
below `10000` as the one unit of its number, and any other as the two halves of what its number
exceeds that by. Units do not convert exactly if one of them is a surrogate whose neighbour is not
its other half, and then the error says so. -/
theorem toString?_wide_exact :
    (∀ (us : List UInt16) (s : String),
      (wide us).toString? = .ok s ↔ us = Utf16.encode s.toList) ∧
    (∀ (us : List UInt16) (cs : List Char), us = Utf16.encode cs ↔ Utf16.Spells us cs) ∧
    ∀ (us : List UInt16) (e : ConversionError),
      (wide us).toString? = .error e ↔ e = .invalidUtf16 ∧ ∃ i, Utf16.UnpairedAt us i := by
  refine ⟨fun us s => ?_, fun us cs => (Utf16.spells_iff us cs).symm, fun us e => ?_⟩
  · rw [toString?_wide_eq_ok_iff, Utf16.decode?_eq_some_iff]
  · rw [toString?_wide_eq_error_iff, Utf16.decode?_eq_none_iff, and_comm]

/-- The halves in the wrong order. -/
example : (wide [0x43, 0xDE00, 0xD83D]).toString? = .error .invalidUtf16 := by decide

end HostProfile.NativeText
