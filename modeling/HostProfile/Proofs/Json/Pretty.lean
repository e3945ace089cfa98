import HostProfile.Json
import Mathlib.Data.List.Basic

/-! JSON text has no control characters in it but the line feeds between its lines, whatever texts it
is made from. -/
namespace HostProfile

/-- No character is a control character of the ASCII range. -/
def Visible (cs : List Char) : Prop :=
  ∀ c ∈ cs, 0x20 ≤ c.toNat

/-- No character is a control character of the ASCII range, but for line feeds. -/
def Printed (s : String) : Prop :=
  ∀ c ∈ s.toList, c = '\n' ∨ 0x20 ≤ c.toNat

-- The search through the list is named: one through all characters would be found as well.
instance (cs : List Char) : Decidable (Visible cs) :=
  List.decidableBAll (fun c : Char => 0x20 ≤ c.toNat) cs

instance (s : String) : Decidable (Printed s) :=
  List.decidableBAll (fun c : Char => c = '\n' ∨ 0x20 ≤ c.toNat) s.toList

theorem Visible.append {a b : List Char} (ha : Visible a) (hb : Visible b) : Visible (a ++ b) :=
  List.forall_mem_append.mpr ⟨ha, hb⟩

theorem Visible.cons {c : Char} {cs : List Char} (hc : 0x20 ≤ c.toNat) (h : Visible cs) :
    Visible (c :: cs) :=
  List.forall_mem_cons.mpr ⟨hc, h⟩

theorem Visible.take {cs : List Char} (h : Visible cs) (n : Nat) : Visible (cs.take n) :=
  fun c hc => h c (List.mem_of_mem_take hc)

theorem Visible.drop {cs : List Char} (h : Visible cs) (n : Nat) : Visible (cs.drop n) :=
  fun c hc => h c (List.mem_of_mem_drop hc)

theorem visible_replicate {c : Char} (hc : 0x20 ≤ c.toNat) (n : Nat) :
    Visible (List.replicate n c) := by
  intro d hd
  rwa [List.eq_of_mem_replicate hd]

theorem visible_toDigits (n : Nat) : Visible (Nat.toDigits 10 n) := by
  intro c hc
  have hd : c.isDigit = true := Nat.isDigit_of_mem_toDigits (by decide) (by decide) hc
  have hz : '0'.toNat = 0x30 := rfl
  have h := (Char.isDigit_iff_toNat.mp hd).1
  omega

theorem Visible.printed {cs : List Char} (h : Visible cs) : Printed (.ofList cs) := by
  intro c hc
  rw [String.toList_ofList] at hc
  exact .inr (h c hc)

theorem Printed.append {s t : String} (hs : Printed s) (ht : Printed t) : Printed (s ++ t) := by
  intro c hc
  rw [String.toList_append] at hc
  exact (List.mem_append.mp hc).elim (hs c) (ht c)

/-! ### Numbers -/

theorem printed_int (n : Int) : Printed (toString n) := by
  have hn (m : Nat) : Printed (toString m) := by
    rw [Nat.toString_eq_repr, Nat.repr_eq_ofList_toDigits]
    exact (visible_toDigits m).printed
  cases n with
  | ofNat m => exact hn m
  | negSucc m => exact Printed.append (by decide) (hn (m + 1))

namespace Binary64

theorem visible_positional (d : Nat) (k : Int) : Visible (positional d k) := by
  have hzeros (n : Nat) : Visible (List.replicate n '0') := visible_replicate (by decide) n
  have hpadded (n : Nat) : Visible (List.replicate n '0' ++ Nat.toDigits 10 d) :=
    (hzeros n).append (visible_toDigits d)
  unfold positional
  dsimp only
  split
  · exact (visible_toDigits d).append (hzeros _)
  · exact ((hpadded _).take _).append (.cons (by decide) ((hpadded _).drop _))

theorem visible_scientific (d : Nat) (k : Int) : Visible (scientific d k) := by
  have hdigits : Visible (Nat.toDigits 10 d) := visible_toDigits d
  have hexponent (negative : Prop) [Decidable negative] (e : Nat) :
      Visible ('e' :: (if negative then '-' else '+') :: Nat.toDigits 10 e) := by
    refine .cons (by decide) (.cons ?_ (visible_toDigits e))
    split <;> decide
  unfold scientific
  dsimp only
  refine ((hdigits.take 1).append ?_).append (hexponent _ _)
  split
  · decide
  · exact .cons (by decide) (hdigits.drop 1)

theorem printed_signed {cs : List Char} (h : Visible cs) (negative : Bool) :
    Printed (signed negative cs) := by
  refine Visible.printed ?_
  split
  · exact .cons (by decide) h
  · exact h

end Binary64

namespace Json

open Binary64

theorem printed_decimalText (x : Binary64) : Printed (decimalText x) := by
  unfold decimalText
  split
  · exact printed_signed (by decide) _
  · next negative m q _ =>
    generalize shortest m q = e
    obtain ⟨d, k⟩ := e
    dsimp only
    refine printed_signed ?_ _
    split
    · exact visible_scientific _ _
    · split
      · exact (visible_positional _ _).append (by decide)
      · exact visible_positional _ _
  · next _ hx =>
    cases x with
    | finite negative m q => exact absurd rfl (hx negative m q)
    | infinite negative => exact printed_signed (by decide) negative
    | undefined => exact (by decide : Printed "NaN")

/-! ### Values -/

theorem visible_escapedChar (c : Char) : Visible (escapedChar c) := by
  have hdigit (n : Nat) : 0x20 ≤ (hexDigit n).toNat := by
    have h : ∀ m < 16, 0x20 ≤ (Nat.digitChar m).toNat := by decide
    exact h _ (Nat.mod_lt n (by decide))
  unfold escapedChar
  split
  case h_8 =>
    split
    · exact Visible.append (a := ['\\', 'u', '0', '0']) (by decide)
        (.cons (hdigit _) (.cons (hdigit _) (by decide)))
    · next h => exact .cons (by omega) (by decide)
  all_goals decide

theorem printed_quote (s : String) : Printed (quote s) := by
  have hs : Visible (s.toList.flatMap escapedChar) :=
    List.forall_mem_flatMap.mpr fun c _ => visible_escapedChar c
  exact Visible.printed ((Visible.cons (by decide) hs).append (by decide))

theorem printed_atom (v : Json) : Printed (atom v) := by
  cases v with
  | null => exact (by decide : Printed "null")
  | bool b =>
    cases b with
    | false => exact (by decide : Printed "false")
    | true => exact (by decide : Printed "true")
  | integer n => exact printed_int n
  | decimal x =>
    cases x with
    | finite negative m q => exact printed_decimalText _
    | infinite negative => exact (by decide : Printed "null")
    | undefined => exact (by decide : Printed "null")
  | text s => exact printed_quote s
  | array items => exact (by decide : Printed "[]")
  | object entries => exact (by decide : Printed "\x7b\x7d")

theorem printed_indent (depth : Nat) : Printed (indent depth) :=
  Printed.append (by decide) (visible_replicate (by decide) _).printed

mutual

theorem printed_prettyAt (depth : Nat) : ∀ v, Printed (prettyAt depth v)
  | .array (x :: xs) => by
    have hx := printed_prettyAt (depth + 1) x
    have hxs := printed_prettyItems (depth + 1) xs
    rw [prettyAt]
    exact (((Printed.append (by decide) (printed_indent _)).append hx).append hxs).append
      (printed_indent _) |>.append (by decide)
  | .object ((k, x) :: es) => by
    have hx := printed_prettyAt (depth + 1) x
    have hes := printed_prettyEntries (depth + 1) es
    rw [prettyAt]
    have hkey : Printed ("\x7b" ++ indent (depth + 1) ++ quote k ++ ": ") :=
      ((Printed.append (by decide) (printed_indent _)).append (printed_quote k)).append (by decide)
    exact (((hkey.append hx).append hes).append (printed_indent _)).append (by decide)
  | .array [] | .object [] | .null | .bool _ | .integer _ | .decimal _ | .text _ =>
    printed_atom _

theorem printed_prettyItems (depth : Nat) : ∀ xs, Printed (prettyItems depth xs)
  | [] => (by decide : Printed "")
  | x :: xs => by
    have hx := printed_prettyAt depth x
    have hxs := printed_prettyItems depth xs
    rw [prettyItems]
    exact ((Printed.append (by decide) (printed_indent _)).append hx).append hxs

theorem printed_prettyEntries (depth : Nat) : ∀ es, Printed (prettyEntries depth es)
  | [] => (by decide : Printed "")
  | (k, x) :: es => by
    have hx := printed_prettyAt depth x
    have hes := printed_prettyEntries depth es
    rw [prettyEntries]
    have hkey : Printed ("," ++ indent depth ++ quote k ++ ": ") :=
      ((Printed.append (by decide) (printed_indent _)).append (printed_quote k)).append (by decide)
    exact (hkey.append hx).append hes

end

/-- Only line feeds control how JSON text is shown. -/
theorem printed_pretty (v : Json) : Printed v.pretty :=
  printed_prettyAt 0 v

end Json

end HostProfile
