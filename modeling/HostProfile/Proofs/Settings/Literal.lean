import HostProfile.Proofs.Decimal.Grammar
import HostProfile.Proofs.Locale.Grammar
import HostProfile.Settings.Environment

/-! Values of variables without quotes and brackets: a truth value or a number is read as such, and
any other text stands for itself. -/
namespace HostProfile.Environment

open Text Decimal

/-- The numbers that are told from text: decimals with a point, and whole numbers of 64 bits, which
have a sign if they are written with a minus. -/
inductive Number : List Char → Setting → Prop where
  | decimal {cs : List Char} {p : Parts} (h : Pointed cs p) : Number cs (.decimal p.nearest)
  | natural {cs : List Char} {n : Nat} (h : Whole cs n) (hs : cs.head? ≠ some '-')
      (hn : n ≤ 18446744073709551615) : Number cs (.natural n)
  | integer {cs : List Char} {n : Int} (h : Whole cs n) (hs : cs.head? = some '-')
      (hn : -9223372036854775808 ≤ n) : Number cs (.integer n)

/-- The texts without quotes and brackets that are read as something else than text. -/
inductive Literal : List Char → Setting → Prop where
  | yes : Literal "true".toList (.bool true)
  | no : Literal "false".toList (.bool false)
  | number {cs : List Char} {v : Setting} (h : Number cs v) : Literal cs v

theorem Number.isNumeral {cs : List Char} {v : Setting} (h : Number cs v) :
    ∀ c ∈ cs, IsNumeral c := by
  cases h with
  | decimal h => exact h.isNumeral
  | natural h => exact h.isNumeral
  | integer h => exact h.isNumeral

theorem not_number_of_mem {c : Char} (hc : ¬ IsNumeral c) {cs : List Char} (hm : c ∈ cs)
    (v : Setting) : ¬ Number cs v :=
  fun h => hc (h.isNumeral c hm)

theorem not_isNumeral_of_mem : ∀ c ∈ ['t', 'f', ','], ¬ IsNumeral c := by
  intro c hc
  unfold IsNumeral IsSign
  simp only [List.mem_cons, List.not_mem_nil, or_false] at hc
  rcases hc with rfl | rfl | rfl
  all_goals decide

theorem Literal.not_text {cs : List Char} {v : Setting} (h : Literal cs v) (s : String) :
    v ≠ .text s := by
  cases h with
  | number h => cases h <;> nofun
  | _ => nofun

/-! ### Plain text -/

private theorem point_not_mem_of_whole {cs : List Char} {n : Int} (h : Whole cs n) : '.' ∉ cs := by
  intro hm
  rcases h.isDigit_or_isSign '.' hm with hd | hs
  · cases hd
  · rcases hs with hs | hs <;> cases hs

theorem plain_of_pointed {cs : List Char} {p : Parts} (h : Pointed cs p) :
    plain cs = .decimal p.nearest := by
  have hm : cs.contains '.' = true := List.contains_iff_mem.mpr h.point_mem
  unfold plain
  rw [if_pos hm, Binary64.ofText?, parts?_of_pointed h]
  rfl

theorem plain_of_not_pointed {cs : List Char} (h : ∀ p, ¬ Pointed cs p) :
    plain cs = match integer? cs with
      | some n =>
        if 0 ≤ n && n < UInt64.size && cs.head? != some '-' then .natural n.toNat
        else if Int64.minValue.toInt ≤ n && n ≤ Int64.maxValue.toInt then .integer n
        else .text (.ofList cs)
      | none => .text (.ofList cs) := by
  have hd : (if cs.contains '.' then Binary64.ofText? cs else none) = none := by
    split
    · next hm =>
      rw [Binary64.ofText?, Option.map_eq_none_iff, Option.eq_none_iff_forall_ne_some]
      exact fun p hp => h p (pointed_of_parts? hp (List.contains_iff_mem.mp hm))
    · rfl
  unfold plain
  cases integer? cs with
  | none => simp only [hd]
  | some n => simp only [hd]

private theorem minInt64 : Int64.minValue.toInt = -9223372036854775808 := rfl

private theorem maxInt64 : Int64.maxValue.toInt = 9223372036854775807 := rfl

private theorem sizeUInt64 : (UInt64.size : Int) = 18446744073709551616 := rfl

theorem plain_of_number {cs : List Char} {v : Setting} (h : Number cs v) : plain cs = v := by
  have hp : ∀ {n : Int}, Whole cs n → ∀ p, ¬ Pointed cs p :=
    fun hw p hp => point_not_mem_of_whole hw hp.point_mem
  cases h with
  | decimal h => exact plain_of_pointed h
  | @natural n h hs hn =>
    have hb : (decide ((0 : Int) ≤ n) && decide ((n : Int) < UInt64.size) &&
        cs.head? != some '-') = true := by
      simp only [sizeUInt64, Bool.and_eq_true, decide_eq_true_eq, bne_iff_ne]
      exact ⟨by omega, hs⟩
    rw [plain_of_not_pointed (hp h), (integer?_eq_some_iff ..).mpr h]
    dsimp only
    rw [if_pos hb, Int.toNat_natCast]
  | @integer n h hs hn =>
    have hn0 : n ≤ 0 := by
      rcases h.nonneg_or_nonpos with hh | hh
      · exact absurd hs hh.1
      · exact hh.2
    have hb : ¬ (decide (0 ≤ n) && decide (n < UInt64.size) && cs.head? != some '-') = true := by
      simp [hs]
    have hb' : (decide (Int64.minValue.toInt ≤ n) && decide (n ≤ Int64.maxValue.toInt)) = true := by
      simp only [minInt64, maxInt64, Bool.and_eq_true, decide_eq_true_eq]
      omega
    rw [plain_of_not_pointed (hp h), (integer?_eq_some_iff ..).mpr h]
    dsimp only
    rw [if_neg hb, if_pos hb']

theorem plain_of_not_number {cs : List Char} (h : ∀ v, ¬ Number cs v) :
    plain cs = .text (.ofList cs) := by
  rw [plain_of_not_pointed fun p hp => h _ (.decimal hp)]
  split
  · next n hn =>
    have hw := (integer?_eq_some_iff ..).mp hn
    split
    · next hb =>
      simp only [sizeUInt64, Bool.and_eq_true, decide_eq_true_eq, bne_iff_ne] at hb
      obtain ⟨⟨h0, hlt⟩, hs⟩ := hb
      have hcast : ((n.toNat : Nat) : Int) = n := Int.toNat_of_nonneg h0
      rw [← hcast] at hw
      exact absurd (.natural hw hs (by omega)) (h _)
    · next hb =>
      split
      · next hb' =>
        simp only [sizeUInt64, minInt64, maxInt64, Bool.and_eq_true, decide_eq_true_eq,
          bne_iff_ne, not_and] at hb hb'
        -- a number without a minus that fits the signed type fits the other one too
        have hs : cs.head? = some '-' := by
          rcases hw.nonneg_or_nonpos with hh | hh
          · exact absurd hh.1 (hb ⟨hh.2, by omega⟩)
          · exact hh.1
        exact absurd (.integer hw hs hb'.1) (h _)
      · rfl
  · rfl

/-! ### Bare text -/

/-- Text that nothing encloses: no blanks around it, and no quote or bracket anywhere. -/
structure Bare (v : String) : Prop where
  ne_empty : v ≠ ""
  trimmed : Trimmed v.toList
  without : Without ['"', '\'', '[', ']', '\x7b', '\x7d'] v

theorem Bare.ne_of_mem_head? {v : String} (hv : Bare v) {c : Char} (hc : c ∈ v.toList.head?) :
    ∀ m ∈ ['"', '\'', '[', ']', '\x7b', '\x7d'], c ≠ m := by
  rintro m hm rfl
  exact hv.without c hm (List.mem_of_mem_head? hc)

theorem isBlank_of_isAsciiBlank {c : Char} (h : isAsciiBlank c = true) : isBlank c = true := by
  simp only [isAsciiBlank, Bool.or_eq_true, beq_iff_eq] at h
  rcases h with (((rfl | rfl) | rfl) | rfl) | rfl <;> decide

theorem skipBlanks_of_trimmed {cs : List Char} (h : Trimmed cs) : skipBlanks cs = cs := by
  cases cs with
  | nil => rfl
  | cons c r =>
    have hb : ¬ isAsciiBlank c = true := by
      intro hc
      have hn := h.1 c rfl
      rw [isBlank_of_isAsciiBlank hc] at hn
      cases hn
    rw [skipBlanks, List.dropWhile_cons_of_neg hb]

/-- Behind a text whose end is no blank there is nothing to skip. -/
theorem skipBlanks_ne_nil {a r : List Char} (h : Trimmed (a ++ r)) (hr : r ≠ []) :
    skipBlanks r ≠ [] := by
  intro hs
  have hl := h.2 (r.getLast hr) (by simp [List.getLast?_append, List.getLast?_eq_some_getLast hr])
  have hb : isAsciiBlank (r.getLast hr) = true :=
    List.dropWhile_eq_nil_iff.mp hs _ (List.getLast_mem hr)
  rw [isBlank_of_isAsciiBlank hb] at hl
  cases hl

theorem literal_iff (cs : List Char) (v : Setting) :
    Literal cs v ↔ (cs = "true".toList ∧ v = .bool true) ∨ (cs = "false".toList ∧ v = .bool false) ∨
      Number cs v := by
  constructor
  · intro h
    cases h with
    | yes => exact .inl ⟨rfl, rfl⟩
    | no => exact .inr (.inl ⟨rfl, rfl⟩)
    | number h => exact .inr (.inr h)
  · rintro (⟨rfl, rfl⟩ | ⟨rfl, rfl⟩ | h)
    · exact .yes
    · exact .no
    · exact .number h

/-- The words for truth values. -/
inductive Word : List Char → Bool → Prop where
  | yes : Word "true".toList true
  | no : Word "false".toList false

theorem scalar_word {word : List Char} {b : Bool} (hw : Word word b) (r : List Char) :
    scalar (word ++ r) = .ok (.bool b, r) := by
  cases hw <;> rfl

/-- What starts with the word for a truth value is a literal only if it is that word. -/
theorem literal_word_append_iff {word : List Char} {b : Bool} (hw : Word word b) (r : List Char)
    (v : Setting) : Literal (word ++ r) v ↔ r = [] ∧ v = .bool b := by
  have hn : ¬ Number (word ++ r) v := by
    cases hw with
    | yes => exact not_number_of_mem (not_isNumeral_of_mem 't' (by decide)) (by simp) v
    | no => exact not_number_of_mem (not_isNumeral_of_mem 'f' (by decide)) (by simp) v
  simp only [literal_iff, hn, or_false]
  cases hw <;> simp

theorem scalar_of_bare {cs : List Char} (hq : ∀ c ∈ cs.head?, c ≠ '"' ∧ c ≠ '\'')
    (hw : ∀ word b, Word word b → ¬ word <+: cs) :
    scalar cs =
      .ok (plain (trim (Reader.run (!isMark ·) cs).1), (Reader.run (!isMark ·) cs).2) := by
  unfold scalar
  split
  · next r => exact absurd ⟨r, rfl⟩ (hw _ _ .yes)
  · next r => exact absurd ⟨r, rfl⟩ (hw _ _ .no)
  · exact absurd rfl (hq '"' rfl).1
  · exact absurd rfl (hq '\'' rfl).2
  · exact absurd rfl (hq '\'' rfl).2
  · rfl

theorem value_of_bare (depth : Nat) {cs : List Char} (ht : Trimmed cs)
    (hm : ∀ c ∈ cs.head?, c ≠ '[' ∧ c ≠ '\x7b') :
    value depth cs = (scalar cs).map fun p => (p.1, skipBlanks p.2) := by
  have he : ∀ x : Except Unread (Setting × List Char),
      (x >>= fun p => pure (p.1, skipBlanks p.2)) = x.map fun p => (p.1, skipBlanks p.2) := by
    intro x
    cases x <;> rfl
  unfold value
  dsimp only
  rw [skipBlanks_of_trimmed ht]
  split
  · exact absurd rfl (hm '[' rfl).1
  · exact absurd rfl (hm '\x7b' rfl).2
  · exact he _

/-- A bare text is read to its end or not at all. -/
theorem setting_of_scalar {v : String} (hv : Bare v) {w : Setting} {r : List Char}
    (h : scalar v.toList = .ok (w, r)) :
    (setting v = if skipBlanks r = [] then w else .text v) ∧ isTorn v = false := by
  have hm : ∀ c ∈ v.toList.head?, c ≠ '[' ∧ c ≠ '\x7b' := by
    intro c hc
    exact ⟨hv.ne_of_mem_head? hc '[' (by simp), hv.ne_of_mem_head? hc '\x7b' (by simp)⟩
  have hval : value v.length v.toList = .ok (w, skipBlanks r) := by
    rw [value_of_bare _ hv.trimmed hm, h]
    rfl
  refine ⟨?_, by rw [isTorn, hval]⟩
  rw [setting, hval]
  cases skipBlanks r with
  | nil => rfl
  | cons c r => rfl

theorem setting_word_append {word r : List Char} {b : Bool} (hw : Word word b) {v : String}
    (hv : Bare v) (hl : v.toList = word ++ r) :
    (∀ w, Literal v.toList w → setting v = w) ∧
      ((∀ w, ¬ Literal v.toList w) → setting v = .text v) ∧ isTorn v = false := by
  obtain ⟨hs, ht⟩ := setting_of_scalar hv (hl ▸ scalar_word hw r)
  rw [hl]
  refine ⟨fun w h => ?_, fun h => ?_, ht⟩
  · obtain ⟨rfl, rfl⟩ := (literal_word_append_iff hw r w).mp h
    rw [hs]
    rfl
  · have hr : r ≠ [] := fun hr => h _ ((literal_word_append_iff hw r _).mpr ⟨hr, rfl⟩)
    rw [hs, if_neg (skipBlanks_ne_nil (hl ▸ hv.trimmed) hr)]

theorem not_literal_of_comma_mem {cs : List Char} (h : ',' ∈ cs) (v : Setting) :
    ¬ Literal cs v := by
  rw [literal_iff]
  rintro (⟨rfl, -⟩ | ⟨rfl, -⟩ | hn)
  · revert h; decide
  · revert h; decide
  · exact not_number_of_mem (not_isNumeral_of_mem ',' (by decide)) h v hn

/-- The only mark that a bare text may have in it is the comma. -/
theorem Bare.isMark_iff {v : String} (hv : Bare v) {c : Char} (hc : c ∈ v.toList) :
    isMark c = true ↔ c = ',' := by
  have hn : ∀ m ∈ ['[', ']', '\x7b', '\x7d'], c ≠ m := by
    rintro m hm rfl
    exact hv.without c (List.mem_cons_of_mem _ (List.mem_cons_of_mem _ hm)) hc
  simp only [List.forall_mem_cons, List.not_mem_nil] at hn
  obtain ⟨h1, h2, h3, h4, -⟩ := hn
  simp [isMark, h1, h2, h3, h4]

/-- A bare text is the value that it is a literal of, and otherwise it is text. -/
theorem setting_of_bare {v : String} (hv : Bare v) :
    (∀ w, Literal v.toList w → setting v = w) ∧
      ((∀ w, ¬ Literal v.toList w) → setting v = .text v) ∧ isTorn v = false := by
  by_cases hw : ∃ word b, Word word b ∧ word <+: v.toList
  · obtain ⟨word, b, hw, r, hr⟩ := hw
    exact setting_word_append hw hv hr.symm
  have hword : ∀ word b, Word word b → ¬ word <+: v.toList := by
    intro word b hwb hp
    exact hw ⟨word, b, hwb, hp⟩
  have hq : ∀ c ∈ v.toList.head?, c ≠ '"' ∧ c ≠ '\'' := by
    intro c hc
    exact ⟨hv.ne_of_mem_head? hc '"' (by simp), hv.ne_of_mem_head? hc '\'' (by simp)⟩
  obtain ⟨hs, ht⟩ := setting_of_scalar hv (scalar_of_bare hq hword)
  by_cases hc : ',' ∈ v.toList
  · -- the value ends at the comma, and what follows is left over
    have hrest : v.toList.dropWhile (!isMark ·) ≠ [] := by
      intro hnil
      have hm : (!isMark ',') = true := List.dropWhile_eq_nil_iff.mp hnil ',' hc
      cases hm
    have htrim : Trimmed (v.toList.takeWhile (!isMark ·) ++ v.toList.dropWhile (!isMark ·)) := by
      rw [List.takeWhile_append_dropWhile]
      exact hv.trimmed
    rw [Reader.run, if_neg (skipBlanks_ne_nil htrim hrest)] at hs
    exact ⟨fun w h => absurd h (not_literal_of_comma_mem hc w), fun _ => hs, ht⟩
  · have hall : ∀ c ∈ v.toList, (!isMark c) = true := by
      intro c hin
      have hn : ¬ isMark c = true := fun hm => hc ((hv.isMark_iff hin).mp hm ▸ hin)
      simpa using hn
    have hrun : Reader.run (!isMark ·) v.toList = (v.toList, []) := by
      rw [Reader.run, List.takeWhile_eq_self_iff.mpr hall, List.dropWhile_eq_nil_iff.mpr hall]
    have hnil : skipBlanks [] = [] := rfl
    rw [hrun, trim_of_trimmed hv.trimmed, if_pos hnil] at hs
    refine ⟨fun w h => ?_, fun h => ?_, ht⟩
    · rcases (literal_iff ..).mp h with ⟨hl, -⟩ | ⟨hl, -⟩ | hn
      · exact absurd (hl ▸ List.prefix_rfl) (hword _ _ .yes)
      · exact absurd (hl ▸ List.prefix_rfl) (hword _ _ .no)
      · rw [hs, plain_of_number hn]
    · rw [hs, plain_of_not_number fun w hn => h w (.number hn), String.ofList_toList]

end HostProfile.Environment
