import HostProfile.NativeText
import HostProfile.Proofs.Text.Utf8

/-! Narrow text converts exactly if its bytes are the UTF-8 form of a text. Bytes that are not tell by
their error how far they are: up to the end of the longest start that converts. -/
namespace HostProfile

open Text

namespace Text.Utf8

/-! ### The bytes of a text -/

theorem encodeChar_eq (c : Char) : encodeChar c = String.utf8EncodeChar c := by
  have hv : c.val.toNat = c.toNat := rfl
  have hc := toNat_char_lt c
  unfold encodeChar String.utf8EncodeChar
  simp only [hv, Nat.add_comm 0x80]
  by_cases h₁ : c.toNat < 0x80
  · rw [if_pos h₁, if_pos (Nat.le_of_lt_succ h₁)]
  have h₁' : ¬ c.toNat ≤ 0x7F := by omega
  rw [if_neg h₁, if_neg h₁']
  by_cases h₂ : c.toNat < 0x800
  · have hn : 0xC0 + c.toNat / 0x40 = c.toNat / 0x40 % 0x20 + 0xC0 := by omega
    rw [if_pos h₂, if_pos (Nat.le_of_lt_succ h₂), hn]
  have h₂' : ¬ c.toNat ≤ 0x7FF := by omega
  rw [if_neg h₂, if_neg h₂']
  by_cases h₃ : c.toNat < 0x10000
  · have hn : 0xE0 + c.toNat / 0x1000 = c.toNat / 0x1000 % 0x10 + 0xE0 := by omega
    rw [if_pos h₃, if_pos (Nat.le_of_lt_succ h₃), hn]
  have h₃' : ¬ c.toNat ≤ 0xFFFF := by omega
  have hn : 0xF0 + c.toNat / 0x40000 = c.toNat / 0x40000 % 0x08 + 0xF0 := by omega
  rw [if_neg h₃, if_neg h₃', hn]

theorem toByteArray_encode (s : String) : (encode s.toList).toByteArray = s.toUTF8 := by
  have hs : s.toUTF8 = (String.ofList s.toList).toByteArray := by
    rw [String.ofList_toList]
    rfl
  rw [hs, String.toByteArray_ofList, List.utf8Encode, encode, funext encodeChar_eq]

theorem eq_encode_iff (bs : List UInt8) (s : String) :
    bs = encode s.toList ↔ bs.toByteArray = s.toUTF8 := by
  rw [← toByteArray_encode, List.toByteArray_inj]

theorem encode_toList (s : String) : encode s.toList = s.toUTF8.data.toList := by
  rw [← toByteArray_encode, List.data_toByteArray]

theorem length_encode (s : String) : (encode s.toList).length = s.utf8ByteSize := by
  rw [encode_toList]
  rfl

/-! ### The longest start that is well formed -/

/-- What is read before the first ill-formed piece. -/
def wellFormedStart (bs : List UInt8) : List Char :=
  ((scan bs).takeWhile Option.isSome).filterMap id

theorem validLength_eq (bs : List UInt8) : validLength bs = (encode (wellFormedStart bs)).length := rfl

theorem scan_eq_append (bs : List UInt8) :
    scan bs = (wellFormedStart bs).map some ++ (scan bs).dropWhile Option.isSome := by
  have hs : ∀ xs : List (Option Char), (∀ x ∈ xs, x.isSome = true) →
      xs = (xs.filterMap id).map some := by
    intro xs h
    induction xs with
    | nil => rfl
    | cons x xs ih =>
      obtain ⟨c, rfl⟩ := Option.isSome_iff_exists.mp (h x (List.mem_cons_self ..))
      have hr := ih fun y hy => h y (List.mem_cons_of_mem _ hy)
      have hf : (some c :: xs).filterMap id = c :: xs.filterMap id := rfl
      rw [hf, List.map_cons, ← hr]
  rw [wellFormedStart, ← hs _ fun x hx => List.mem_takeWhile_imp hx,
    List.takeWhile_append_dropWhile]

/-- Characters that are read first are the bytes that stand first. -/
theorem exists_eq_encode_append {bs : List UInt8} {cs : List Char} {xs : List (Option Char)}
    (h : scan bs = cs.map some ++ xs) : ∃ r, bs = encode cs ++ r ∧ scan r = xs := by
  induction cs generalizing bs with
  | nil => exact ⟨bs, rfl, h⟩
  | cons c cs ih =>
    obtain ⟨t, ht, hs⟩ := reads_of_scan_eq_cons h
    obtain ⟨r, rfl, hr⟩ := ih hs
    refine ⟨r, ?_, hr⟩
    rw [ht.eq_append, encode_cons, List.append_assoc]

theorem encode_wellFormedStart_prefix (bs : List UInt8) : encode (wellFormedStart bs) <+: bs := by
  obtain ⟨r, hr, -⟩ := exists_eq_encode_append (scan_eq_append bs)
  exact ⟨r, hr.symm⟩

theorem wellFormedStart_encode_append (cs : List Char) (r : List UInt8) :
    wellFormedStart (encode cs ++ r) = cs ++ wellFormedStart r := by
  have hs : ∀ x ∈ cs.map some, Option.isSome x = true := by simp
  unfold wellFormedStart
  rw [scan_encode_append, List.takeWhile_append_of_pos hs, List.filterMap_append]
  simp

theorem encode_append (cs ds : List Char) : encode (cs ++ ds) = encode cs ++ encode ds :=
  List.flatMap_append

theorem validLength_encode_append (cs : List Char) (r : List UInt8) :
    validLength (encode cs ++ r) = (encode cs).length + validLength r := by
  rw [validLength_eq, validLength_eq, wellFormedStart_encode_append, encode_append,
    List.length_append]

/-- Of all starts that can be read, the well-formed one is the longest. -/
theorem isGreatest_validLength (bs : List UInt8) :
    IsGreatest {n | ∃ p, p <+: bs ∧ p.length = n ∧ ∃ cs, decode? p = some cs} (validLength bs) := by
  constructor
  · exact ⟨_, encode_wellFormedStart_prefix bs, rfl, _, decode?_encode _⟩
  · intro n hn
    obtain ⟨p, ⟨r, rfl⟩, rfl, cs, hcs⟩ := hn
    obtain rfl := (decode?_eq_some_iff p cs).mp hcs
    rw [validLength_encode_append]
    exact Nat.le_add_right _ _

theorem validLength_lt_iff (bs : List UInt8) : validLength bs < bs.length ↔ decode? bs = none := by
  have hp := encode_wellFormedStart_prefix bs
  constructor
  · intro h
    by_contra hd
    obtain ⟨cs, hcs⟩ := Option.ne_none_iff_exists'.mp hd
    have hl := (isGreatest_validLength bs).2 ⟨bs, List.prefix_refl bs, rfl, cs, hcs⟩
    omega
  · intro h
    by_contra hl
    have he : encode (wellFormedStart bs) = bs := hp.eq_of_length_le (Nat.le_of_not_lt hl)
    rw [← he, decode?_encode] at h
    cases h

/-! ### Numbers in one to four bytes -/

/-- How many bytes a number is spread over. -/
inductive Width where
  | one | two | three | four

namespace Width

def capacity : Width → ℕ
  | .one => 0x80
  | .two => 0x800
  | .three => 0x10000
  | .four => 0x200000

/-- The least number that needs the width. -/
def least : Width → ℕ
  | .one => 0
  | .two => 0x80
  | .three => 0x800
  | .four => 0x10000

/-- The bytes of a number, whether or not it needs them all and is the number of a character. -/
def spread (n : ℕ) : Width → List UInt8
  | .one => [.ofNat n]
  | .two => [.ofNat (0xC0 + n / 0x40), .ofNat (0x80 + n % 0x40)]
  | .three =>
    [.ofNat (0xE0 + n / 0x1000), .ofNat (0x80 + n / 0x40 % 0x40), .ofNat (0x80 + n % 0x40)]
  | .four =>
    [.ofNat (0xF0 + n / 0x40000), .ofNat (0x80 + n / 0x1000 % 0x40),
      .ofNat (0x80 + n / 0x40 % 0x40), .ofNat (0x80 + n % 0x40)]

theorem spread_toNat {w : Width} {c : Char} (hl : w.least ≤ c.toNat) (hc : c.toNat < w.capacity) :
    w.spread c.toNat = encodeChar c := by
  unfold encodeChar
  cases w with
  | one => exact (if_pos hc).symm
  | two =>
    simp only [least, capacity] at hl hc
    rw [spread, if_neg (by omega), if_pos hc]
  | three =>
    simp only [least, capacity] at hl hc
    rw [spread, if_neg (by omega), if_neg (by omega), if_pos hc]
  | four =>
    simp only [least] at hl
    rw [spread, if_neg (by omega), if_neg (by omega), if_neg (by omega)]

/-- The first two bytes already tell an overlong form, a surrogate and a number that is too large. -/
theorem decode?_eq_none_of_open {a b : UInt8} (ha : 0x80 ≤ a.toNat) (hp : ¬ isPair a b = true)
    (ht : ¬ opensThree a b = true) (hf : ¬ opensFour a b = true) (r : List UInt8) :
    decode? (a :: b :: r) = none := by
  have ho : ¬ (opensThree a b || opensFour a b) = true := by
    rw [Bool.or_eq_true]
    exact not_or.mpr ⟨ht, hf⟩
  have ha' : ¬ a < 0x80 := by
    rw [oneByte_iff]
    omega
  rw [decode?, scan_illFormed_one ha' hp ho]
  rfl

theorem decode?_spread_eq_none {w : Width} {n : ℕ} (hn : n < w.capacity)
    (h : n < w.least ∨ ¬ n.isValidChar) : decode? (w.spread n) = none := by
  unfold Nat.isValidChar at h
  cases w with
  | one =>
    simp only [least, capacity] at h hn
    omega
  | two =>
    simp only [least, capacity] at h hn
    have ha := toNat_ofNat_of_lt (n := 0xC0 + n / 0x40) (by omega)
    apply decode?_eq_none_of_open
    · omega
    · rw [isPair_iff, ha]
      omega
    · rw [opensThree_iff, ha]
      omega
    · rw [opensFour_iff, ha]
      omega
  | three =>
    simp only [least, capacity] at h hn
    have ha := toNat_ofNat_of_lt (n := 0xE0 + n / 0x1000) (by omega)
    have hb := toNat_ofNat_of_lt (n := 0x80 + n / 0x40 % 0x40) (by omega)
    apply decode?_eq_none_of_open
    · omega
    · rw [isPair_iff, ha]
      omega
    · rw [opensThree_iff, ha, hb]
      omega
    · rw [opensFour_iff, ha]
      omega
  | four =>
    simp only [least, capacity] at h hn
    have ha := toNat_ofNat_of_lt (n := 0xF0 + n / 0x40000) (by omega)
    have hb := toNat_ofNat_of_lt (n := 0x80 + n / 0x1000 % 0x40) (by omega)
    apply decode?_eq_none_of_open
    · omega
    · rw [isPair_iff, ha]
      omega
    · rw [opensThree_iff, ha]
      omega
    · rw [opensFour_iff, ha, hb]
      omega

theorem decode?_spread_eq_some_iff {w : Width} {n : ℕ} (hn : n < w.capacity) (cs : List Char) :
    decode? (w.spread n) = some cs ↔ w.least ≤ n ∧ ∃ c : Char, c.toNat = n ∧ cs = [c] := by
  by_cases h : w.least ≤ n ∧ n.isValidChar
  · obtain ⟨hl, hv⟩ := h
    have hc : (Char.ofNat n).toNat = n := toNat_ofNat_char hv
    have he : w.spread n = encode [Char.ofNat n] := by
      rw [← hc] at hl hn
      rw [encode_cons, ← spread_toNat hl hn, hc]
      exact (List.append_nil _).symm
    rw [he, decode?_encode, Option.some.injEq]
    constructor
    · intro h
      exact ⟨hl, _, hc, h.symm⟩
    · intro h
      obtain ⟨-, c, rfl, rfl⟩ := h
      rw [Char.ofNat_toNat]
  · have hd : decode? (w.spread n) = none := by
      refine decode?_spread_eq_none hn ?_
      by_cases hl : w.least ≤ n
      · exact Or.inr fun hv => h ⟨hl, hv⟩
      · exact Or.inl (Nat.lt_of_not_le hl)
    rw [hd]
    constructor
    · intro h'
      cases h'
    · intro h'
      obtain ⟨hl, c, rfl, -⟩ := h'
      exact absurd ⟨hl, toNat_char_lt c⟩ h

end Width

end Text.Utf8

/-! ### Conversion -/

/-- The error behind a text of `k` bytes. -/
def ConversionError.shift (k : ℕ) : ConversionError → ConversionError
  | .invalidUtf8 n => .invalidUtf8 (k + n)
  | .invalidUtf16 => .invalidUtf16

namespace NativeText

theorem isEmpty_ofString (s : String) : (ofString s).isEmpty = true ↔ s = "" := by
  rw [← String.toList_eq_nil_iff, ← Utf8.encode_eq_nil_iff]
  simp only [ofString, isEmpty, List.isEmpty_iff]

theorem toString?_narrow_eq_ok_iff (bs : List UInt8) (s : String) :
    (narrow bs).toString? = .ok s ↔ Utf8.decode? bs = some s.toList := by
  simp only [toString?]
  cases Utf8.decode? bs with
  | none => simp
  | some cs => simp [String.ofList_eq]

theorem toString?_narrow_eq_error_iff (bs : List UInt8) (e : ConversionError) :
    (narrow bs).toString? = .error e ↔
      Utf8.decode? bs = none ∧ e = .invalidUtf8 (Utf8.validLength bs) := by
  simp only [toString?]
  cases Utf8.decode? bs with
  | none => simp [eq_comm]
  | some cs => simp

/-- A text in front of bytes stands in front of what they convert to, or before the place of their
error. -/
theorem toString?_narrow_append (s : String) (r : List UInt8) :
    (narrow (s.toUTF8.data.toList ++ r)).toString? =
      ((narrow r).toString?.map (s ++ ·)).mapError (.shift s.utf8ByteSize) := by
  rw [← Utf8.encode_toList, ← Utf8.length_encode]
  cases hr : (narrow r).toString? with
  | ok t =>
    have hd := (toString?_narrow_eq_ok_iff r t).mp hr
    have he : r = Utf8.encode t.toList := (Utf8.decode?_eq_some_iff r _).mp hd
    rw [Except.map, Except.mapError, toString?_narrow_eq_ok_iff, he, ← Utf8.encode_append,
      Utf8.decode?_encode, String.toList_append]
  | error e =>
    obtain ⟨hd, rfl⟩ := (toString?_narrow_eq_error_iff r e).mp hr
    have hl := (Utf8.validLength_lt_iff r).mpr hd
    rw [Except.map, Except.mapError, toString?_narrow_eq_error_iff, ← Utf8.validLength_lt_iff,
      Utf8.validLength_encode_append, List.length_append]
    exact ⟨by omega, rfl⟩

/-- The lengths of the starts of some bytes that convert. -/
def convertibleLengths (bs : List UInt8) : Set ℕ :=
  {n | ∃ p, p <+: bs ∧ p.length = n ∧ ∃ s, (narrow p).toString? = .ok s}

theorem isGreatest_convertibleLengths (bs : List UInt8) :
    IsGreatest (convertibleLengths bs) (Utf8.validLength bs) := by
  have hs : ∀ p : List UInt8, (∃ s, (narrow p).toString? = .ok s) ↔
      ∃ cs, Utf8.decode? p = some cs := by
    intro p
    simp only [toString?_narrow_eq_ok_iff]
    constructor
    · intro h
      obtain ⟨s, hs⟩ := h
      exact ⟨s.toList, hs⟩
    · intro h
      obtain ⟨cs, hcs⟩ := h
      exact ⟨.ofList cs, by rw [hcs, String.toList_ofList]⟩
  unfold convertibleLengths
  simp only [hs]
  exact Utf8.isGreatest_validLength bs

/-- Bytes convert to the text whose UTF-8 form they are, and to no other: of the numbers spread over
one to four bytes only those of characters in their shortest form do. If bytes do not convert, the
error is the length of their longest start that does. Text in front of them comes through. -/
theorem toString?_narrow_exact :
    (∀ (bs : List UInt8) (s : String),
      (narrow bs).toString? = .ok s ↔ bs.toByteArray = s.toUTF8) ∧
    (∀ (w : Utf8.Width) (n : Fin w.capacity) (s : String),
      (narrow (w.spread n)).toString? = .ok s ↔
        w.least ≤ n ∧ ∃ c : Char, c.toNat = n ∧ s = .singleton c) ∧
    (∀ (bs : List UInt8) (e : ConversionError),
      (narrow bs).toString? = .error e ↔
        ∃ n, e = .invalidUtf8 n ∧ n < bs.length ∧ IsGreatest (convertibleLengths bs) n) ∧
    ∀ (s : String) (r : List UInt8),
      (narrow (s.toUTF8.data.toList ++ r)).toString? =
        ((narrow r).toString?.map (s ++ ·)).mapError (.shift s.utf8ByteSize) := by
  refine ⟨fun bs s => ?_, fun w n s => ?_, fun bs e => ?_, toString?_narrow_append⟩
  · rw [toString?_narrow_eq_ok_iff, Utf8.decode?_eq_some_iff, Utf8.eq_encode_iff]
  · rw [toString?_narrow_eq_ok_iff, Utf8.Width.decode?_spread_eq_some_iff n.isLt]
    simp only [← String.toList_inj, String.toList_singleton]
  · have hg := isGreatest_convertibleLengths bs
    rw [toString?_narrow_eq_error_iff, ← Utf8.validLength_lt_iff]
    constructor
    · intro h
      exact ⟨_, h.2, h.1, hg⟩
    · intro h
      obtain ⟨n, rfl, hl, hn⟩ := h
      obtain rfl := hn.unique hg
      exact ⟨hl, rfl⟩

end NativeText

end HostProfile
