import HostProfile.Proofs.Text.Blank
import HostProfile.Text.Utf8
import Mathlib

/-! UTF-8 read and written. Every character is read back from its bytes, bytes that are read strictly
are the ones written for what was read, and what stands before a character has no influence on how it
is read. So ill-formed bytes keep to themselves, and blanks show at the ends of a text exactly where
they stand at the ends of its bytes. -/
namespace HostProfile.Text

theorem mapM_id_eq_some_iff {α : Type} (xs : List (Option α)) (ys : List α) :
    xs.mapM id = some ys ↔ xs = ys.map some := by
  induction xs generalizing ys with
  | nil => cases ys <;> simp
  | cons x xs ih => cases ys <;> simp [List.mapM_cons, Option.bind_eq_some_iff, ih]

theorem mapM_id_eq_none_iff {α : Type} (xs : List (Option α)) : xs.mapM id = none ↔ none ∈ xs := by
  induction xs with
  | nil => simp
  | cons x xs ih =>
    cases x with
    | none => simp [List.mapM_cons]
    | some a => cases h : xs.mapM id <;> simp_all [List.mapM_cons]

namespace Utf8

/-! ### Bytes as numbers -/

theorem isTail_iff (b : UInt8) : isTail b = true ↔ 0x80 ≤ b.toNat ∧ b.toNat ≤ 0xBF := by
  simp [isTail, UInt8.le_iff_toNat_le]

theorem isPair_iff (a b : UInt8) :
    isPair a b = true ↔ (0xC2 ≤ a.toNat ∧ a.toNat ≤ 0xDF) ∧ 0x80 ≤ b.toNat ∧ b.toNat ≤ 0xBF := by
  simp [isPair, isTail_iff, UInt8.le_iff_toNat_le]

theorem opensThree_iff (a b : UInt8) :
    opensThree a b = true ↔ 0xE0 ≤ a.toNat ∧ a.toNat ≤ 0xEF ∧ 0x80 ≤ b.toNat ∧ b.toNat ≤ 0xBF ∧
      (a.toNat = 0xE0 → 0xA0 ≤ b.toNat) ∧ (a.toNat = 0xED → b.toNat ≤ 0x9F) := by
  simp only [opensThree, isTail, Bool.or_eq_true, Bool.and_eq_true, decide_eq_true_eq, beq_iff_eq,
    UInt8.le_iff_toNat_le, ← UInt8.toNat_inj, UInt8.reduceToNat]
  omega

theorem opensFour_iff (a b : UInt8) :
    opensFour a b = true ↔ 0xF0 ≤ a.toNat ∧ a.toNat ≤ 0xF4 ∧ 0x80 ≤ b.toNat ∧ b.toNat ≤ 0xBF ∧
      (a.toNat = 0xF0 → 0x90 ≤ b.toNat) ∧ (a.toNat = 0xF4 → b.toNat ≤ 0x8F) := by
  simp only [opensFour, isTail, Bool.or_eq_true, Bool.and_eq_true, decide_eq_true_eq, beq_iff_eq,
    UInt8.le_iff_toNat_le, ← UInt8.toNat_inj, UInt8.reduceToNat]
  omega

theorem oneByte_iff (a : UInt8) : a < 0x80 ↔ a.toNat < 0x80 := by
  simp [UInt8.lt_iff_toNat_lt]

/-! ### Characters of one to four bytes -/

theorem scan_one {a : UInt8} (ha : a.toNat < 0x80) (r : List UInt8) :
    scan (a :: r) = some (.ofNat a.toNat) :: scan r := by
  rw [scan.eq_def]
  simp only [oneByte_iff, ha, if_true]

theorem scan_two {a b : UInt8} (h : isPair a b = true) (r : List UInt8) :
    scan (a :: b :: r) = some (.ofNat (a.toNat % 0x20 * 0x40 + low b)) :: scan r := by
  have ha : ¬ a.toNat < 0x80 := by
    have hp := (isPair_iff a b).mp h
    omega
  rw [scan.eq_def]
  simp only [oneByte_iff, ha, if_false, h, if_true]

theorem not_isPair_of_opensThree {a b : UInt8} (h : opensThree a b = true) :
    ¬ isPair a b = true := by
  have ht := (opensThree_iff a b).mp h
  rw [isPair_iff]
  omega

theorem not_opensThree_of_opensFour {a b : UInt8} (h : opensFour a b = true) :
    ¬ opensThree a b = true := by
  have hf := (opensFour_iff a b).mp h
  rw [opensThree_iff]
  omega

theorem scan_three {a b c : UInt8} (h : opensThree a b = true) (hc : isTail c = true)
    (r : List UInt8) :
    scan (a :: b :: c :: r) =
      some (.ofNat (a.toNat % 0x10 * 0x1000 + low b * 0x40 + low c)) :: scan r := by
  have ha : ¬ a.toNat < 0x80 := by
    have ht := (opensThree_iff a b).mp h
    omega
  have hp : ¬ isPair a b = true := not_isPair_of_opensThree h
  rw [scan.eq_def]
  simp only [oneByte_iff, ha, hp, h, hc, if_true, if_false, Bool.true_or, Bool.not_true,
    Bool.false_eq_true]

theorem scan_four {a b c d : UInt8} (h : opensFour a b = true) (hc : isTail c = true)
    (hd : isTail d = true) (r : List UInt8) :
    scan (a :: b :: c :: d :: r) =
      some (.ofNat (a.toNat % 0x08 * 0x40000 + low b * 0x1000 + low c * 0x40 + low d)) ::
        scan r := by
  have hf := (opensFour_iff a b).mp h
  have ha : ¬ a.toNat < 0x80 := by omega
  have hp : ¬ isPair a b = true := by
    rw [isPair_iff]
    omega
  have ht : ¬ opensThree a b = true := not_opensThree_of_opensFour h
  rw [scan.eq_def]
  simp only [oneByte_iff, ha, hp, ht, h, hc, hd, if_true, if_false, Bool.or_true, Bool.not_true,
    Bool.false_eq_true]

theorem scan_illFormed_one {a b : UInt8} (ha : ¬ a < 0x80) (hp : ¬ isPair a b = true)
    (ho : ¬ (opensThree a b || opensFour a b) = true) (r : List UInt8) :
    scan (a :: b :: r) = none :: scan (b :: r) := by
  rw [scan.eq_def]
  simp [ha, hp, ho]

theorem scan_illFormed_two {a b c : UInt8} (ha : ¬ a < 0x80) (hp : ¬ isPair a b = true)
    (ho : (opensThree a b || opensFour a b) = true) (hc : ¬ isTail c = true) (r : List UInt8) :
    scan (a :: b :: c :: r) = none :: scan (c :: r) := by
  rw [scan.eq_def]
  simp [ha, hp, ho, hc]

theorem scan_illFormed_three {a b c d : UInt8} (ha : ¬ a < 0x80) (hp : ¬ isPair a b = true)
    (ho : opensFour a b = true) (hc : isTail c = true) (hd : ¬ isTail d = true) (r : List UInt8) :
    scan (a :: b :: c :: d :: r) = none :: scan (d :: r) := by
  have ht : ¬ opensThree a b = true := not_opensThree_of_opensFour ho
  rw [scan.eq_def]
  simp [ha, hp, ho, ht, hc, hd]

theorem toNat_char_lt (c : Char) : c.toNat < 0xD800 ∨ 0xDFFF < c.toNat ∧ c.toNat < 0x110000 :=
  c.valid

theorem toNat_ofNat_of_lt {n : Nat} (h : n < 0x100) : (UInt8.ofNat n).toNat = n := by
  rw [UInt8.toNat_ofNat']
  exact Nat.mod_eq_of_lt h

/-- A character's bytes are read as the character, whatever follows them. -/
theorem scan_encodeChar_append (c : Char) (r : List UInt8) :
    scan (encodeChar c ++ r) = some c :: scan r := by
  have hv := toNat_char_lt c
  simp only [encodeChar]
  split_ifs with h₁ h₂ h₃
  · have ha : (UInt8.ofNat c.toNat).toNat = c.toNat := toNat_ofNat_of_lt (by omega)
    rw [List.singleton_append, scan_one (by omega), ha, Char.ofNat_toNat]
  · have ha := toNat_ofNat_of_lt (n := 0xC0 + c.toNat / 0x40) (by omega)
    have hb := toNat_ofNat_of_lt (n := 0x80 + c.toNat % 0x40) (by omega)
    have hp : isPair (.ofNat (0xC0 + c.toNat / 0x40)) (.ofNat (0x80 + c.toNat % 0x40)) = true := by
      rw [isPair_iff, ha, hb]
      omega
    have hn : (0xC0 + c.toNat / 0x40) % 0x20 * 0x40 + (0x80 + c.toNat % 0x40) % 0x40 = c.toNat := by
      omega
    rw [List.cons_append, List.singleton_append, scan_two hp, low, ha, hb, hn, Char.ofNat_toNat]
  · have ha := toNat_ofNat_of_lt (n := 0xE0 + c.toNat / 0x1000) (by omega)
    have hb := toNat_ofNat_of_lt (n := 0x80 + c.toNat / 0x40 % 0x40) (by omega)
    have hc := toNat_ofNat_of_lt (n := 0x80 + c.toNat % 0x40) (by omega)
    have ho : opensThree (.ofNat (0xE0 + c.toNat / 0x1000))
        (.ofNat (0x80 + c.toNat / 0x40 % 0x40)) = true := by
      rw [opensThree_iff, ha, hb]
      omega
    have ht : isTail (.ofNat (0x80 + c.toNat % 0x40)) = true := by
      rw [isTail_iff, hc]
      omega
    have hn : (0xE0 + c.toNat / 0x1000) % 0x10 * 0x1000 +
        (0x80 + c.toNat / 0x40 % 0x40) % 0x40 * 0x40 + (0x80 + c.toNat % 0x40) % 0x40 =
          c.toNat := by
      omega
    rw [List.cons_append, List.cons_append, List.singleton_append, scan_three ho ht, low, low, ha,
      hb, hc, hn, Char.ofNat_toNat]
  · have ha := toNat_ofNat_of_lt (n := 0xF0 + c.toNat / 0x40000) (by omega)
    have hb := toNat_ofNat_of_lt (n := 0x80 + c.toNat / 0x1000 % 0x40) (by omega)
    have hc := toNat_ofNat_of_lt (n := 0x80 + c.toNat / 0x40 % 0x40) (by omega)
    have hd := toNat_ofNat_of_lt (n := 0x80 + c.toNat % 0x40) (by omega)
    have ho : opensFour (.ofNat (0xF0 + c.toNat / 0x40000))
        (.ofNat (0x80 + c.toNat / 0x1000 % 0x40)) = true := by
      rw [opensFour_iff, ha, hb]
      omega
    have ht : isTail (.ofNat (0x80 + c.toNat / 0x40 % 0x40)) = true := by
      rw [isTail_iff, hc]
      omega
    have ht' : isTail (.ofNat (0x80 + c.toNat % 0x40)) = true := by
      rw [isTail_iff, hd]
      omega
    have hn : (0xF0 + c.toNat / 0x40000) % 0x08 * 0x40000 +
        (0x80 + c.toNat / 0x1000 % 0x40) % 0x40 * 0x1000 +
        (0x80 + c.toNat / 0x40 % 0x40) % 0x40 * 0x40 + (0x80 + c.toNat % 0x40) % 0x40 =
          c.toNat := by
      omega
    rw [List.cons_append, List.cons_append, List.cons_append, List.singleton_append,
      scan_four ho ht ht', low, low, low, ha, hb, hc, hd, hn, Char.ofNat_toNat]

/-! ### Characters from bytes -/

theorem toNat_ofNat_char {n : Nat} (h : n < 0xD800 ∨ 0xDFFF < n ∧ n < 0x110000) :
    (Char.ofNat n).toNat = n := by
  rw [Char.toNat_ofNat, if_pos h]

theorem ofNat_eq {n : Nat} {a : UInt8} (h : n = a.toNat) : UInt8.ofNat n = a := by
  rw [h, UInt8.ofNat_toNat]

theorem encodeChar_one {a : UInt8} (ha : a.toNat < 0x80) : encodeChar (.ofNat a.toNat) = [a] := by
  have hn : (Char.ofNat a.toNat).toNat = a.toNat := toNat_ofNat_char (by omega)
  unfold encodeChar
  rw [hn, if_pos ha, UInt8.ofNat_toNat]

theorem encodeChar_two {a b : UInt8} (h : isPair a b = true) :
    encodeChar (.ofNat (a.toNat % 0x20 * 0x40 + low b)) = [a, b] := by
  obtain ⟨ha, hb⟩ := (isPair_iff a b).mp h
  obtain ⟨n, hn⟩ : ∃ n, n = a.toNat % 0x20 * 0x40 + low b := ⟨_, rfl⟩
  have hc : (Char.ofNat n).toNat = n := toNat_ofNat_char (by unfold low at hn; omega)
  rw [← hn]
  unfold encodeChar
  unfold low at hn
  rw [hc, if_neg (by omega), if_pos (by omega), ofNat_eq (a := a) (by omega),
    ofNat_eq (a := b) (by omega)]

theorem encodeChar_three {a b c : UInt8} (h : opensThree a b = true) (ht : isTail c = true) :
    encodeChar (.ofNat (a.toNat % 0x10 * 0x1000 + low b * 0x40 + low c)) = [a, b, c] := by
  have hab := (opensThree_iff a b).mp h
  have hc := (isTail_iff c).mp ht
  obtain ⟨n, hn⟩ : ∃ n, n = a.toNat % 0x10 * 0x1000 + low b * 0x40 + low c := ⟨_, rfl⟩
  have hv : (Char.ofNat n).toNat = n := toNat_ofNat_char (by unfold low at hn; omega)
  rw [← hn]
  unfold encodeChar
  unfold low at hn
  rw [hv, if_neg (by omega), if_neg (by omega), if_pos (by omega), ofNat_eq (a := a) (by omega),
    ofNat_eq (a := b) (by omega), ofNat_eq (a := c) (by omega)]

theorem encodeChar_four {a b c d : UInt8} (h : opensFour a b = true) (ht : isTail c = true)
    (ht' : isTail d = true) :
    encodeChar (.ofNat (a.toNat % 0x08 * 0x40000 + low b * 0x1000 + low c * 0x40 + low d)) =
      [a, b, c, d] := by
  have hab := (opensFour_iff a b).mp h
  have hc := (isTail_iff c).mp ht
  have hd := (isTail_iff d).mp ht'
  obtain ⟨n, hn⟩ : ∃ n, n = a.toNat % 0x08 * 0x40000 + low b * 0x1000 + low c * 0x40 + low d :=
    ⟨_, rfl⟩
  have hv : (Char.ofNat n).toNat = n := toNat_ofNat_char (by unfold low at hn; omega)
  rw [← hn]
  unfold encodeChar
  unfold low at hn
  rw [hv, if_neg (by omega), if_neg (by omega), if_neg (by omega), ofNat_eq (a := a) (by omega),
    ofNat_eq (a := b) (by omega), ofNat_eq (a := c) (by omega), ofNat_eq (a := d) (by omega)]

/-! ### One piece at a time -/

/-- What a scan takes off the front: the bytes of a character, or an ill-formed piece. -/
inductive Reads : List UInt8 → Option Char → List UInt8 → Prop where
  | character (c : Char) (r : List UInt8) : Reads (encodeChar c ++ r) (some c) r
  | illFormed {p : List UInt8} (h : p ≠ []) (r : List UInt8) : Reads (p ++ r) none r

theorem reads_of_scan_eq_cons {bs : List UInt8} {x : Option Char} {xs : List (Option Char)}
    (h : scan bs = x :: xs) : ∃ r, Reads bs x r ∧ scan r = xs := by
  have hc (c : Char) {p : List UInt8} (hp : encodeChar c = p) (r : List UInt8) :
      Reads (p ++ r) (some c) r := hp ▸ .character c r
  revert h
  -- the cases of a scan: four end in a character, and the others in a piece of one to three bytes
  fun_cases scan bs with
  | case1 => intro h; cases h
  | case2 a r ha =>
    rintro ⟨⟩
    exact ⟨r, hc _ (encodeChar_one ((oneByte_iff a).mp ha)) r, rfl⟩
  | case3 a =>
    rintro ⟨⟩
    exact ⟨[], .illFormed (p := [a]) (by simp) [], rfl⟩
  | case4 a ha b r h =>
    rintro ⟨⟩
    exact ⟨r, hc _ (encodeChar_two h) r, rfl⟩
  | case5 a ha b r =>
    rintro ⟨⟩
    exact ⟨_, .illFormed (p := [a]) (by simp) _, rfl⟩
  | case6 a ha b =>
    rintro ⟨⟩
    exact ⟨[], .illFormed (p := [a, b]) (by simp) [], rfl⟩
  | case7 a ha b _ _ c r =>
    rintro ⟨⟩
    exact ⟨_, .illFormed (p := [a, b]) (by simp) _, rfl⟩
  | case8 a ha b _ _ c r hc' ho =>
    rintro ⟨⟩
    exact ⟨r, hc _ (encodeChar_three ho (by simpa using hc')) r, rfl⟩
  | case9 a ha b _ _ c =>
    rintro ⟨⟩
    exact ⟨[], .illFormed (p := [a, b, c]) (by simp) [], rfl⟩
  | case10 a ha b _ h c hc' ho d r hd =>
    rintro ⟨⟩
    have hf : opensFour a b = true := by simpa [ho] using h
    exact ⟨r, hc _ (encodeChar_four hf (by simpa using hc') hd) r, rfl⟩
  | case11 a ha b _ _ c _ _ d r =>
    rintro ⟨⟩
    exact ⟨_, .illFormed (p := [a, b, c]) (by simp) _, rfl⟩

theorem Reads.eq_append {bs r : List UInt8} {c : Char} (h : Reads bs (some c) r) :
    bs = encodeChar c ++ r := by
  cases h with
  | character => rfl

theorem Reads.exists_append {bs r : List UInt8} {x : Option Char} (h : Reads bs x r) :
    ∃ p, bs = p ++ r := by
  cases h with
  | character c => exact ⟨encodeChar c, rfl⟩
  | illFormed => exact ⟨_, rfl⟩

/-- A character's first byte is no tail. -/
theorem exists_encodeChar_eq_cons (c : Char) :
    ∃ a r, encodeChar c = a :: r ∧ ¬ isTail a = true := by
  have hv := toNat_char_lt c
  simp only [encodeChar]
  split_ifs
  all_goals
    refine ⟨_, _, rfl, ?_⟩
    rw [isTail_iff, toNat_ofNat_of_lt (by omega)]
    omega

theorem isTail_of_isPair {a b : UInt8} (h : isPair a b = true) : isTail b = true :=
  (isTail_iff b).mpr ((isPair_iff a b).mp h).2

theorem isTail_of_opens {a b : UInt8} (h : (opensThree a b || opensFour a b) = true) :
    isTail b = true := by
  rw [isTail_iff]
  rcases (Bool.or_eq_true _ _).mp h with h | h
  · have ht := (opensThree_iff a b).mp h
    omega
  · have hf := (opensFour_iff a b).mp h
    omega

/-- A byte that is no tail starts a piece, whatever stands before it. -/
theorem scan_append_cons {a : UInt8} (ha : ¬ isTail a = true) (p r : List UInt8) :
    scan (p ++ a :: r) = scan p ++ scan (a :: r) := by
  have hp (b : UInt8) : ¬ isPair b a = true := fun h => ha (isTail_of_isPair h)
  have ho (b : UInt8) : ¬ (opensThree b a || opensFour b a) = true := fun h => ha (isTail_of_opens h)
  have hy {x : Bool} (hx : ¬ (!x) = true) : x = true := by simpa using hx
  have hn {x : Bool} (hx : (!x) = true) : ¬ x = true := by simpa using hx
  -- where the scan of `p` ends inside a character, the byte `a` cannot carry it on: each such case
  -- reads the unfinished start as one ill-formed piece, with `a` behind it as without
  fun_induction scan p with
  | case1 => rfl
  | case2 b p hb ih => simp only [List.cons_append, scan_one ((oneByte_iff b).mp hb), ih]
  | case3 b hb => exact scan_illFormed_one hb (hp b) (ho b) r
  | case4 b hb c p h ih => simp only [List.cons_append, scan_two h, ih]
  | case5 b hb c p h h' ih => simp only [List.cons_append, scan_illFormed_one hb h (hn h'), ← ih]
  | case6 b hb c h h' => exact scan_illFormed_two hb h (hy h') ha r
  | case7 b hb c h h' d p hd ih =>
    simp only [List.cons_append, scan_illFormed_two hb h (hy h') (hn hd), ← ih]
  | case8 b hb c h h' d p hd h₃ ih => simp only [List.cons_append, scan_three h₃ (hy hd), ih]
  | case9 b hb c h h' d hd h₃ =>
    have h₄ : opensFour b c = true := by simpa [h₃] using hy h'
    exact scan_illFormed_three hb h h₄ (hy hd) ha r
  | case10 b hb c h h' d hd h₃ e p he ih =>
    have h₄ : opensFour b c = true := by simpa [h₃] using hy h'
    simp only [List.cons_append, scan_four h₄ (hy hd) he, ih]
  | case11 b hb c h h' d hd h₃ e p he ih =>
    have h₄ : opensFour b c = true := by simpa [h₃] using hy h'
    simp only [List.cons_append, scan_illFormed_three hb h h₄ (hy hd) he, ← ih]

/-! ### Texts -/

theorem scan_eq_nil_iff (bs : List UInt8) : scan bs = [] ↔ bs = [] := by
  fun_cases scan bs <;> simp

theorem encode_cons (c : Char) (cs : List Char) : encode (c :: cs) = encodeChar c ++ encode cs :=
  List.flatMap_cons

theorem length_encode_of_ascii {cs : List Char} (h : ∀ c ∈ cs, c.toNat < 0x80) :
    (encode cs).length = cs.length := by
  induction cs with
  | nil => rfl
  | cons c cs ih =>
    have hlt : c.toNat < 0x80 := h c (List.mem_cons_self ..)
    have hc : (encodeChar c).length = 1 := by
      unfold encodeChar
      rw [if_pos hlt]
      rfl
    have hcs := ih fun d hd => h d (List.mem_cons_of_mem _ hd)
    rw [encode_cons, List.length_append, hc, hcs, List.length_cons]
    omega

theorem scan_encode_append (cs : List Char) (r : List UInt8) :
    scan (encode cs ++ r) = cs.map some ++ scan r := by
  induction cs with
  | nil => rfl
  | cons c cs ih =>
    rw [encode_cons, List.append_assoc, scan_encodeChar_append, ih, List.map_cons, List.cons_append]

theorem scan_encode (cs : List Char) : scan (encode cs) = cs.map some := by
  simpa [scan] using scan_encode_append cs []

/-- A text is read as itself, whatever stands before it. -/
theorem scan_append_encode (p : List UInt8) (cs : List Char) :
    scan (p ++ encode cs) = scan p ++ cs.map some := by
  rw [← scan_encode]
  cases cs with
  | nil => simp [encode, scan]
  | cons c cs =>
    obtain ⟨a, r, hc, ha⟩ := exists_encodeChar_eq_cons c
    rw [encode_cons, hc, List.cons_append, scan_append_cons ha]

theorem encode_eq_nil_iff (cs : List Char) : encode cs = [] ↔ cs = [] := by
  rw [← scan_eq_nil_iff, scan_encode, List.map_eq_nil_iff]

theorem eq_encode_of_scan {bs : List UInt8} {cs : List Char} (h : scan bs = cs.map some) :
    bs = encode cs := by
  induction cs generalizing bs with
  | nil => exact (scan_eq_nil_iff bs).mp h
  | cons c cs ih =>
    obtain ⟨r, hr, hs⟩ := reads_of_scan_eq_cons h
    rw [hr.eq_append, ih hs, encode_cons]

/-- Strict reading undoes writing, and accepts nothing else. -/
theorem decode?_eq_some_iff (bs : List UInt8) (cs : List Char) :
    decode? bs = some cs ↔ bs = encode cs := by
  rw [decode?, mapM_id_eq_some_iff]
  constructor
  · exact eq_encode_of_scan
  · rintro rfl
    exact scan_encode cs

@[simp] theorem decode?_encode (cs : List Char) : decode? (encode cs) = some cs :=
  (decode?_eq_some_iff _ cs).mpr rfl

@[simp] theorem decodeLossy_encode (cs : List Char) : decodeLossy (encode cs) = cs := by
  simp [decodeLossy, scan_encode, Function.comp_def]

theorem decodeLossy_encode_append (cs : List Char) (r : List UInt8) :
    decodeLossy (encode cs ++ r) = cs ++ decodeLossy r := by
  simp [decodeLossy, scan_encode_append, Function.comp_def]

theorem decodeLossy_append_encode (p : List UInt8) (cs : List Char) :
    decodeLossy (p ++ encode cs) = decodeLossy p ++ cs := by
  simp [decodeLossy, scan_append_encode, Function.comp_def]

theorem decodeLossy_append_encodeChar (p : List UInt8) (c : Char) :
    decodeLossy (p ++ encodeChar c) = decodeLossy p ++ [c] := by
  rw [← decodeLossy_append_encode, encode_cons]
  exact congrArg (fun q => decodeLossy (p ++ q)) (List.append_nil _).symm

theorem decodeLossy_eq_nil_iff (bs : List UInt8) : decodeLossy bs = [] ↔ bs = [] := by
  rw [decodeLossy, List.map_eq_nil_iff, scan_eq_nil_iff]

/-- Reading with replacement characters gives back the bytes only where there is nothing to
replace. -/
theorem encode_decodeLossy_eq_iff (bs : List UInt8) :
    encode (decodeLossy bs) = bs ↔ decode? bs ≠ none := by
  constructor
  · intro h
    rw [← h, decode?_encode]
    exact Option.some_ne_none _
  · intro h
    obtain ⟨cs, hcs⟩ := Option.ne_none_iff_exists'.mp h
    obtain rfl := (decode?_eq_some_iff bs cs).mp hcs
    rw [decodeLossy_encode]

theorem replacement_mem_decodeLossy {bs : List UInt8} (h : decode? bs = none) :
    '\uFFFD' ∈ decodeLossy bs :=
  List.mem_map.mpr ⟨none, (mapM_id_eq_none_iff _).mp h, rfl⟩

/-! ### Order -/

theorem encodeChar_append_lt {c d : Char} (h : c < d) (r s : List UInt8) :
    encodeChar c ++ r < encodeChar d ++ s := by
  have hn : c.toNat < d.toNat := h
  have hc := toNat_char_lt c
  have hd := toNat_char_lt d
  simp only [encodeChar]
  split_ifs
  all_goals
    simp (disch := omega) only [List.cons_append, List.nil_append, List.cons_lt_cons_iff,
      UInt8.lt_iff_toNat_lt, ← UInt8.toNat_inj, toNat_ofNat_of_lt]
    omega

/-- Texts are in the order of their bytes. -/
theorem encode_lt_encode {cs ds : List Char} (h : cs < ds) : encode cs < encode ds := by
  induction cs generalizing ds with
  | nil =>
    cases ds with
    | nil => exact absurd h (List.lt_irrefl [])
    | cons d ds =>
      obtain ⟨a, r, ha, -⟩ := exists_encodeChar_eq_cons d
      rw [encode_cons, ha]
      exact List.nil_lt_cons a _
  | cons c cs ih =>
    cases ds with
    | nil => exact absurd h (List.not_lt_nil _)
    | cons d ds =>
      rw [encode_cons, encode_cons]
      rcases List.cons_lt_cons_iff.mp h with hcd | ⟨rfl, hcs⟩
      · exact encodeChar_append_lt hcd _ _
      · exact List.append_left_lt (ih hcs)

/-! ### Blanks at the ends -/

/-- No blank stands at either end of the bytes. -/
def Unpadded (bs : List UInt8) : Prop :=
  ∀ c, isBlank c = true → ¬ encodeChar c <+: bs ∧ ¬ encodeChar c <:+ bs

theorem exists_suffix_of_scan_eq_append {bs : List UInt8} {xs ys : List (Option Char)}
    (h : scan bs = xs ++ ys) : ∃ p q, bs = p ++ q ∧ scan q = ys := by
  induction xs generalizing bs with
  | nil => exact ⟨[], bs, rfl, h⟩
  | cons x xs ih =>
    obtain ⟨r, hr, hs⟩ := reads_of_scan_eq_cons h
    obtain ⟨p, q, hpq, hq⟩ := ih hs
    obtain ⟨t, ht⟩ := hr.exists_append
    exact ⟨t ++ p, q, by rw [ht, hpq, List.append_assoc], hq⟩

theorem isBlank_getD {x : Option Char} (h : ∀ c, x = some c → isBlank c = false) :
    isBlank (x.getD '\uFFFD') = false := by
  cases x with
  | none => decide
  | some c => exact h c rfl

/-- Replacement characters are no blanks, so that a text has blanks at its ends just where its bytes
have them. -/
theorem trimmed_decodeLossy_iff (bs : List UInt8) : Trimmed (decodeLossy bs) ↔ Unpadded bs := by
  constructor
  · intro ht c hb
    refine ⟨?_, ?_⟩
    · rintro ⟨r, rfl⟩
      have hh : c ∈ (decodeLossy (encodeChar c ++ r)).head? := by
        simp [decodeLossy, scan_encodeChar_append]
      simp [ht.1 c hh] at hb
    · rintro ⟨p, rfl⟩
      have hl : c ∈ (decodeLossy (p ++ encodeChar c)).getLast? := by
        simp [decodeLossy_append_encodeChar]
      simp [ht.2 c hl] at hb
  · intro hu
    constructor
    · intro c hc
      rw [decodeLossy, List.head?_map] at hc
      obtain ⟨x, hx, rfl⟩ := Option.map_eq_some_iff.mp hc
      obtain ⟨xs, hxs⟩ := List.head?_eq_some_iff.mp hx
      obtain ⟨r, hr, -⟩ := reads_of_scan_eq_cons hxs
      refine isBlank_getD fun d hd => ?_
      have hbs : bs = encodeChar d ++ r := (hd ▸ hr).eq_append
      by_contra hb
      exact (hu d (by simpa using hb)).1 ⟨r, hbs.symm⟩
    · intro c hc
      rw [decodeLossy, List.getLast?_map] at hc
      obtain ⟨x, hx, rfl⟩ := Option.map_eq_some_iff.mp hc
      obtain ⟨xs, hxs⟩ := List.getLast?_eq_some_iff.mp hx
      obtain ⟨p, q, hpq, hq⟩ := exists_suffix_of_scan_eq_append hxs
      obtain ⟨r, hr, hs⟩ := reads_of_scan_eq_cons hq
      refine isBlank_getD fun d hd => ?_
      have hqd : q = encodeChar d ++ r := (hd ▸ hr).eq_append
      rw [hqd, (scan_eq_nil_iff r).mp hs, List.append_nil] at hpq
      by_contra hb
      exact (hu d (by simpa using hb)).2 ⟨p, hpq.symm⟩

instance (bs : List UInt8) : Decidable (Unpadded bs) :=
  decidable_of_iff _ (trimmed_decodeLossy_iff bs)

end Utf8

end HostProfile.Text
