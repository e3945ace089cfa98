import HostProfile.Proofs.Text.Utf8
import HostProfile.Text.Utf16

/-! UTF-16 read and written. A text is read back from its units, and units that are read strictly
are the ones written for what was read. They cannot be read just where a surrogate stands without
its other half beside it. A unit that is no second half is read anew, whatever stands before it. -/
namespace HostProfile.Text.Utf16

/-! ### Units as numbers -/

theorem isHigh_iff (u : UInt16) : isHigh u = true ↔ 0xD800 ≤ u.toNat ∧ u.toNat ≤ 0xDBFF := by
  simp [isHigh, UInt16.le_iff_toNat_le]

theorem isLow_iff (u : UInt16) : isLow u = true ↔ 0xDC00 ≤ u.toNat ∧ u.toNat ≤ 0xDFFF := by
  simp [isLow, UInt16.le_iff_toNat_le]

theorem not_isLow_of_isHigh {u : UInt16} (h : isHigh u = true) : ¬ isLow u = true := by
  rw [isHigh_iff] at h
  rw [isLow_iff]
  omega

theorem not_isHigh_of_isLow {u : UInt16} (h : isLow u = true) : ¬ isHigh u = true :=
  fun hu => not_isLow_of_isHigh hu h

theorem toNat_pair {u v : UInt16} (hu : isHigh u = true) (hv : isLow v = true) :
    (pair u v).toNat = 0x10000 + (u.toNat - 0xD800) * 0x400 + (v.toNat - 0xDC00) := by
  rw [isHigh_iff] at hu
  rw [isLow_iff] at hv
  unfold pair
  rw [Utf8.toNat_ofNat_char (by omega)]
  omega

/-- A unit that is no surrogate is the number of a character. -/
theorem toNat_ofNat_unit {u : UInt16} (hu : ¬ isHigh u = true) (hv : ¬ isLow u = true) :
    (Char.ofNat u.toNat).toNat = u.toNat := by
  rw [isHigh_iff] at hu
  rw [isLow_iff] at hv
  have hlt := u.toNat_lt
  exact Utf8.toNat_ofNat_char (by omega)

/-! ### Characters of one or two units -/

theorem encodeChar_eq_single_iff (c : Char) (u : UInt16) :
    encodeChar c = [u] ↔ c.toNat = u.toNat := by
  have hlt := u.toNat_lt
  simp only [encodeChar]
  split_ifs with h
  · rw [List.cons_eq_cons, and_iff_left rfl, ← UInt16.toNat_inj, UInt16.toNat_ofNat',
      Nat.mod_eq_of_lt h]
  · constructor
    · intro he
      cases he
    · intro he
      omega

theorem encodeChar_eq_pair_iff (c : Char) (u v : UInt16) :
    encodeChar c = [u, v] ↔ isHigh u = true ∧ isLow v = true ∧
      c.toNat = 0x10000 + (u.toNat - 0xD800) * 0x400 + (v.toNat - 0xDC00) := by
  have hc := Utf8.toNat_char_lt c
  rw [isHigh_iff, isLow_iff]
  simp only [encodeChar]
  split_ifs with h
  · constructor
    · intro he
      cases he
    · intro he
      omega
  · rw [List.cons_eq_cons, List.cons_eq_cons, and_iff_left rfl, ← UInt16.toNat_inj,
      ← UInt16.toNat_inj, UInt16.toNat_ofNat', UInt16.toNat_ofNat', Nat.mod_eq_of_lt (by omega),
      Nat.mod_eq_of_lt (by omega)]
    omega

theorem encodeChar_cases (c : Char) :
    (∃ u, encodeChar c = [u]) ∨ ∃ u v, encodeChar c = [u, v] := by
  simp only [encodeChar]
  split_ifs with h
  · exact Or.inl ⟨_, rfl⟩
  · exact Or.inr ⟨_, _, rfl⟩

theorem encodeChar_ofNat {u : UInt16} (hu : ¬ isHigh u = true) (hv : ¬ isLow u = true) :
    encodeChar (.ofNat u.toNat) = [u] :=
  (encodeChar_eq_single_iff _ u).mpr (toNat_ofNat_unit hu hv)

theorem encodeChar_pair {u v : UInt16} (hu : isHigh u = true) (hv : isLow v = true) :
    encodeChar (pair u v) = [u, v] :=
  (encodeChar_eq_pair_iff _ u v).mpr ⟨hu, hv, toNat_pair hu hv⟩

/-- A character's first unit is no second half. -/
theorem exists_encodeChar_eq_cons (c : Char) :
    ∃ u r, encodeChar c = u :: r ∧ ¬ isLow u = true := by
  rcases encodeChar_cases c with ⟨u, h⟩ | ⟨u, v, h⟩
  · have hc := Utf8.toNat_char_lt c
    have hu := (encodeChar_eq_single_iff c u).mp h
    refine ⟨u, [], h, ?_⟩
    rw [isLow_iff]
    omega
  · exact ⟨u, [v], h, not_isLow_of_isHigh ((encodeChar_eq_pair_iff c u v).mp h).1⟩

/-! ### One character at a time -/

theorem scan_pair {u v : UInt16} (hu : isHigh u = true) (hv : isLow v = true) (r : List UInt16) :
    scan (u :: v :: r) = some (pair u v) :: scan r := by
  rw [scan.eq_def]
  simp only [hu, hv, if_true]

theorem scan_high {u v : UInt16} (hu : isHigh u = true) (hv : ¬ isLow v = true) (r : List UInt16) :
    scan (u :: v :: r) = none :: scan (v :: r) := by
  rw [scan.eq_def]
  simp only [hu, hv, if_true, if_false, Bool.false_eq_true]

theorem scan_low {u : UInt16} (hu : isLow u = true) (r : List UInt16) :
    scan (u :: r) = none :: scan r := by
  rw [scan.eq_def]
  simp only [not_isHigh_of_isLow hu, hu, if_true, if_false, Bool.false_eq_true]

theorem scan_single {u : UInt16} (hu : ¬ isHigh u = true) (hv : ¬ isLow u = true)
    (r : List UInt16) : scan (u :: r) = some (.ofNat u.toNat) :: scan r := by
  rw [scan.eq_def]
  simp only [hu, hv, if_false, Bool.false_eq_true]

/-- A character's units are read as the character, whatever follows them. -/
theorem scan_encodeChar_append (c : Char) (r : List UInt16) :
    scan (encodeChar c ++ r) = some c :: scan r := by
  have hc := Utf8.toNat_char_lt c
  rcases encodeChar_cases c with ⟨u, h⟩ | ⟨u, v, h⟩
  · have hn := (encodeChar_eq_single_iff c u).mp h
    have hu : ¬ isHigh u = true := by
      rw [isHigh_iff]
      omega
    have hv : ¬ isLow u = true := by
      rw [isLow_iff]
      omega
    rw [h, List.singleton_append, scan_single hu hv, ← hn, Char.ofNat_toNat]
  · obtain ⟨hu, hv, hn⟩ := (encodeChar_eq_pair_iff c u v).mp h
    have hp : pair u v = c := Char.toNat_inj.mp ((toNat_pair hu hv).trans hn.symm)
    rw [h, List.cons_append, List.singleton_append, scan_pair hu hv, hp]

/-- A unit that is no second half is read anew, whatever stands before it. -/
theorem scan_append_cons {u : UInt16} (hu : ¬ isLow u = true) (p r : List UInt16) :
    scan (p ++ u :: r) = scan p ++ scan (u :: r) := by
  fun_induction scan p with
  | case1 => rfl
  | case2 v hv => exact scan_high hv hu r
  | case3 v hv w p hw ih => simp only [List.cons_append, scan_pair hv hw, ih]
  | case4 v hv w p hw ih => simp only [List.cons_append, scan_high hv hw, ← ih]
  | case5 v p hv hw ih => simp only [List.cons_append, scan_low hw, ih]
  | case6 v p hv hw ih => simp only [List.cons_append, scan_single hv hw, ih]

/-! ### Texts -/

theorem encode_cons (c : Char) (cs : List Char) : encode (c :: cs) = encodeChar c ++ encode cs :=
  List.flatMap_cons

theorem scan_encode_append (cs : List Char) (r : List UInt16) :
    scan (encode cs ++ r) = cs.map some ++ scan r := by
  induction cs with
  | nil => rfl
  | cons c cs ih =>
    rw [encode_cons, List.append_assoc, scan_encodeChar_append, ih, List.map_cons, List.cons_append]

theorem scan_encode (cs : List Char) : scan (encode cs) = cs.map some := by
  simpa [scan] using scan_encode_append cs []

/-- A text is read as itself, whatever stands before it. -/
theorem scan_append_encode (p : List UInt16) (cs : List Char) :
    scan (p ++ encode cs) = scan p ++ cs.map some := by
  rw [← scan_encode]
  cases cs with
  | nil => simp [encode, scan]
  | cons c cs =>
    obtain ⟨u, r, hc, hu⟩ := exists_encodeChar_eq_cons c
    rw [encode_cons, hc, List.cons_append, scan_append_cons hu]

theorem eq_encode_of_scan {us : List UInt16} {cs : List Char} (h : scan us = cs.map some) :
    us = encode cs := by
  fun_induction scan us generalizing cs with
  | case1 =>
    rw [List.map_eq_nil_iff.mp h.symm]
    rfl
  | case3 u hu v r hv ih =>
    obtain ⟨c, cs, rfl, hc, hr⟩ := List.map_eq_cons_iff.mp h.symm
    rw [encode_cons, Option.some.inj hc, encodeChar_pair hu hv, ← ih hr.symm]
    rfl
  | case6 u r hu hv ih =>
    obtain ⟨c, cs, rfl, hc, hr⟩ := List.map_eq_cons_iff.mp h.symm
    rw [encode_cons, Option.some.inj hc, encodeChar_ofNat hu hv, ← ih hr.symm]
    rfl
  -- the other cases read an unpaired surrogate first
  | _ =>
    obtain ⟨c, cs, -, hc, -⟩ := List.map_eq_cons_iff.mp h.symm
    cases hc

/-- Strict reading undoes writing, and accepts nothing else. -/
theorem decode?_eq_some_iff (us : List UInt16) (cs : List Char) :
    decode? us = some cs ↔ us = encode cs := by
  rw [decode?, mapM_id_eq_some_iff]
  constructor
  · exact eq_encode_of_scan
  · rintro rfl
    exact scan_encode cs

theorem encode_eq_nil_iff (cs : List Char) : encode cs = [] ↔ cs = [] := by
  constructor
  · intro h
    have hs := scan_encode cs
    rw [h] at hs
    exact List.map_eq_nil_iff.mp hs.symm
  · rintro rfl
    rfl

theorem decodeLossy_encode_append (cs : List Char) (r : List UInt16) :
    decodeLossy (encode cs ++ r) = cs ++ decodeLossy r := by
  simp [decodeLossy, scan_encode_append, Function.comp_def]

theorem decodeLossy_append_encode (p : List UInt16) (cs : List Char) :
    decodeLossy (p ++ encode cs) = decodeLossy p ++ cs := by
  simp [decodeLossy, scan_append_encode, Function.comp_def]

@[simp] theorem decode?_encode (cs : List Char) : decode? (encode cs) = some cs :=
  (decode?_eq_some_iff _ cs).mpr rfl

@[simp] theorem decodeLossy_encode (cs : List Char) : decodeLossy (encode cs) = cs := by
  simp [decodeLossy, scan_encode, Function.comp_def]

theorem replacement_mem_decodeLossy {us : List UInt16} (h : decode? us = none) :
    '\uFFFD' ∈ decodeLossy us :=
  List.mem_map.mpr ⟨none, (mapM_id_eq_none_iff _).mp h, rfl⟩

/-- Units as the form of a text, character by character. -/
inductive Spells : List UInt16 → List Char → Prop where
  | nil : Spells [] []
  | single {u : UInt16} {c : Char} {us : List UInt16} {cs : List Char} (h : c.toNat = u.toNat)
      (hs : Spells us cs) : Spells (u :: us) (c :: cs)
  | pair {u v : UInt16} {c : Char} {us : List UInt16} {cs : List Char} (hu : isHigh u = true)
      (hv : isLow v = true)
      (h : c.toNat = 0x10000 + (u.toNat - 0xD800) * 0x400 + (v.toNat - 0xDC00))
      (hs : Spells us cs) : Spells (u :: v :: us) (c :: cs)

theorem spells_iff (us : List UInt16) (cs : List Char) : Spells us cs ↔ us = encode cs := by
  constructor
  · intro h
    induction h with
    | nil => rfl
    | single h _ ih => rw [encode_cons, (encodeChar_eq_single_iff ..).mpr h, ih]; rfl
    | pair hu hv h _ ih => rw [encode_cons, (encodeChar_eq_pair_iff ..).mpr ⟨hu, hv, h⟩, ih]; rfl
  · rintro rfl
    induction cs with
    | nil => exact .nil
    | cons c cs ih =>
      rw [encode_cons]
      rcases encodeChar_cases c with ⟨u, h⟩ | ⟨u, v, h⟩
      · rw [h]
        exact .single ((encodeChar_eq_single_iff c u).mp h) ih
      · obtain ⟨hu, hv, hn⟩ := (encodeChar_eq_pair_iff c u v).mp h
        rw [h]
        exact .pair hu hv hn ih

/-! ### Unpaired surrogates -/

/-- The unit at a place is a first half that no second half follows, or a second half that no first
half precedes. -/
def UnpairedAt (us : List UInt16) (i : ℕ) : Prop :=
  ∃ u, us[i]? = some u ∧
    (isHigh u = true ∧ (∀ v, us[i + 1]? = some v → ¬ isLow v = true) ∨
      isLow u = true ∧ ∀ j, j + 1 = i → ∀ v, us[j]? = some v → ¬ isHigh v = true)

theorem not_unpairedAt_nil (i : ℕ) : ¬ UnpairedAt [] i := by
  simp [UnpairedAt]

theorem unpairedAt_zero_iff (u : UInt16) (r : List UInt16) :
    UnpairedAt (u :: r) 0 ↔
      isHigh u = true ∧ (∀ v, r[0]? = some v → ¬ isLow v = true) ∨ isLow u = true := by
  simp [UnpairedAt]

theorem unpairedAt_succ_iff (us : List UInt16) (i : ℕ) :
    UnpairedAt us (i + 1) ↔ ∃ u, us[i + 1]? = some u ∧
      (isHigh u = true ∧ (∀ v, us[i + 2]? = some v → ¬ isLow v = true) ∨
        isLow u = true ∧ ∀ v, us[i]? = some v → ¬ isHigh v = true) := by
  simp only [UnpairedAt, Nat.add_right_cancel_iff, forall_eq]

/-- Only the neighbours of a unit matter. -/
theorem unpairedAt_cons_cons (u v : UInt16) (r : List UInt16) (i : ℕ) :
    UnpairedAt (u :: v :: r) (i + 2) ↔ UnpairedAt (v :: r) (i + 1) := by
  rw [unpairedAt_succ_iff, unpairedAt_succ_iff]
  rfl

/-- A unit that is no first half does not matter to what stands behind it. -/
theorem unpairedAt_cons {u : UInt16} (hu : ¬ isHigh u = true) (r : List UInt16) (i : ℕ) :
    UnpairedAt (u :: r) (i + 1) ↔ UnpairedAt r i := by
  cases r with
  | nil => simp [UnpairedAt]
  | cons v r =>
    cases i with
    | zero => simp [unpairedAt_succ_iff, unpairedAt_zero_iff, hu]
    | succ i => exact unpairedAt_cons_cons u v r i

theorem exists_unpairedAt_pair {u v : UInt16} (hu : isHigh u = true) (hv : isLow v = true)
    (r : List UInt16) : (∃ i, UnpairedAt (u :: v :: r) i) ↔ ∃ i, UnpairedAt r i := by
  have h₀ : ¬ UnpairedAt (u :: v :: r) 0 := by
    simp [unpairedAt_zero_iff, not_isLow_of_isHigh hu, hv]
  have h₁ : ¬ UnpairedAt (u :: v :: r) 1 := by
    simp [unpairedAt_succ_iff, not_isHigh_of_isLow hv, hu]
  rw [← Nat.or_exists_add_one, ← Nat.or_exists_add_one, or_iff_right h₀, or_iff_right h₁]
  exact exists_congr fun i =>
    (unpairedAt_cons_cons u v r i).trans (unpairedAt_cons (not_isHigh_of_isLow hv) r i)

theorem exists_unpairedAt_single {u : UInt16} (hu : ¬ isHigh u = true) (hv : ¬ isLow u = true)
    (r : List UInt16) : (∃ i, UnpairedAt (u :: r) i) ↔ ∃ i, UnpairedAt r i := by
  have h₀ : ¬ UnpairedAt (u :: r) 0 := by
    simp [unpairedAt_zero_iff, hu, hv]
  rw [← Nat.or_exists_add_one, or_iff_right h₀]
  exact exists_congr fun i => unpairedAt_cons hu r i

/-- A scan from left to right finds fault exactly where a unit and its neighbours do not fit. -/
theorem none_mem_scan_iff (us : List UInt16) : none ∈ scan us ↔ ∃ i, UnpairedAt us i := by
  fun_induction scan us with
  | case1 => simp [not_unpairedAt_nil]
  | case2 u hu =>
    have h : UnpairedAt [u] 0 := by simp [unpairedAt_zero_iff, hu]
    exact iff_of_true (List.mem_cons_self ..) ⟨0, h⟩
  | case3 u hu v r hv ih =>
    rw [exists_unpairedAt_pair hu hv, ← ih]
    simp
  | case4 u hu v r hv _ =>
    have h : UnpairedAt (u :: v :: r) 0 := by simp [unpairedAt_zero_iff, hu, hv]
    exact iff_of_true (List.mem_cons_self ..) ⟨0, h⟩
  | case5 u r _ hv _ =>
    have h : UnpairedAt (u :: r) 0 := by simp [unpairedAt_zero_iff, hv]
    exact iff_of_true (List.mem_cons_self ..) ⟨0, h⟩
  | case6 u r hu hv ih =>
    rw [exists_unpairedAt_single hu hv, ← ih]
    simp

theorem decode?_eq_none_iff (us : List UInt16) : decode? us = none ↔ ∃ i, UnpairedAt us i := by
  rw [decode?, mapM_id_eq_none_iff, none_mem_scan_iff]

end HostProfile.Text.Utf16
