import HostProfile.Decimal.Reading
import Mathlib.Data.List.Induction
import Mathlib.Data.List.TakeWhile
import Mathlib.Data.Nat.Digits.Defs

/-! How numbers are written, and that their readers accept just that: whole numbers with a sign, and
decimals with a point and an exponent. -/
namespace HostProfile.Decimal

open Text

/-! ### Digits -/

def AllDigits (cs : List Char) : Prop :=
  ∀ c ∈ cs, c.isDigit = true

def digit (c : Char) : Nat :=
  c.toNat - '0'.toNat

/-- The number that digits stand for, the last of them counting once. -/
def digitsValue (ds : List Char) : Nat :=
  Nat.ofDigits 10 (ds.map digit).reverse

theorem digitsValue_append_singleton (ds : List Char) (c : Char) :
    digitsValue (ds ++ [c]) = digitsValue ds * 10 + digit c := by
  simp only [digitsValue, List.map_append, List.map_singleton, List.reverse_append,
    List.reverse_singleton, List.singleton_append, Nat.ofDigits_cons]
  omega

/-- One step of reading digits. -/
private def pushDigit? (n : Nat) (c : Char) : Option Nat :=
  if c.isDigit then some (n * 10 + digit c) else none

private theorem pushDigit?_eq (n : Nat) (c : Char) :
    ((Reader.hexValue? c).bind fun d => if d < 10 then some (n * 10 + d) else none) =
      pushDigit? n c := by
  unfold Reader.hexValue? pushDigit? digit
  have hd : c.isDigit = true ↔ 48 ≤ c.toNat ∧ c.toNat ≤ 57 := Char.isDigit_iff_toNat
  have h0 : '0' ≤ c ∧ c ≤ '9' ↔ 48 ≤ c.toNat ∧ c.toNat ≤ 57 := Iff.rfl
  have ha : 'a' ≤ c ∧ c ≤ 'f' ↔ 97 ≤ c.toNat ∧ c.toNat ≤ 102 := Iff.rfl
  have hA : 'A' ≤ c ∧ c ≤ 'F' ↔ 65 ≤ c.toNat ∧ c.toNat ≤ 70 := Iff.rfl
  simp only [Bool.and_eq_true, decide_eq_true_eq, hd, h0, ha, hA]
  by_cases h : 48 ≤ c.toNat ∧ c.toNat ≤ 57
  · have hlt : c.toNat - '0'.toNat < 10 := by
      simp only [show '0'.toNat = 48 from rfl]
      omega
    rw [if_pos h, if_pos h, Option.bind_some, if_pos hlt]
  · -- a hexadecimal digit that is none of these counts ten or more
    rw [if_neg h, if_neg h]
    split
    · rw [Option.bind_some, if_neg (by omega)]
    · split
      · rw [Option.bind_some, if_neg (by omega)]
      · rfl

private theorem foldlM_pushDigit?_eq_some_iff (ds : List Char) (n : Nat) :
    ds.foldlM pushDigit? 0 = some n ↔ AllDigits ds ∧ digitsValue ds = n := by
  induction ds using List.reverseRecOn generalizing n with
  | nil => simp [AllDigits, digitsValue]
  | append_singleton ds c ih =>
    simp only [List.foldlM_append, List.foldlM_cons, List.foldlM_nil, Option.bind_eq_bind,
      Option.bind_eq_some_iff, ih, digitsValue_append_singleton]
    constructor
    · intro h
      obtain ⟨m, ⟨hd, rfl⟩, k, hk, he⟩ := h
      unfold pushDigit? at hk
      split at hk
      · next hc =>
        cases hk
        cases he
        refine ⟨fun x hx => ?_, rfl⟩
        rcases List.mem_append.mp hx with hx | hx
        · exact hd x hx
        · rwa [List.mem_singleton.mp hx]
      · cases hk
    · intro h
      obtain ⟨hd, rfl⟩ := h
      have hc : c.isDigit = true := hd c (by simp)
      have hpush : pushDigit? (digitsValue ds) c = some (digitsValue ds * 10 + digit c) := if_pos hc
      exact ⟨_, ⟨fun x hx => hd x (List.mem_append_left _ hx), rfl⟩, _, hpush, rfl⟩

theorem number?_eq_some_iff (ds : List Char) (n : Nat) :
    Reader.number? 10 ds = some n ↔ ds ≠ [] ∧ AllDigits ds ∧ digitsValue ds = n := by
  have hf : ds.foldlM (fun n c => do
      let d ← Reader.hexValue? c
      if d < 10 then some (n * 10 + d) else none) 0 = ds.foldlM pushDigit? 0 :=
    congrArg (ds.foldlM · 0) (funext fun n => funext fun c => pushDigit?_eq n c)
  unfold Reader.number?
  rw [hf]
  by_cases h : ds = []
  · simp [h]
  · simp [h, foldlM_pushDigit?_eq_some_iff]

/-! ### Signs and whole numbers -/

/-- A sign, which may be missing, and whether it makes a number negative. -/
inductive Sign : List Char → Bool → Prop where
  | none : Sign [] false
  | plus : Sign ['+'] false
  | minus : Sign ['-'] true

def IsSign (c : Char) : Prop :=
  c = '+' ∨ c = '-'

theorem isDigit_of_isSign {c : Char} (h : IsSign c) : c.isDigit = false := by
  rcases h with rfl | rfl <;> decide

theorem Sign.isSign {s : List Char} {negative : Bool} (h : Sign s negative) :
    ∀ c ∈ s, IsSign c := by
  cases h with
  | none => exact List.forall_mem_nil _
  | plus => exact List.forall_mem_singleton.mpr (.inl rfl)
  | minus => exact List.forall_mem_singleton.mpr (.inr rfl)

/-- Every text starts with a sign, if only a missing one. -/
theorem exists_sign (cs : List Char) : ∃ s, Sign s (sign cs).1 ∧ cs = s ++ (sign cs).2 := by
  unfold sign
  split
  · exact ⟨_, .minus, rfl⟩
  · exact ⟨_, .plus, rfl⟩
  · exact ⟨_, .none, rfl⟩

theorem sign_append {s r : List Char} {negative : Bool} (hs : Sign s negative)
    (hr : ∀ c ∈ r.head?, ¬ IsSign c) : sign (s ++ r) = (negative, r) := by
  cases hs with
  | none =>
    rw [List.nil_append, sign]
    · rintro r' rfl
      exact hr '-' rfl (.inr rfl)
    · rintro r' rfl
      exact hr '+' rfl (.inl rfl)
  | plus => rfl
  | minus => rfl

/-- A whole number as it is written. -/
inductive Whole : List Char → Int → Prop where
  | signed {s ds : List Char} {negative : Bool} (hs : Sign s negative) (hne : ds ≠ [])
      (hd : AllDigits ds) :
      Whole (s ++ ds) (if negative then -(digitsValue ds : Int) else digitsValue ds)

theorem Whole.isDigit_or_isSign {cs : List Char} {n : Int} (h : Whole cs n) :
    ∀ c ∈ cs, c.isDigit = true ∨ IsSign c := by
  cases h with
  | signed hs hne hd =>
    intro c hc
    rcases List.mem_append.mp hc with hc | hc
    · exact .inr (hs.isSign c hc)
    · exact .inl (hd c hc)

/-- Only a minus sign makes a number negative. -/
theorem Whole.nonneg_or_nonpos {cs : List Char} {n : Int} (h : Whole cs n) :
    (cs.head? ≠ some '-' ∧ 0 ≤ n) ∨ (cs.head? = some '-' ∧ n ≤ 0) := by
  cases h with
  | @signed s ds negative hs hne hd =>
    cases hs with
    | none =>
      refine .inl ⟨fun hh => ?_, Int.natCast_nonneg _⟩
      have hm : ('-').isDigit = true := hd '-' (List.mem_of_mem_head? hh)
      cases hm
    | plus => exact .inl ⟨by simp, Int.natCast_nonneg _⟩
    | minus =>
      refine .inr ⟨rfl, ?_⟩
      rw [if_pos rfl]
      omega

private theorem not_isSign_head_of_allDigits {ds : List Char} (hd : AllDigits ds) :
    ∀ c ∈ ds.head?, ¬ IsSign c := by
  intro c hc hs
  have hn := hd c (List.mem_of_mem_head? hc)
  rw [isDigit_of_isSign hs] at hn
  cases hn

theorem integer?_eq_some_iff (cs : List Char) (n : Int) : integer? cs = some n ↔ Whole cs n := by
  have he : integer? cs = (Reader.number? 10 (sign cs).2).bind fun k =>
      some (if (sign cs).1 then -(k : Int) else k) := rfl
  rw [he, Option.bind_eq_some_iff]
  constructor
  · intro h
    obtain ⟨k, hk, hn⟩ := h
    obtain ⟨hne, hd, rfl⟩ := (number?_eq_some_iff ..).mp hk
    obtain ⟨s, hs, hcs⟩ := exists_sign cs
    cases hn
    have hw := Whole.signed hs hne hd
    rwa [← hcs] at hw
  · intro h
    cases h with
    | signed hs hne hd =>
      rw [sign_append hs (not_isSign_head_of_allDigits hd)]
      exact ⟨_, (number?_eq_some_iff ..).mpr ⟨hne, hd, rfl⟩, rfl⟩

/-! ### Decimals -/

/-- An exponent, which may be missing. -/
inductive Exponent : List Char → Int → Prop where
  | none : Exponent [] 0
  | marked {c : Char} {cs : List Char} {n : Int} (hc : c = 'e' ∨ c = 'E') (hw : Whole cs n) :
      Exponent (c :: cs) n

/-- A decimal with a point as it is written. Digits may be missing on one side of the point. -/
inductive Pointed : List Char → Parts → Prop where
  | signed {s whole places e : List Char} {negative : Bool} {n : Int} (hs : Sign s negative)
      (hne : whole ++ places ≠ []) (hw : AllDigits whole) (hp : AllDigits places)
      (he : Exponent e n) :
      Pointed (s ++ (whole ++ '.' :: (places ++ e)))
        ⟨negative, digitsValue (whole ++ places), n - places.length⟩

theorem allDigits_append {as bs : List Char} :
    AllDigits (as ++ bs) ↔ AllDigits as ∧ AllDigits bs :=
  List.forall_mem_append

theorem exponent?_eq_some_iff (cs : List Char) (n : Int) :
    exponent? cs = some n ↔ Exponent cs n := by
  cases cs with
  | nil =>
    rw [exponent?, Option.some.injEq]
    constructor
    · rintro rfl
      exact .none
    · intro h
      cases h
      rfl
  | cons c r =>
    rw [exponent?]
    by_cases hc : c = 'e' ∨ c = 'E'
    · have hb : (c == 'e' || c == 'E') = true := by simpa using hc
      rw [if_pos hb, integer?_eq_some_iff]
      constructor
      · exact .marked hc
      · intro h
        cases h with
        | marked _ hw => exact hw
    · have hb : ¬ (c == 'e' || c == 'E') = true := by simpa using hc
      rw [if_neg hb]
      constructor
      · intro h
        cases h
      · intro h
        cases h with
        | marked hc' => exact absurd hc' hc

theorem Exponent.isDigit_head {cs : List Char} {n : Int} (h : Exponent cs n) :
    ∀ c ∈ cs.head?, c.isDigit = false := by
  cases h with
  | none => intro c hc; cases hc
  | marked hc hw =>
    intro c hc'
    cases hc'
    rcases hc with rfl | rfl <;> decide

/-- The characters of numbers. -/
def IsNumeral (c : Char) : Prop :=
  c.isDigit = true ∨ IsSign c ∨ c = '.' ∨ c = 'e' ∨ c = 'E'

theorem Whole.isNumeral {cs : List Char} {n : Int} (h : Whole cs n) : ∀ c ∈ cs, IsNumeral c :=
  fun c hc => (h.isDigit_or_isSign c hc).imp_right .inl

theorem Exponent.isNumeral {cs : List Char} {n : Int} (h : Exponent cs n) :
    ∀ c ∈ cs, IsNumeral c := by
  cases h with
  | none => exact List.forall_mem_nil _
  | marked hc hw =>
    exact List.forall_mem_cons.mpr ⟨.inr (.inr (.inr hc)), hw.isNumeral⟩

theorem Exponent.point_not_mem {cs : List Char} {n : Int} (h : Exponent cs n) : '.' ∉ cs := by
  cases h with
  | none => exact List.not_mem_nil
  | marked hc hw =>
    intro hm
    rcases List.mem_cons.mp hm with rfl | hm
    · rcases hc with hc | hc <;> cases hc
    · rcases hw.isDigit_or_isSign '.' hm with hd | hs
      · cases hd
      · rcases hs with hs | hs <;> cases hs

theorem Pointed.isNumeral {cs : List Char} {p : Parts} (h : Pointed cs p) :
    ∀ c ∈ cs, IsNumeral c := by
  cases h with
  | signed hs hne hw hp he =>
    refine List.forall_mem_append.mpr ⟨fun c hc => .inr (.inl (hs.isSign c hc)), ?_⟩
    refine List.forall_mem_append.mpr ⟨fun c hc => .inl (hw c hc), ?_⟩
    refine List.forall_mem_cons.mpr ⟨.inr (.inr (.inl rfl)), ?_⟩
    exact List.forall_mem_append.mpr ⟨fun c hc => .inl (hp c hc), he.isNumeral⟩

theorem Pointed.point_mem {cs : List Char} {p : Parts} (h : Pointed cs p) : '.' ∈ cs := by
  cases h
  simp

private theorem run_digits {ds r : List Char} (hd : AllDigits ds)
    (hr : ∀ c ∈ r.head?, c.isDigit = false) : Reader.run Char.isDigit (ds ++ r) = (ds, r) := by
  have ht : r.takeWhile Char.isDigit = [] ∧ r.dropWhile Char.isDigit = r := by
    cases r with
    | nil => exact ⟨rfl, rfl⟩
    | cons c r => simp [hr c rfl]
  rw [Reader.run, List.takeWhile_append_of_pos hd, List.dropWhile_append_of_pos hd, ht.1, ht.2,
    List.append_nil]

private theorem exists_run (cs : List Char) :
    ∃ ds r, Reader.run Char.isDigit cs = (ds, r) ∧ cs = ds ++ r ∧ AllDigits ds :=
  ⟨_, _, rfl, (Reader.run_append _ cs).symm, fun _ hc => List.mem_takeWhile_imp hc⟩

/-- The digits after the point, if there is a point, and the rest. -/
private def places (cs : List Char) : List Char × List Char :=
  match cs with
  | '.' :: r => Reader.run Char.isDigit r
  | _ => ([], cs)

private theorem parts?_eq (cs : List Char) :
    parts? cs =
      let whole := (Reader.run Char.isDigit (sign cs).2).1
      let rest := places (Reader.run Char.isDigit (sign cs).2).2
      (Reader.number? 10 (whole ++ rest.1)).bind fun digits =>
        (exponent? rest.2).bind fun exponent =>
          some ⟨(sign cs).1, digits, exponent - rest.1.length⟩ :=
  rfl

theorem parts?_of_pointed {cs : List Char} {p : Parts} (h : Pointed cs p) : parts? cs = some p := by
  cases h with
  | @signed s whole places e negative n hs hne hw hp he =>
    have hr : ∀ c ∈ (whole ++ '.' :: (places ++ e)).head?, ¬ IsSign c := by
      cases whole with
      | nil =>
        intro c hc
        cases hc
        rintro (h | h) <;> cases h
      | cons d whole => exact @not_isSign_head_of_allDigits (d :: whole) hw
    have hpoint : Reader.run Char.isDigit (whole ++ '.' :: (places ++ e)) =
        (whole, '.' :: (places ++ e)) := run_digits hw (by simp)
    have hplaces : Decimal.places ('.' :: (places ++ e)) = (places, e) :=
      run_digits hp he.isDigit_head
    rw [parts?_eq, sign_append hs hr, hpoint, hplaces]
    dsimp only
    rw [(number?_eq_some_iff _ _).mpr ⟨hne, allDigits_append.mpr ⟨hw, hp⟩, rfl⟩,
      (exponent?_eq_some_iff _ _).mpr he]
    rfl

theorem pointed_of_parts? {cs : List Char} {p : Parts} (h : parts? cs = some p)
    (hm : '.' ∈ cs) : Pointed cs p := by
  obtain ⟨s, hs, hcs⟩ := exists_sign cs
  obtain ⟨whole, r, hrun, hr, hw⟩ := exists_run (sign cs).2
  rw [parts?_eq, hrun] at h
  generalize sign cs = signed at hs hcs hr h
  obtain ⟨negative, rest⟩ := signed
  dsimp only at hs hcs hr h
  subst hr hcs
  obtain ⟨k, hk, h⟩ := Option.bind_eq_some_iff.mp h
  obtain ⟨n, hn, h⟩ := Option.bind_eq_some_iff.mp h
  cases h
  obtain ⟨hne, hd, rfl⟩ := (number?_eq_some_iff ..).mp hk
  have he := (exponent?_eq_some_iff ..).mp hn
  by_cases hp : ∃ r', r = '.' :: r'
  · obtain ⟨r', rfl⟩ := hp
    obtain ⟨ps, e, hrun', rfl, hps⟩ := exists_run r'
    have hplaces : places ('.' :: (ps ++ e)) = (ps, e) := hrun'
    rw [hplaces] at hne he ⊢
    exact .signed hs hne hw hps he
  · -- without a point there is no place left where one could stand
    have hplaces : places r = ([], r) := by
      unfold places
      split
      · next r' _ => exact absurd ⟨r', rfl⟩ hp
      · rfl
    rw [hplaces] at he
    rcases List.mem_append.mp hm with hm | hm
    · rcases hs.isSign '.' hm with hm | hm <;> cases hm
    · rcases List.mem_append.mp hm with hm | hm
      · cases hw '.' hm
      · exact absurd hm he.point_not_mem

end HostProfile.Decimal
