import HostProfile.Proofs.Text.Blank
import HostProfile.Text.Split

/-! Text that was joined at a separator is cut again where it was joined, as long as the separator
does not occur earlier; text written in lines is read back line by line, and words with blanks
between them word by word. -/
namespace HostProfile.Text

/-! ### The first occurrence of a separator -/

theorem isPrefixOf_cons_of_ne {s c : Char} (h : c ≠ s) (t r : List Char) :
    (s :: t).isPrefixOf (c :: r) = false := by
  simp [List.isPrefixOf, Ne.symm h]

/-- Before a separator there is nothing to find if its first character is not there. -/
theorem splitOnce?_append {s : Char} {a : List Char} (h : s ∉ a) (t b : List Char) :
    splitOnce? (s :: t) (a ++ (s :: t) ++ b) = some (a, b) := by
  induction a with
  | nil =>
    have hp : (s :: t).isPrefixOf (s :: (t ++ b)) = true :=
      List.isPrefixOf_iff_prefix.mpr ⟨b, rfl⟩
    simp [splitOnce?, hp]
  | cons c a ih =>
    rw [List.mem_cons, not_or] at h
    rw [List.cons_append, List.cons_append, splitOnce?,
      isPrefixOf_cons_of_ne (Ne.symm h.1), ih h.2]
    rfl

theorem splitOnce?_eq_none {s : Char} {cs : List Char} (h : s ∉ cs) (t : List Char) :
    splitOnce? (s :: t) cs = none := by
  induction cs with
  | nil => rfl
  | cons c cs ih =>
    rw [List.mem_cons, not_or] at h
    rw [splitOnce?, isPrefixOf_cons_of_ne (Ne.symm h.1), ih h.2]
    rfl

/-- What comes later does not move the first occurrence. -/
theorem splitOnce?_append_of_some {sep cs a b : List Char} (h : splitOnce? sep cs = some (a, b))
    (x : List Char) : splitOnce? sep (cs ++ x) = some (a, b ++ x) := by
  induction cs generalizing a with
  | nil =>
    simp only [splitOnce?] at h
    split at h
    · next he =>
      obtain ⟨rfl, rfl⟩ := Prod.mk.inj (Option.some.inj h)
      cases x <;> simp [splitOnce?, List.isEmpty_iff.mp he]
    · cases h
  | cons c r ih =>
    simp only [splitOnce?] at h
    rw [List.cons_append, splitOnce?]
    split at h
    · next hp =>
      have hs : sep <+: c :: r := List.isPrefixOf_iff_prefix.mp hp
      have hx : sep.isPrefixOf (c :: (r ++ x)) = true :=
        List.isPrefixOf_iff_prefix.mpr (hs.trans (List.prefix_append _ _))
      obtain ⟨rfl, rfl⟩ := Prod.mk.inj (Option.some.inj h)
      rw [if_pos hx, ← List.cons_append, List.drop_append_of_le_length hs.length_le]
    · next hp =>
      obtain ⟨⟨a', b'⟩, hr, he⟩ := Option.map_eq_some_iff.mp h
      obtain ⟨rfl, rfl⟩ := Prod.mk.inj he
      have hl : sep.length ≤ (c :: r).length := by
        have hcs := congrArg List.length (append_of_splitOnce? hr)
        simp only [List.length_append, List.length_cons] at hcs ⊢
        omega
      have hx : ¬ sep.isPrefixOf (c :: (r ++ x)) = true := by
        intro hs
        apply hp
        rw [List.isPrefixOf_iff_prefix] at hs ⊢
        exact List.prefix_of_prefix_length_le hs (List.prefix_append (c :: r) x) hl
      rw [if_neg hx, ih hr]
      rfl

/-- Where a separator occurs, it is found there or earlier. -/
theorem exists_splitOnce?_of_append {sep cs a b : List Char} (h : a ++ sep ++ b = cs) :
    ∃ a' b', splitOnce? sep cs = some (a', b') ∧ a'.length ≤ a.length := by
  induction cs generalizing a with
  | nil =>
    obtain ⟨rfl, rfl, rfl⟩ : a = [] ∧ sep = [] ∧ b = [] := by simpa using h
    exact ⟨[], [], rfl, Nat.le_refl _⟩
  | cons c r ih =>
    by_cases hp : sep.isPrefixOf (c :: r) = true
    · exact ⟨[], _, if_pos hp, Nat.zero_le _⟩
    · cases a with
      | nil => exact absurd (List.isPrefixOf_iff_prefix.mpr ⟨b, h⟩) hp
      | cons d a =>
        obtain ⟨-, hr⟩ := List.cons.inj h
        obtain ⟨a', b', hs, hl⟩ := ih hr
        refine ⟨c :: a', b', ?_, Nat.succ_le_succ hl⟩
        rw [splitOnce?, if_neg hp, hs]
        rfl

theorem splitOnce?_eq_some_iff {sep cs a b : List Char} :
    splitOnce? sep cs = some (a, b) ↔
      a ++ sep ++ b = cs ∧ ∀ a' b', a' ++ sep ++ b' = cs → a.length ≤ a'.length := by
  constructor
  · intro h
    refine ⟨append_of_splitOnce? h, fun a' b' h' => ?_⟩
    obtain ⟨a₁, b₁, hs, hl⟩ := exists_splitOnce?_of_append h'
    obtain ⟨rfl, rfl⟩ := Prod.mk.inj (Option.some.inj (h.symm.trans hs))
    exact hl
  · intro h
    obtain ⟨he, hmin⟩ := h
    obtain ⟨a₁, b₁, hs, hl⟩ := exists_splitOnce?_of_append he
    have ha := append_of_splitOnce? hs
    have hlen : a.length = a₁.length := Nat.le_antisymm (hmin _ _ ha) hl
    rw [← he, List.append_assoc, List.append_assoc] at ha
    obtain ⟨rfl, hb⟩ := List.append_inj ha hlen.symm
    rw [hs, List.append_cancel_left hb]

theorem splitOnce?_eq_none_iff {sep cs : List Char} : splitOnce? sep cs = none ↔ ¬ sep <:+: cs := by
  constructor
  · intro h hs
    obtain ⟨a, b, he⟩ := hs
    obtain ⟨a', b', hs, -⟩ := exists_splitOnce?_of_append he
    rw [h] at hs
    cases hs
  · intro h
    cases hs : splitOnce? sep cs with
    | none => rfl
    | some p => exact absurd ⟨p.1, p.2, append_of_splitOnce? hs⟩ h

/-- A separator whose first character comes once in it does not overlap itself, so that none is
found earlier as long as none stands before it as a whole. -/
theorem splitOnce?_eq_some_iff_first {s : Char} {t cs a b : List Char} (hs : s ∉ t) :
    splitOnce? (s :: t) cs = some (a, b) ↔ a ++ s :: t ++ b = cs ∧ ¬ s :: t <:+: a := by
  rw [splitOnce?_eq_some_iff]
  refine and_congr_right fun he => ?_
  constructor
  · intro hmin hi
    obtain ⟨x, y, rfl⟩ := hi
    have hlen := hmin x (y ++ s :: t ++ b) (by simpa using he)
    simp only [List.length_append, List.length_cons] at hlen
    omega
  · intro hn a' b' he'
    by_contra hlt
    have hp : a' <+: a :=
      List.prefix_of_prefix_length_le ⟨s :: t ++ b', by simpa using he'⟩
        ⟨s :: t ++ b, by simpa using he⟩ (by omega)
    obtain ⟨d, rfl⟩ := hp
    have hd : s :: t ++ b' = d ++ (s :: t ++ b) := by
      rw [← he, List.append_assoc, List.append_assoc, List.append_assoc] at he'
      exact List.append_cancel_left he'
    -- the earlier one ends before the later one begins, or the later one begins inside it
    rcases List.append_eq_append_iff.mp hd with ⟨x, hx, -⟩ | ⟨x, hx, hb⟩
    · exact hn ⟨a', x, by rw [hx, List.append_assoc]⟩
    · cases d with
      | nil => simp at hlt
      | cons c d =>
        obtain ⟨-, ht⟩ := List.cons.inj hx
        cases x with
        | nil => exact hn ⟨a', [], by rw [hx]; simp⟩
        | cons y x =>
          obtain ⟨rfl, -⟩ := List.cons.inj hb
          exact hs (by rw [ht]; simp)

/-! ### Cuts at one character -/

theorem cut_append {s : Char} {a : List Char} (h : s ∉ a) (b : List Char) :
    cut [s] (a ++ s :: b) = (a, some b) := by
  have hs := splitOnce?_append h [] b
  rw [List.append_assoc, List.singleton_append] at hs
  rw [cut, hs]

theorem cut_of_not_mem {s : Char} {a : List Char} (h : s ∉ a) : cut [s] a = (a, none) := by
  rw [cut, splitOnce?_eq_none h]

/-- A text without the mark, or with what follows its first mark. -/
theorem cut_cases (s : Char) (cs : List Char) :
    s ∉ (cut [s] cs).1 ∧ cs = (cut [s] cs).1 ++ ((cut [s] cs).2.map (s :: ·)).getD [] := by
  by_cases h : s ∈ cs
  · obtain ⟨a, b, rfl, ha⟩ := List.eq_append_cons_of_mem h
    simp [cut_append ha, ha]
  · simp [cut_of_not_mem h, h]

theorem cut_fst_subset (s : Char) (cs : List Char) : (cut [s] cs).1 ⊆ cs := by
  intro c hc
  rw [(cut_cases s cs).2]
  exact List.mem_append_left _ hc

theorem cut_snd_subset {s : Char} {cs b : List Char} (h : (cut [s] cs).2 = some b) : b ⊆ cs := by
  intro c hc
  rw [(cut_cases s cs).2, h]
  exact List.mem_append_right _ (List.mem_cons_of_mem s hc)

/-! ### Pieces -/

theorem length_splitAll (p : Char → Bool) (cs : List Char) :
    (splitAll p cs).length = cs.countP p + 1 := by
  induction cs with
  | nil => rfl
  | cons c cs ih =>
    rw [splitAll, List.countP_cons]
    split
    · rw [List.length_cons, ih]
    · cases hs : splitAll p cs with
      | nil => exact absurd hs (splitAll_ne_nil p cs)
      | cons w ws => simpa [hs] using ih

/-- The first piece ends at the first separator. -/
theorem splitAll_append_cons {p : Char → Bool} {s : Char} (hs : p s = true) {a : List Char}
    (ha : ∀ c ∈ a, p c = false) (b : List Char) :
    splitAll p (a ++ s :: b) = a :: splitAll p b := by
  induction a with
  | nil => rw [List.nil_append, splitAll, if_pos hs]
  | cons c a ih =>
    have hc : p c = false := ha c (List.mem_cons_self ..)
    have hr := ih fun d hd => ha d (List.mem_cons_of_mem _ hd)
    rw [List.cons_append, splitAll, hr, hc]
    rfl

/-- Pieces that are each ended by the separator leave an empty one after the last. -/
theorem splitAll_ended {p : Char → Bool} {s : Char} (hs : p s = true) {pieces : List (List Char)}
    (hp : ∀ a ∈ pieces, ∀ c ∈ a, p c = false) :
    splitAll p (pieces.flatMap fun a => a ++ [s]) = pieces ++ [[]] := by
  induction pieces with
  | nil => rfl
  | cons a pieces ih =>
    have ha : ∀ c ∈ a, p c = false := hp a (List.mem_cons_self ..)
    have hr := ih fun b hb => hp b (List.mem_cons_of_mem _ hb)
    rw [List.flatMap_cons, List.append_assoc, List.singleton_append, splitAll_append_cons hs ha, hr,
      List.cons_append]

theorem splitAll_of_none {p : Char → Bool} {a : List Char} (ha : ∀ c ∈ a, p c = false) :
    splitAll p a = [a] := by
  induction a with
  | nil => rfl
  | cons c a ih =>
    have hc : p c = false := ha c (List.mem_cons_self ..)
    have hr := ih fun d hd => ha d (List.mem_cons_of_mem _ hd)
    rw [splitAll, hc, hr]
    rfl

/-- Pieces with the separator between them are taken apart again. -/
theorem splitAll_intercalate {p : Char → Bool} {s : Char} (hs : p s = true)
    {pieces : List (List Char)} (hne : pieces ≠ []) (hp : ∀ a ∈ pieces, ∀ c ∈ a, p c = false) :
    splitAll p ([s].intercalate pieces) = pieces := by
  induction pieces with
  | nil => exact absurd rfl hne
  | cons a pieces ih =>
    have ha : ∀ c ∈ a, p c = false := hp a (List.mem_cons_self ..)
    cases pieces with
    | nil =>
      rw [List.intercalate_singleton]
      exact splitAll_of_none ha
    | cons b pieces =>
      have hr := ih (List.cons_ne_nil b pieces) fun x hx => hp x (List.mem_cons_of_mem _ hx)
      rw [List.intercalate_cons_cons, List.append_assoc, List.singleton_append,
        splitAll_append_cons hs ha, hr]

theorem mem_of_mem_intercalate {s c : Char} {pieces : List (List Char)}
    (h : c ∈ [s].intercalate pieces) : c = s ∨ ∃ a ∈ pieces, c ∈ a := by
  induction pieces with
  | nil => cases h
  | cons a pieces ih =>
    cases pieces with
    | nil =>
      rw [List.intercalate_singleton] at h
      exact .inr ⟨a, List.mem_cons_self .., h⟩
    | cons b pieces =>
      rw [List.intercalate_cons_cons, List.append_assoc, List.mem_append, List.mem_append,
        List.mem_singleton] at h
      rcases h with h | h | h
      · exact .inr ⟨a, List.mem_cons_self .., h⟩
      · exact .inl h
      · exact (ih h).imp_right fun ⟨d, hd, hc⟩ => ⟨d, List.mem_cons_of_mem _ hd, hc⟩

/-! ### Lines -/

-- All that follows rewrites by the equations of `lines`, which are made here, once.
attribute [simp] lines.eq_1

/-- No line has a line feed in it. -/
theorem not_mem_of_mem_lines {cs l : List Char} (h : l ∈ lines cs) : '\n' ∉ l := by
  induction cs using lines.induct generalizing l with
  | case1 => cases h
  | case2 r ih =>
    rw [lines] at h
    rcases List.mem_cons.mp h with rfl | h
    · exact List.not_mem_nil
    · exact ih h
  | case3 r ih =>
    rw [lines] at h
    rcases List.mem_cons.mp h with rfl | h
    · exact List.not_mem_nil
    · exact ih h
  | case4 c r hn hr hl ih =>
    rw [lines.eq_4 _ _ hn hr, hl] at h
    rw [List.mem_singleton.mp h, List.mem_singleton]
    exact Ne.symm hn
  | case5 c r hn hr l' ls hl ih =>
    rw [lines.eq_4 _ _ hn hr, hl] at h
    rcases List.mem_cons.mp h with rfl | h
    · rw [List.mem_cons, not_or]
      exact ⟨Ne.symm hn, ih (hl ▸ List.mem_cons_self ..)⟩
    · exact ih (hl ▸ List.mem_cons_of_mem _ h)

theorem lines_cons_line {c : Char} {cs l : List Char} {ls : List (List Char)} (hn : c ≠ '\n')
    (hr : ∀ r, c = '\r' → cs ≠ '\n' :: r) (h : lines cs = l :: ls) :
    lines (c :: cs) = (c :: l) :: ls := by
  rw [lines.eq_4 _ _ hn hr, h]

/-- A line is read back up to a carriage return at its end. -/
theorem lines_append {l : List Char} (h : '\n' ∉ l) (r : List Char) :
    ∃ l', lines (l ++ '\n' :: r) = l' :: lines r ∧ (l = l' ∨ l = l' ++ ['\r']) := by
  induction l with
  | nil => exact ⟨[], by rw [List.nil_append, lines], Or.inl rfl⟩
  | cons c l ih =>
    rw [List.mem_cons, not_or] at h
    by_cases hc : c = '\r' ∧ l = []
    · obtain ⟨rfl, rfl⟩ := hc
      exact ⟨[], by rw [List.cons_append, List.nil_append, lines], Or.inr rfl⟩
    · obtain ⟨l', hl', he⟩ := ih h.2
      refine ⟨c :: l', lines_cons_line (Ne.symm h.1) ?_ hl', ?_⟩
      · intro r' hr heq
        cases l with
        | nil => exact hc ⟨hr, rfl⟩
        | cons d l =>
          obtain ⟨rfl, -⟩ := List.cons.inj heq
          exact h.2 (List.mem_cons_self ..)
      · rcases he with rfl | rfl
        · exact Or.inl rfl
        · exact Or.inr rfl

/-- Text without a line feed is one line. -/
theorem lines_of_not_mem {l : List Char} (h : '\n' ∉ l) (hne : l ≠ []) : lines l = [l] := by
  induction l with
  | nil => exact absurd rfl hne
  | cons c l ih =>
    rw [List.mem_cons, not_or] at h
    have hl (r : List Char) : l ≠ '\n' :: r := fun he => h.2 (he ▸ List.mem_cons_self ..)
    by_cases hn : l = []
    · rw [hn, lines.eq_4 _ _ (Ne.symm h.1) fun r _ => by simp, lines.eq_1]
    · exact lines_cons_line (Ne.symm h.1) (fun r _ => hl r) (ih h.2 hn)

theorem lines_lineFeed (cs : List Char) : lines ('\n' :: cs) = [] :: lines cs := by
  rw [lines]

theorem lines_carriageReturn (cs : List Char) : lines ('\r' :: '\n' :: cs) = [] :: lines cs := by
  rw [lines]

theorem lines_ne_nil {cs : List Char} (h : cs ≠ []) : lines cs ≠ [] := by
  unfold lines
  split
  · exact absurd rfl h
  · exact List.cons_ne_nil _ _
  · exact List.cons_ne_nil _ _
  · split <;> exact List.cons_ne_nil _ _

/-- A line feed ends a line whatever follows it. -/
theorem lines_append_lineFeed (a b : List Char) :
    lines (a ++ '\n' :: b) = lines (a ++ ['\n']) ++ lines b := by
  induction a with
  | nil => rw [List.nil_append, List.nil_append, lines_lineFeed, lines_lineFeed, lines.eq_1]; rfl
  | cons c a ih =>
    rw [List.cons_append, List.cons_append]
    by_cases hn : c = '\n'
    · rw [hn, lines_lineFeed, lines_lineFeed, ih, List.cons_append]
    by_cases hr : ∃ r, c :: a ++ ['\n'] = '\r' :: '\n' :: r
    · obtain ⟨r, he⟩ := hr
      obtain ⟨rfl, ha⟩ := List.cons.inj he
      cases a with
      | nil =>
        rw [List.nil_append, List.nil_append, lines_carriageReturn, lines_carriageReturn, lines.eq_1]
        rfl
      | cons d a =>
        -- the line feed belongs to the same line end, and without it the rest has one line less
        obtain ⟨rfl, -⟩ := List.cons.inj ha
        rw [List.cons_append, List.cons_append, lines_lineFeed, lines_lineFeed, List.cons_append] at ih
        rw [List.cons_append, List.cons_append, lines_carriageReturn, lines_carriageReturn,
          (List.cons.inj ih).2, List.cons_append]
    · have hline (x : List Char) (r : List Char) : c = '\r' → a ++ '\n' :: x ≠ '\n' :: r := by
        intro hc he
        apply hr
        cases a with
        | nil => exact ⟨[], by rw [hc]; rfl⟩
        | cons d a =>
          obtain ⟨rfl, -⟩ := List.cons.inj he
          exact ⟨a ++ ['\n'], by rw [hc]; rfl⟩
      cases hl : lines (a ++ ['\n']) with
      | nil => exact absurd hl (lines_ne_nil (by simp))
      | cons l ls =>
        rw [hl, List.cons_append] at ih
        rw [lines_cons_line hn (hline b) ih, lines_cons_line hn (hline []) hl, List.cons_append]

/-- Lines that are all ended are read on their own, before the lines of the rest. -/
theorem lines_append_of_ended {a : List Char} (h : ∀ c ∈ a.getLast?, c = '\n') (b : List Char) :
    lines (a ++ b) = lines a ++ lines b := by
  rcases List.eq_nil_or_concat a with rfl | ⟨a, c, rfl⟩
  · rw [lines.eq_1]
    rfl
  · have hc : c = '\n' := h c (by simp)
    rw [List.concat_eq_append, hc, List.append_assoc]
    exact lines_append_lineFeed a b

/-- A line that is ended by both characters is read back whatever it ends with itself. -/
theorem lines_append_lineEnd {l : List Char} (h : '\n' ∉ l) (r : List Char) :
    lines (l ++ '\r' :: '\n' :: r) = l :: lines r := by
  induction l with
  | nil => exact lines_carriageReturn r
  | cons c l ih =>
    rw [List.mem_cons, not_or] at h
    refine lines_cons_line (Ne.symm h.1) (fun r' _ he => ?_) (ih h.2)
    cases l with
    | nil => exact absurd (List.cons.inj he).1 (by decide)
    | cons d l => exact h.2 (List.mem_cons.mpr (.inl (List.cons.inj he).1.symm))

theorem lines_flatMap_lineEnd {ls : List (List Char)} (h : ∀ l ∈ ls, '\n' ∉ l) :
    lines (ls.flatMap fun l => l ++ ['\r', '\n']) = ls := by
  induction ls with
  | nil => exact lines.eq_1
  | cons l ls ih =>
    obtain ⟨hl, hls⟩ := List.forall_mem_cons.mp h
    rw [List.flatMap_cons, List.append_assoc]
    exact (lines_append_lineEnd hl _).trans (congrArg (l :: ·) (ih hls))

/-! ### Words -/

/-- The words of a text, each of them as long as it can be without a blank. -/
inductive Words : List Char → List (List Char) → Prop
  | nil : Words [] []
  | blank {c : Char} {cs : List Char} {ws : List (List Char)} (hc : isBlank c = true)
      (h : Words cs ws) : Words (c :: cs) ws
  | word {w cs : List Char} {ws : List (List Char)} (hne : w ≠ [])
      (hw : ∀ c ∈ w, isBlank c = false) (hb : ∀ c ∈ cs.head?, isBlank c = true)
      (h : Words cs ws) : Words (w ++ cs) (w :: ws)

theorem words_cons_blank {c : Char} (hc : isBlank c = true) (cs : List Char) :
    words (c :: cs) = words cs := by
  rw [words, splitAll, if_pos hc]
  rfl

theorem words_append {w cs : List Char} (hne : w ≠ []) (hw : ∀ c ∈ w, isBlank c = false)
    (hb : ∀ c ∈ cs.head?, isBlank c = true) : words (w ++ cs) = w :: words cs := by
  have hf (rest : List (List Char)) :
      (w :: rest).filter (fun x => !x.isEmpty) = w :: rest.filter fun x => !x.isEmpty :=
    List.filter_cons_of_pos (by simpa using hne)
  cases cs with
  | nil =>
    rw [List.append_nil, words, splitAll_of_none hw, hf]
    rfl
  | cons c cs =>
    have hc : isBlank c = true := hb c rfl
    rw [words_cons_blank hc, words, splitAll_append_cons hc hw, hf, words]

theorem Words.words_eq {cs : List Char} {ws : List (List Char)} (h : Words cs ws) :
    words cs = ws := by
  induction h with
  | nil => rfl
  | blank hc _ ih => rw [words_cons_blank hc, ih]
  | word hne hw hb _ ih => rw [words_append hne hw hb, ih]

/-- Text that does not begin with a blank begins with a word. -/
theorem exists_word {c : Char} (hc : isBlank c = false) (cs : List Char) :
    ∃ w rest, c :: cs = w ++ rest ∧ w ≠ [] ∧ (∀ d ∈ w, isBlank d = false) ∧
      ∀ d ∈ rest.head?, isBlank d = true := by
  induction cs generalizing c with
  | nil => exact ⟨[c], [], rfl, by simp, by simpa using hc, by simp⟩
  | cons d cs ih =>
    cases hd : isBlank d with
    | true => exact ⟨[c], d :: cs, rfl, by simp, by simpa using hc, by simpa using hd⟩
    | false =>
      obtain ⟨w, rest, he, -, hw, hb⟩ := ih hd
      refine ⟨c :: w, rest, by rw [he, List.cons_append], by simp, fun x hx => ?_, hb⟩
      rcases List.mem_cons.mp hx with rfl | hx
      · exact hc
      · exact hw x hx

theorem words_words (cs : List Char) : Words cs (words cs) := by
  -- on the length, since a word is taken off as a whole
  induction hn : cs.length using Nat.strong_induction_on generalizing cs with
  | _ n ih =>
    cases cs with
    | nil => exact .nil
    | cons c cs =>
      cases hc : isBlank c with
      | true =>
        rw [words_cons_blank hc]
        exact .blank hc (ih cs.length (by rw [← hn]; exact Nat.lt_succ_self _) cs rfl)
      | false =>
        obtain ⟨w, rest, he, hne, hw, hb⟩ := exists_word hc cs
        have hlen : rest.length < n := by
          have hpos : 0 < w.length := List.length_pos_of_ne_nil hne
          rw [← hn, he, List.length_append]
          omega
        rw [he, words_append hne hw hb]
        exact .word hne hw hb (ih rest.length hlen rest rfl)

theorem words_iff {cs : List Char} {ws : List (List Char)} : Words cs ws ↔ words cs = ws :=
  ⟨Words.words_eq, fun h => h ▸ words_words cs⟩

theorem Words.of_mem {cs w : List Char} {ws : List (List Char)} (h : Words cs ws) (hm : w ∈ ws) :
    w ≠ [] ∧ ∀ c ∈ w, isBlank c = false := by
  induction h with
  | nil => cases hm
  | blank _ _ ih => exact ih hm
  | word hne hw _ _ ih =>
    rcases List.mem_cons.mp hm with rfl | hm
    · exact ⟨hne, hw⟩
    · exact ih hm

theorem Words.blanks_append {a cs : List Char} {ws : List (List Char)} (ha : AllBlank a)
    (h : Words cs ws) : Words (a ++ cs) ws := by
  induction a with
  | nil => exact h
  | cons c a ih =>
    exact .blank (ha c (List.mem_cons_self ..)) (ih fun d hd => ha d (List.mem_cons_of_mem _ hd))

theorem Words.append_blanks {b cs : List Char} {ws : List (List Char)} (h : Words cs ws)
    (hb : AllBlank b) : Words (cs ++ b) ws := by
  induction h with
  | nil => simpa using Words.nil.blanks_append hb
  | blank hc _ ih => exact .blank hc ih
  | @word w cs ws hne hw hh _ ih =>
    rw [List.append_assoc]
    refine .word hne hw (fun c hc => ?_) ih
    rw [List.head?_append] at hc
    cases hcs : cs.head? with
    | none =>
      rw [hcs, Option.none_or] at hc
      exact hb c (List.mem_of_mem_head? hc)
    | some d =>
      rw [hcs, Option.some_or] at hc
      exact hh c (hcs ▸ hc)

/-- The blanks that trimming removes belong to no word. -/
theorem words_trim (cs : List Char) : words (trim cs) = words cs := by
  obtain ⟨a, b, ha, hb, hcs⟩ := trim_decomposition cs
  have hw : Words (a ++ trim cs ++ b) (words (trim cs)) :=
    ((words_words (trim cs)).blanks_append ha).append_blanks hb
  rw [← hcs] at hw
  exact hw.words_eq.symm

/-- Words with a blank between them are taken apart again. -/
theorem words_intercalate {s : Char} (hs : isBlank s = true) {ws : List (List Char)}
    (hw : ∀ w ∈ ws, w ≠ [] ∧ ∀ c ∈ w, isBlank c = false) : words ([s].intercalate ws) = ws := by
  by_cases hn : ws = []
  · rw [hn]
    rfl
  · rw [words, splitAll_intercalate hs hn fun w hm => (hw w hm).2, List.filter_eq_self]
    exact fun w hm => by simpa using (hw w hm).1

end HostProfile.Text
