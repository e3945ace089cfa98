import HostProfile.Proofs.Text.Escape
import HostProfile.Proofs.Text.Split

/-! The control sequences that give a terminal its colours, and text without them. Text without the
character that they begin with is left as it is when they are taken out, and a sequence leaves
nothing, whatever stands behind it. -/
namespace HostProfile.Text

/-- No control sequence can begin in a text. -/
def Plain (s : String) : Prop :=
  '\x1b' ∉ s.toList

instance (s : String) : Decidable (Plain s) :=
  inferInstanceAs (Decidable (¬ '\x1b' ∈ s.toList))

theorem plain_append_iff (s t : String) : Plain (s ++ t) ↔ Plain s ∧ Plain t := by
  rw [Plain, String.toList_append, List.mem_append, not_or]
  exact Iff.rfl

theorem Plain.append {s t : String} (hs : Plain s) (ht : Plain t) : Plain (s ++ t) :=
  (plain_append_iff s t).mpr ⟨hs, ht⟩

theorem plain_intercalate {sep : String} (h : Plain sep) {xs : List String}
    (hx : ∀ x ∈ xs, Plain x) : Plain (sep.intercalate xs) := by
  induction xs with
  | nil => simp [Plain]
  | cons x xs ih =>
    obtain ⟨hhead, hxs⟩ := List.forall_mem_cons.mp hx
    cases xs with
    | nil => simpa using hhead
    | cons y ys =>
      rw [String.intercalate_cons_cons]
      exact (Plain.append hhead h).append (ih hxs)

theorem plain_escape {s : String} (h : Plain s) : Plain (escape s) := by
  rw [Plain, toList_escape, List.mem_flatMap]
  rintro ⟨d, hd, hm⟩
  unfold escapeChar at hm
  split_ifs at hm
  case neg => exact h (List.mem_singleton.mp hm ▸ hd)
  all_goals exact absurd hm (by decide)

/-! ### Control sequences -/

/-- What the parameters of a control sequence are made of. -/
def isParameter (c : Char) : Bool :=
  c.isDigit || c == ';'

/-- What follows the control sequence that a text begins with. -/
def sequenceRest? : List Char → Option (List Char)
  | '\x1b' :: '[' :: r =>
    match r.dropWhile isParameter with
    | 'm' :: rest => some rest
    | _ => none
  | _ => none

theorem length_lt_of_sequenceRest? {cs rest : List Char} (h : sequenceRest? cs = some rest) :
    rest.length < cs.length := by
  unfold sequenceRest? at h
  split at h
  · next r =>
    split at h
    · next rest' hd =>
      obtain rfl := Option.some.inj h
      have hs := (List.dropWhile_suffix (l := r) isParameter).length_le
      rw [hd, List.length_cons] at hs
      simp only [List.length_cons]
      omega
    · cases h
  · cases h

/-- Takes every control sequence out. -/
def unpaintList (cs : List Char) : List Char :=
  match cs with
  | [] => []
  | c :: r =>
    match _h : sequenceRest? (c :: r) with
    | some rest => unpaintList rest
    | none => c :: unpaintList r
termination_by cs.length
decreasing_by
  · exact length_lt_of_sequenceRest? _h
  · simp

def unpaint (s : String) : String :=
  .ofList (unpaintList s.toList)

theorem unpaintList_append {a : List Char} (h : '\x1b' ∉ a) (r : List Char) :
    unpaintList (a ++ r) = a ++ unpaintList r := by
  induction a with
  | nil => rfl
  | cons c a ih =>
    rw [List.mem_cons, not_or] at h
    have hn : sequenceRest? (c :: (a ++ r)) = none := by
      unfold sequenceRest?
      split
      · next heq => exact absurd (List.cons.inj heq).1.symm h.1
      · rfl
    rw [List.cons_append, unpaintList]
    split
    · next hs =>
      rw [hn] at hs
      cases hs
    · rw [ih h.2, List.cons_append]

theorem unpaintList_sequence {ps : List Char} (h : ∀ c ∈ ps, isParameter c = true)
    (r : List Char) : unpaintList ('\x1b' :: '[' :: (ps ++ 'm' :: r)) = unpaintList r := by
  have hd : (ps ++ 'm' :: r).dropWhile isParameter = 'm' :: r := by
    rw [List.dropWhile_append_of_pos h]
    exact List.dropWhile_cons_of_neg (by decide)
  have hs : sequenceRest? ('\x1b' :: '[' :: (ps ++ 'm' :: r)) = some r := by
    simp only [sequenceRest?, hd]
  rw [unpaintList]
  split
  · next hr =>
    rw [hs] at hr
    rw [Option.some.inj hr]
  · next hr =>
    rw [hs] at hr
    cases hr

/-! ### Texts and what is left of them -/

/-- The first text is the second one but for control sequences, whatever comes behind them. -/
def Painted (s t : String) : Prop :=
  ∀ rest, unpaintList (s.toList ++ rest) = t.toList ++ unpaintList rest

theorem Painted.refl {s : String} (h : Plain s) : Painted s s :=
  unpaintList_append h

theorem Painted.append {s t u v : String} (hs : Painted s t) (hu : Painted u v) :
    Painted (s ++ u) (t ++ v) := by
  intro rest
  rw [String.toList_append, String.toList_append, List.append_assoc, hs, hu, List.append_assoc]

theorem Painted.unpaint_eq {s t : String} (h : Painted s t) : unpaint s = t := by
  have hu : unpaintList s.toList = t.toList := by
    have hn := h []
    rwa [List.append_nil, unpaintList, List.append_nil] at hn
  rw [unpaint, hu, String.ofList_toList]

theorem painted_sequence {parameters : String} (h : parameters.toList.all isParameter = true) :
    Painted ("\x1b[" ++ parameters ++ "m") "" := by
  intro rest
  have hs : ("\x1b[" ++ parameters ++ "m").toList ++ rest =
      '\x1b' :: '[' :: (parameters.toList ++ 'm' :: rest) := by
    simp
  rw [hs, unpaintList_sequence (List.all_eq_true.mp h)]
  rfl

theorem unpaint_of_plain {s : String} (h : Plain s) : unpaint s = s :=
  (Painted.refl h).unpaint_eq

end HostProfile.Text
