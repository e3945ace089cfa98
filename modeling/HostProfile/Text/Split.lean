import HostProfile.Text.Basic

/-! Cutting text at separators, and joining it again. -/
namespace HostProfile.Text

/-- The text before and after the first occurrence of `sep`. -/
def splitOnce? (sep : List Char) : List Char → Option (List Char × List Char)
  | [] => if sep.isEmpty then some ([], []) else none
  | c :: r =>
    if sep.isPrefixOf (c :: r) then some ([], (c :: r).drop sep.length)
    else (splitOnce? sep r).map fun (a, b) => (c :: a, b)

theorem append_of_splitOnce? {sep cs a b : List Char} (h : splitOnce? sep cs = some (a, b)) :
    a ++ sep ++ b = cs := by
  induction cs generalizing a with
  | nil =>
    simp only [splitOnce?] at h
    split at h
    · rename_i hs
      obtain ⟨rfl, rfl⟩ := Prod.mk.inj (Option.some.inj h)
      simpa using hs
    · cases h
  | cons c r ih =>
    simp only [splitOnce?] at h
    split at h
    · rename_i hp
      obtain ⟨rfl, rfl⟩ := Prod.mk.inj (Option.some.inj h)
      obtain ⟨t, ht⟩ := List.isPrefixOf_iff_prefix.1 hp
      simp [← ht]
    · obtain ⟨⟨a', b'⟩, hr, he⟩ := Option.map_eq_some_iff.1 h
      obtain ⟨rfl, rfl⟩ := Prod.mk.inj he
      simpa using ih hr

/-- The text before the first occurrence of `sep`, and what follows it if there is one. -/
def cut (sep : List Char) (cs : List Char) : List Char × Option (List Char) :=
  match splitOnce? sep cs with
  | some (a, b) => (a, some b)
  | none => (cs, none)

/-- All pieces between the characters that satisfy `p`; there is one more piece than such
characters. -/
def splitAll (p : Char → Bool) : List Char → List (List Char)
  | [] => [[]]
  | c :: r =>
    if p c then [] :: splitAll p r
    else match splitAll p r with
      | [] => [[c]]
      | w :: ws => (c :: w) :: ws

theorem splitAll_ne_nil (p : Char → Bool) (cs : List Char) : splitAll p cs ≠ [] := by
  cases cs with
  | nil => simp [splitAll]
  | cons c r =>
    simp only [splitAll]
    split
    · simp
    · split <;> simp

/-- The maximal runs without a blank. -/
def words (cs : List Char) : List (List Char) :=
  (splitAll isBlank cs).filter fun w => !w.isEmpty

/-- A line ends at a line feed, and a carriage return just before it belongs to the line end. Text
after the last line feed is a line unless it is empty. -/
def lines : List Char → List (List Char)
  | [] => []
  | '\n' :: r => [] :: lines r
  | '\r' :: '\n' :: r => [] :: lines r
  | c :: r =>
    match lines r with
    | [] => [[c]]
    | l :: ls => (c :: l) :: ls

end HostProfile.Text
