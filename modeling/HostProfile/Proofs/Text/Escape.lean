import HostProfile.Text.Escape
import Mathlib.Data.List.Basic

/-! Escaped text is read back, and stays on one line. The four replacements come to one change of
each character, because none of them touches what an earlier one has put in: the backslash, of which
the others put in more, is replaced first. -/
namespace HostProfile.Text

/-- What one character is escaped to. -/
def escapeChar (c : Char) : List Char :=
  if c = '\\' then ['\\', '\\']
  else if c = '\r' then ['\\', 'r']
  else if c = '\n' then ['\\', 'n']
  else if c = '\t' then ['\\', 't']
  else [c]

theorem replace_append (old : Char) (new a b : List Char) :
    replace old new (a ++ b) = replace old new a ++ replace old new b :=
  List.flatMap_append

theorem replace_of_not_mem {old : Char} {cs : List Char} (h : old ∉ cs) (new : List Char) :
    replace old new cs = cs := by
  induction cs with
  | nil => rfl
  | cons c cs ih =>
    rw [List.mem_cons, not_or] at h
    have hc : (c == old) = false := by simpa using Ne.symm h.1
    rw [replace, List.flatMap_cons, hc]
    exact congrArg (c :: ·) (ih h.2)

/-- The replacements one after the other, on a single character. -/
theorem replace_singleton (c : Char) :
    replace '\t' ['\\', 't'] (replace '\n' ['\\', 'n']
      (replace '\r' ['\\', 'r'] (replace '\\' ['\\', '\\'] [c]))) = escapeChar c := by
  unfold escapeChar
  split_ifs with h₁ h₂ h₃ h₄
  · subst h₁
    decide
  · subst h₂
    decide
  · subst h₃
    decide
  · subst h₄
    decide
  · have hr (old : Char) (new : List Char) (h : ¬ c = old) : replace old new [c] = [c] := by
      refine replace_of_not_mem (fun hm => ?_) new
      exact h (List.mem_singleton.mp hm).symm
    rw [hr _ _ h₁, hr _ _ h₂, hr _ _ h₃, hr _ _ h₄]

theorem toList_escape (s : String) : (escape s).toList = s.toList.flatMap escapeChar := by
  rw [escape, String.toList_ofList]
  induction s.toList with
  | nil => rfl
  | cons c cs ih =>
    have hc : c :: cs = [c] ++ cs := rfl
    rw [hc, List.flatMap_append, ← ih]
    simp only [replace_append, replace_singleton, List.flatMap_singleton]

/-! ### Reading -/

theorem unescapeList?_cons {c : Char} (h : c ≠ '\\') (r : List Char) :
    unescapeList? (c :: r) = (unescapeList? r).map (c :: ·) := by
  simp [unescapeList?, h]

/-- An escaped character is read first, whatever follows it. -/
theorem unescapeList?_escapeChar_append (c : Char) (r : List Char) :
    unescapeList? (escapeChar c ++ r) = (unescapeList? r).map (c :: ·) := by
  unfold escapeChar
  split_ifs with h₁ h₂ h₃ h₄
  · subst h₁
    rfl
  · subst h₂
    rfl
  · subst h₃
    rfl
  · subst h₄
    rfl
  · exact unescapeList?_cons h₁ r

theorem unescapeList?_flatMap_escapeChar (cs : List Char) :
    unescapeList? (cs.flatMap escapeChar) = some cs := by
  induction cs with
  | nil => rfl
  | cons c cs ih =>
    rw [List.flatMap_cons, unescapeList?_escapeChar_append, ih, Option.map_some]

theorem unescapeList?_escape (s : String) : unescapeList? (escape s).toList = some s.toList := by
  rw [toList_escape, unescapeList?_flatMap_escapeChar]

-- a backslash that stood before an `n` is told from an escaped line feed
example : escape "C:\\new\n" = "C:\\\\new\\n" := by decide +kernel

theorem not_mem_escapeChar {c : Char} (hc : c ∈ ['\r', '\n', '\t']) (d : Char) :
    c ∉ escapeChar d := by
  simp only [List.mem_cons, List.not_mem_nil, or_false] at hc
  unfold escapeChar
  split_ifs with h₁ h₂ h₃ h₄
  case neg =>
    rw [List.mem_singleton]
    rintro rfl
    rcases hc with hc | hc | hc
    · exact h₂ hc
    · exact h₃ hc
    · exact h₄ hc
  all_goals
    rcases hc with rfl | rfl | rfl <;> decide

/-- Escaped text has no line end and no tab in it. -/
theorem not_mem_escape {c : Char} (hc : c ∈ ['\r', '\n', '\t']) (s : String) :
    c ∉ (escape s).toList := by
  rw [toList_escape, List.mem_flatMap]
  rintro ⟨d, -, hd⟩
  exact not_mem_escapeChar hc d hd

/-! ### Escaped texts -/

theorem escapeChar_of_not_mem {c : Char} (hc : c ∉ ['\\', '\r', '\n', '\t']) :
    escapeChar c = [c] := by
  simp only [List.mem_cons, List.not_mem_nil, or_false, not_or] at hc
  obtain ⟨h₁, h₂, h₃, h₄⟩ := hc
  rw [escapeChar, if_neg h₁, if_neg h₂, if_neg h₃, if_neg h₄]

/-- Text on one line that is read is the escaped form of what it is read as. -/
theorem eq_flatMap_of_unescapeList? {t cs : List Char} (h : unescapeList? t = some cs)
    (hb : ∀ c ∈ ['\r', '\n', '\t'], c ∉ t) : t = cs.flatMap escapeChar := by
  fun_induction unescapeList? t generalizing cs with
  | case1 =>
    cases h
    rfl
  | case2 r ih | case3 r ih | case4 r ih | case5 r ih =>
    obtain ⟨ds, hr, rfl⟩ := Option.map_eq_some_iff.mp h
    have hbr : ∀ c ∈ ['\r', '\n', '\t'], c ∉ r := fun c hc hm =>
      hb c hc (List.mem_cons_of_mem _ (List.mem_cons_of_mem _ hm))
    rw [List.flatMap_cons, ← ih hr hbr]
    rfl
  | case6 => cases h
  | case7 d r _ _ _ _ hd ih =>
    obtain ⟨ds, hr, rfl⟩ := Option.map_eq_some_iff.mp h
    have hbr : ∀ c ∈ ['\r', '\n', '\t'], c ∉ r := fun c hc hm =>
      hb c hc (List.mem_cons_of_mem _ hm)
    have hds : d ∉ ['\\', '\r', '\n', '\t'] := by
      refine List.not_mem_cons_of_ne_of_not_mem (by simpa using hd) fun hm => ?_
      exact hb d hm (List.mem_cons_self ..)
    rw [List.flatMap_cons, escapeChar_of_not_mem hds, ← ih hr hbr]
    rfl

theorem unescape?_escape (s : String) : unescape? (escape s) = some s := by
  rw [unescape?, unescapeList?_escape, Option.map_some, String.ofList_toList]

theorem eq_escape_of_unescape? {t s : String} (h : unescape? t = some s)
    (hb : ∀ c ∈ ['\r', '\n', '\t'], c ∉ t.toList) : t = escape s := by
  obtain ⟨cs, hcs, rfl⟩ := Option.map_eq_some_iff.mp h
  rw [← String.toList_inj, toList_escape, String.toList_ofList]
  exact eq_flatMap_of_unescapeList? hcs hb

theorem escape_append (s t : String) : escape (s ++ t) = escape s ++ escape t := by
  rw [← String.toList_inj, String.toList_append, toList_escape, toList_escape, toList_escape,
    String.toList_append, List.flatMap_append]

/-- The four replacements are one pass that escapes each character on its own, so that a text is
escaped piece by piece. The texts that come out are those on one line, without tabs, that can be read
back; each is read as the text it came from, and no two texts have one in common. -/
theorem escape_exact (s : String) :
    (escape s).toList = s.toList.flatMap escapeChar ∧
    (∀ t, escape (s ++ t) = escape s ++ escape t) ∧
    ('\r' ∉ (escape s).toList ∧ '\n' ∉ (escape s).toList ∧ '\t' ∉ (escape s).toList) ∧
    unescape? (escape s) = some s ∧
    (∀ t, escape t = escape s ↔ t = s) ∧
    ∀ t, escape s = t ↔
      unescape? t = some s ∧ '\r' ∉ t.toList ∧ '\n' ∉ t.toList ∧ '\t' ∉ t.toList := by
  have hr : '\r' ∉ (escape s).toList := not_mem_escape (by simp) s
  have hn : '\n' ∉ (escape s).toList := not_mem_escape (by simp) s
  have ht : '\t' ∉ (escape s).toList := not_mem_escape (by simp) s
  refine ⟨toList_escape s, escape_append s, ⟨hr, hn, ht⟩, unescape?_escape s, fun t => ?_,
    fun t => ?_⟩
  · constructor
    · intro h
      have hu : some t = some s := by rw [← unescape?_escape t, h, unescape?_escape]
      exact Option.some.inj hu
    · rintro rfl
      rfl
  · constructor
    · rintro rfl
      exact ⟨unescape?_escape s, hr, hn, ht⟩
    · intro h
      obtain ⟨hu, hr', hn', ht'⟩ := h
      refine (eq_escape_of_unescape? hu fun c hc => ?_).symm
      simp only [List.mem_cons, List.not_mem_nil, or_false] at hc
      rcases hc with rfl | rfl | rfl
      · exact hr'
      · exact hn'
      · exact ht'

end HostProfile.Text
