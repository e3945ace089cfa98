import HostProfile.Proofs.Text.Split
import HostProfile.Proxy.Listing

/-! Listings as the system configuration tool prints them: the entries of a configuration in any
order and under any indentation, between lines that say nothing of proxies. -/
namespace HostProfile.Proxy
open Text

/-- The twelve entries of endpoints. -/
def slots : List (Kind × Field) :=
  Kind.all.flatMap fun kind => [.enable, .host, .port].map fun field => (kind, field)

def slotName (slot : Kind × Field) : String :=
  slot.1.listingName ++ slot.2.listingName

/-- A host, a port or a pattern, as one line can hold it. -/
structure Phrase where
  text : String
  nonempty : text ≠ ""
  oneLine : '\n' ∉ text.toList
  trimmed : Trimmed text.toList

def Phrase.ofBool (b : Bool) : Phrase where
  text := if b then "1" else "0"
  nonempty := by cases b <;> decide
  oneLine := by cases b <;> decide
  trimmed := by cases b <;> decide

/-- What a listing says. Entries that it does not have are absent. -/
structure Configuration where
  enable : Kind → Option Bool := fun _ => none
  host : Kind → Option Phrase := fun _ => none
  port : Kind → Option Phrase := fun _ => none
  exceptions : Option (List Phrase) := none

namespace Configuration

/-- An endpoint is enabled only if the listing says so. -/
def settings (c : Configuration) : Settings where
  endpoint k :=
    { enabled := (c.enable k).getD false
      host := (c.host k).map Phrase.text
      port := (c.port k).map Phrase.text }
  exceptions := (c.exceptions.getD []).map Phrase.text

def value? (c : Configuration) : Kind × Field → Option Phrase
  | (k, .enable) => (c.enable k).map Phrase.ofBool
  | (k, .host) => c.host k
  | (k, .port) => c.port k

end Configuration

/-- An entry takes one line, except for the block of exceptions. -/
inductive Entry where
  | slot (slot : Kind × Field) (value : Phrase)
  | exceptions (patterns : List Phrase)

def Configuration.entries (c : Configuration) : List Entry :=
  slots.filterMap (fun slot => (c.value? slot).map (.slot slot)) ++
    (c.exceptions.map .exceptions).toList

def recognised : List String :=
  "ExceptionsList" :: slots.map slotName

/-- A line with no key, or with a key that is not for a reader of proxy settings. -/
structure Noise where
  text : List Char
  oneLine : '\n' ∉ text
  unread : ∀ key value, splitOnce? [' ', ':', ' '] text = some (key, value) →
    .ofList (trim key) ∉ recognised

inductive Item where
  | entry (e : Entry)
  | noise (n : Noise)

def Item.content? : Item → Option Entry
  | .entry e => some e
  | .noise _ => none

/-! ### Lines -/

def entryLine (key value : List Char) : List Char :=
  key ++ [' ', ':', ' '] ++ value

def patternLine (i : ℕ) (pattern : Phrase) : List Char :=
  entryLine i.repr.toList pattern.text.toList

def Entry.lines : Entry → List (List Char)
  | .slot s v => [entryLine (slotName s).toList v.text.toList]
  | .exceptions ps =>
    entryLine "ExceptionsList".toList "<array> \x7b".toList ::
      (ps.mapIdx patternLine ++ [['\x7d']])

def Item.lines : Item → List (List Char)
  | .entry e => e.lines
  | .noise n => [n.text]

/-- How a line stands on the page: what is left of it, and what ends it. -/
structure LineStyle where
  indent : List Char := []
  blank : AllBlank indent := by decide
  oneLine : '\n' ∉ indent := by decide
  carriageReturn : Bool := false

def LineStyle.print (s : LineStyle) (line : List Char) : List Char :=
  s.indent ++ line ++ (if s.carriageReturn then ['\r', '\n'] else ['\n'])

/-- Each line has a style of its own. -/
def printLines (style : ℕ → LineStyle) (ls : List (List Char)) : List Char :=
  (ls.mapIdx fun i line => (style i).print line).flatten

/-! ### What is on the lines -/

theorem isBlank_of_isDigit {c : Char} (h : c.isDigit = true) : isBlank c = false := by
  have hc : 48 ≤ c.toNat ∧ c.toNat ≤ 57 := by
    simpa [Char.isDigit, UInt32.le_iff_toNat_le] using h
  simp only [isBlank, Bool.or_eq_false_iff, Bool.and_eq_false_iff, decide_eq_false_iff_not,
    beq_eq_false_iff_ne]
  omega

theorem trimmed_entryLine {key value : List Char} (hk : key ≠ []) (hkt : Trimmed key)
    (hv : value ≠ []) (hvt : Trimmed value) : Trimmed (entryLine key value) := by
  constructor
  · intro c hc
    refine hkt.1 c ?_
    rw [entryLine, List.append_assoc, List.head?_append_of_ne_nil _ hk] at hc
    exact hc
  · intro c hc
    refine hvt.2 c ?_
    rw [entryLine, List.getLast?_append_of_ne_nil _ hv] at hc
    exact hc

end HostProfile.Proxy
