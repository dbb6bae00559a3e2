import Worklog.Text.CaseTable

/-!
# Lower case

Project names, clients and notes are compared without regard to letter case, by comparing their
lower-case forms. Every character has a form of its own except two: the dotted capital I, whose
form is an `i` followed by a combining dot, and the Greek capital sigma, whose form depends on
whether it ends a word (`sigmaIsFinal`).
-/

namespace Worklog.Text

/-- The lower-case form of a character that has a form of one character. -/
def lowerSimple (c : Char) : Char :=
  if c.toNat < 0x80 then c.toLower
  else
    match lowerRuns.find? fun r =>
        r.1 ≤ c.toNat && c.toNat ≤ r.2.1 && (c.toNat - r.1) % r.2.2.1 == 0 with
    | some r => Char.ofNat (r.2.2.2 + (c.toNat - r.1))
    | none => c

/-- Whether `c` has case and is not skipped in the search for a neighbouring letter. -/
def isCased (c : Char) : Bool :=
  if c.toNat < 0x80 then c.isAlpha else inRanges casedRanges c

/-- Whether `c` is skipped in the search for a neighbouring letter. -/
def isSkipped (c : Char) : Bool :=
  if c.toNat < 0x80 then c ∈ ['\'', '.', ':', '^', '\x60'] else inRanges skippedRanges c

/-- Whether the nearest character that is not skipped has case. -/
def nearestIsCased (cs : List Char) : Bool :=
  (cs.find? fun c => !isSkipped c).any isCased

/--
Whether a sigma between `before` (nearest first) and `after` takes its final form: a letter
stands before it and none after it.
-/
def sigmaIsFinal (before after : List Char) : Bool :=
  nearestIsCased before && !nearestIsCased after

/-- The lower-case form of the first character of `c :: after`, which `before` precedes. -/
def lowerIn (before : List Char) (c : Char) (after : List Char) : List Char :=
  if c = 'Σ' then [if sigmaIsFinal before after then 'ς' else 'σ']
  else if c = 'İ' then ['i', '\u0307']
  else [lowerSimple c]

/-- The lower-case form of a text that `before` (nearest first) precedes. -/
def lowerAfter (before : List Char) : List Char → List Char
  | [] => []
  | c :: after => lowerIn before c after ++ lowerAfter (c :: before) after

/-- The lower-case form of a string. -/
def lower (s : String) : String :=
  String.ofList (lowerAfter [] s.toList)

end Worklog.Text
