import Worklog.Text.Lower

/-!
# Text within text

`occursIn` looks for one text in another as it stands; `mentions` looks for it without regard to
letter case, by comparing lower-case forms.
-/

namespace Worklog.Text

/-- Whether `needle` occurs in the list, as neighbouring elements. -/
def occursIn (needle : List Char) : List Char → Bool
  | [] => needle.isEmpty
  | c :: rest => needle.isPrefixOf (c :: rest) || occursIn needle rest

/-- Whether some text in `texts` is present, is not empty and holds `needle`, in any letter case. -/
def mentions (needle : String) (texts : List (Option String)) : Bool :=
  texts.any fun text =>
    match text with
    | none => false
    | some s => !s.isEmpty && occursIn (lower needle).toList (lower s).toList

theorem occursIn_iff {needle cs : List Char} : occursIn needle cs = true ↔ needle <:+: cs := by
  induction cs with
  | nil => simp [occursIn]
  | cons c rest ih => simp [occursIn, ih, List.infix_cons_iff, List.isPrefixOf_iff_prefix]

end Worklog.Text
