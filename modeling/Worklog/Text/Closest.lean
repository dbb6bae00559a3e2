/-!
# The closest name

A misspelt field is answered with the known name most like it. Likeness is measured by matching
blocks: the longest run that two texts share is found first, then the longest runs to its left
and to its right, and so on; the likeness of the texts is twice the number of characters so
matched over the number of characters in both. A name is close when its likeness is at least
six tenths. In a long word the frequent characters say little, so that a run is sought without
them, and only then extended by whatever equal characters stand at its ends.
-/

namespace Worklog.Text

/-- The length from which on a word is long. -/
def longWord : Nat := 200

/-- The frequent characters of a word, of which only a long one has any. -/
def frequent (word : List Char) : List Char :=
  if word.length < longWord then []
  else word.eraseDups.filter fun c => word.length / 100 + 1 < word.count c

/-- The number of characters that two texts share at their start, up to one that is left out. -/
def sharedStart (leftOut : List Char) : List Char → List Char → Nat
  | a :: as, b :: bs => if a = b ∧ a ∉ leftOut then sharedStart leftOut as bs + 1 else 0
  | _, _ => 0

/-- A run of characters that two texts share: where it starts in each, and its length. -/
structure Block where
  left : Nat
  right : Nat
  length : Nat

/-- The longer block; of two blocks of one length, the first. -/
def Block.longer (x y : Block) : Block :=
  if y.length > x.length then y else x

/-- The longest of `best` and the blocks that start at position `i` of one text and later than
position `j` of the other, where `a` and `b` are what stands there. -/
def longestAt (leftOut : List Char) (i : Nat) (a : List Char) (j : Nat) :
    List Char → Block → Block
  | [], best => best
  | b :: bs, best =>
    longestAt leftOut i a (j + 1) bs (best.longer ⟨i, j, sharedStart leftOut a (b :: bs)⟩)

/-- The longest of `best` and the blocks that start at position `i` or later of one text. -/
def longestFrom (leftOut : List Char) (i : Nat) (b : List Char) : List Char → Block → Block
  | [], best => best
  | a :: as, best =>
    longestFrom leftOut (i + 1) b as (longestAt leftOut i (a :: as) 0 b best)

/-- A block with the equal characters at both of its ends. -/
def Block.extended (a b : List Char) (x : Block) : Block :=
  let before := sharedStart [] (a.take x.left).reverse (b.take x.right).reverse
  let behind := sharedStart [] (a.drop (x.left + x.length)) (b.drop (x.right + x.length))
  ⟨x.left - before, x.right - before, before + x.length + behind⟩

/-- The longest run that two texts share, the leftmost in the first and then in the second, of
characters that are not left out, with the equal characters at its ends. -/
def longestBlock (leftOut a b : List Char) : Block :=
  (longestFrom leftOut 0 b a ⟨0, 0, 0⟩).extended a b

/-- The number of characters of two texts that stand in matching blocks. -/
def matched (leftOut a b : List Char) : Nat :=
  match longestBlock leftOut a b with
  | ⟨i, j, k⟩ =>
    if k = 0 ∨ a.length < i + k then 0
    else
      matched leftOut (a.take i) (b.take j) + k +
        matched leftOut (a.drop (i + k)) (b.drop (j + k))
termination_by a.length
decreasing_by
  · simp only [List.length_take]; omega
  · simp only [List.length_drop]; omega

/-- How like a name is to the word sought: `matched` of `total` characters. -/
structure Likeness where
  name : String
  matched : Nat
  total : Nat

/-- The likeness of a name to a word. -/
def likeness (word name : String) : Likeness :=
  let a := name.toList
  let b := word.toList
  let total := a.length + b.length
  -- No more can match than the shorter text holds.
  if 10 * min a.length b.length < 3 * total then ⟨name, 0, total⟩
  else ⟨name, Text.matched (frequent b) a b, total⟩

/-- Whether at least six tenths of the characters match. -/
def Likeness.isClose (l : Likeness) : Bool :=
  3 * l.total ≤ 10 * l.matched

/-- Whether `x` is less like than `y`, or as like with a smaller name. -/
def Likeness.isBelow (x y : Likeness) : Bool :=
  x.matched * y.total < y.matched * x.total ||
    (x.matched * y.total == y.matched * x.total && x.name < y.name)

/-- The name most like `word`, if one is close; of equally like names the greatest. -/
def closest? (names : List String) (word : String) : Option String :=
  let close := (names.map (likeness word)).filter Likeness.isClose
  let best := close.foldl (fun best l =>
    match best with
    | none => some l
    | some b => if b.isBelow l then some l else some b) none
  best.map Likeness.name

end Worklog.Text
