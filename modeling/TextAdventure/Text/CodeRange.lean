/-!
# Sets of characters as tables

A class of characters that some standard lists is kept as a table of ranges of code points in
increasing order. A look-up stops at the first range that starts after the code point, so the most
common characters, which have small numbers, are found or missed at once.
-/

namespace TextAdventure.Text

/-- Whether code point `n` lies in one of the ranges of a table, each given by its first and its
last member. The ranges stand in increasing order, so a range that starts after `n` settles the
matter. -/
def inRanges (n : Nat) : List (Nat × Nat) → Bool
  | [] => false
  | (first, last) :: rest =>
    if n < first then false else if n ≤ last then true else inRanges n rest

end TextAdventure.Text
