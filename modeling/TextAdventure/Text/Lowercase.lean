import TextAdventure.Text.Capital
import TextAdventure.Text.CaseContext

/-!
# Lower case

Texts are compared without regard to case by comparing their lower cases. Nearly all characters have
a lower case of their own, read from the table of capitals. Two do not:

* the dotted capital I becomes a small `i` followed by the combining dot above;
* the Greek capital sigma becomes a final sigma at the end of a word and the common small sigma
  elsewhere. It ends a word when, ignorable characters passed over, a cased letter stands before it
  and none after it.

A sigma's neighbours may be on the other side of an apostrophe or a full stop but not of a blank,
because a blank is neither cased nor ignorable. So the lower case of a text is made of the lower
cases of its words, whatever stands around them.
-/

namespace TextAdventure.Text

/-- The capital sigma. -/
def capitalSigma : Char := '\u03A3'

/-- The dotted capital I. -/
def dottedI : Char := '\u0130'

/-- The lower case of one character without regard to its neighbours. -/
def lowerChar (c : Char) : List Char :=
  if c = dottedI then ['i', '\u0307']
  else match lowerIn? c.toNat capitals with
    | some n => [Char.ofNat n]
    | none => [c]

/-- Whether the nearest character that is not ignorable is a cased letter. -/
def meetsCased (cs : List Char) : Bool :=
  match cs.dropWhile isCaseIgnorable with
  | c :: _ => isCased c
  | [] => false

/-- The small sigma that stands for a capital one between `before`, read leftwards, and `after`. -/
def smallSigma (before after : List Char) : Char :=
  if meetsCased before && !meetsCased after then '\u03C2' else '\u03C3'

/-- The lower case of a text, given the characters `before` it from right to left. -/
def lowerAfter (before : List Char) : List Char → List Char
  | [] => []
  | c :: cs =>
    (if c = capitalSigma then [smallSigma before cs] else lowerChar c)
      ++ lowerAfter (c :: before) cs

/-- The lower case of a list of characters. -/
def lowerChars (cs : List Char) : List Char := lowerAfter [] cs

/-- The lower case of a text. -/
def lower (s : String) : String := String.ofList (lowerChars s.toList)

end TextAdventure.Text
