import TextAdventure.Text.Runs

/-!
# White space and words

What counts as a blank, and what is done with blanks: trimming them off both ends of a text, cutting
a text into words, and joining words with single spaces.
-/

namespace TextAdventure.Text

/-- The blanks: tab, the line controls, the four information separators, the space, and the spaces,
line and paragraph separators beyond the first 128 characters. The zero-width space, the byte order
mark and the Mongolian vowel separator are no blanks. -/
def isBlank (c : Char) : Bool :=
  let n := c.toNat
  (0x09 ≤ n && n ≤ 0x0D) || (0x1C ≤ n && n ≤ 0x20) || n == 0x85 || n == 0xA0 || n == 0x1680
    || (0x2000 ≤ n && n ≤ 0x200A) || n == 0x2028 || n == 0x2029 || n == 0x202F || n == 0x205F
    || n == 0x3000

/-- Whether a character belongs to a word. -/
def isInk (c : Char) : Bool := !isBlank c

/-- Drops every character that satisfies `p` from both ends. -/
def dropEnds (p : Char → Bool) (cs : List Char) : List Char :=
  ((cs.dropWhile p).reverse.dropWhile p).reverse

/-- The text without the characters of `p` at its two ends. -/
def trimWith (p : Char → Bool) (s : String) : String := String.ofList (dropEnds p s.toList)

/-- The text without blanks at its two ends. -/
def trim (s : String) : String := trimWith isBlank s

/-- The words of a text: its maximal runs of characters that are not blank, in order. -/
def words (s : String) : List String := (runs isInk s.toList).map String.ofList

/-- The texts in order with `separator` between neighbours. -/
def join (separator : String) : List String → String
  | [] => ""
  | [s] => s
  | s :: t :: rest => s ++ separator ++ join separator (t :: rest)

theorem join_eq_intercalate (separator : String) (ss : List String) :
    join separator ss = separator.intercalate ss := by
  induction ss using join.induct with
  | case1 => rfl
  | case2 s => rw [join, String.intercalate_singleton]
  | case3 s t rest ih => rw [join, ih, String.intercalate_cons_cons]

/-- The words in order with one space between neighbours. -/
def spaced (ws : List String) : String := join " " ws

/-- The text with every line ended by a line feed: a carriage return, alone or with a line feed
after it, becomes one line feed. -/
def withLineFeeds : List Char → List Char
  | [] => []
  | '\r' :: '\n' :: cs => '\n' :: withLineFeeds cs
  | c :: cs => (if c = '\r' then '\n' else c) :: withLineFeeds cs

end TextAdventure.Text
