import TextAdventure.Text.Blank

/-!
# Markup and its escape

The screen reads `[bold]` and the like in a text as tags. A tag opens a style, and one that begins
with a slash closes a style: the one that it names, or else the innermost. A tag that closes what is
not open makes the whole text unreadable (`TextAdventure.Text.isMarkup`). What a tag holds behind an
equals sign is not looked at.

A text that comes from a player or from a data file is escaped: each stretch that would be read as a
tag gets a backslash in front of its bracket, and the backslashes that already stand there are
doubled, so that they still mean themselves. A lone backslash at the end is doubled as well, because
it would otherwise escape whatever is written after the text. So an escaped text has no tags; one
that is put into markup as it is may have any.
-/

namespace TextAdventure.Text

/-- Whether a character may open a tag: a small letter, or one of `#`, `/` and `@`. -/
def opensTag (c : Char) : Bool :=
  ('a' ≤ c && c ≤ 'z') || c = '#' || c = '/' || c = '@'

/-- Whether the text after a bracket is the inside of a tag: an opening character, then no further
bracket before the closing one. -/
def isTag : List Char → Bool
  | [] => false
  | c :: rest =>
    opensTag c && (rest.dropWhile fun d => d ≠ '[' && d ≠ ']').head? == some ']'

/-! ### Reading tags -/

/-- The tags of a text in front of which `slashes` backslashes stand, each as what is between its
brackets. A bracket behind an odd number of backslashes opens no tag. -/
def tags (slashes : Nat) : List Char → List (List Char)
  | [] => []
  | c :: rest =>
    if c = '\\' then tags (slashes + 1) rest
    else if c = '[' && isTag rest && slashes % 2 == 0 then
      (rest.takeWhile fun d => d ≠ ']') :: tags 0 rest
    else tags 0 rest

/-- The name in a tag, which a value may follow after an equals sign. -/
def tagName (tag : List Char) : String := String.ofList (tag.takeWhile fun c => c ≠ '=')

/-- Whether every tag that closes something has something to close, where some styles are open, the
innermost first. A style may have several names, of which `styleName` makes one. -/
def tagsClose (styleName : String → String) (opened : List String) : List (List Char) → Bool
  | [] => true
  | ('/' :: tag) :: rest =>
    let name := trim (tagName tag)
    if name = "" then !opened.isEmpty && tagsClose styleName opened.tail rest
    else opened.contains (styleName name)
      && tagsClose styleName (opened.erase (styleName name)) rest
  | tag :: rest => tagsClose styleName (styleName (tagName tag) :: opened) rest

/-- Whether a text can be read as markup. -/
def isMarkup (styleName : String → String) (s : String) : Bool :=
  tagsClose styleName [] (tags 0 s.toList)

/-! ### Escaping -/

/-- Escapes the tags of a text of which `slashes` backslashes have been read and not yet written. -/
def escapeTags (slashes : Nat) : List Char → List Char
  | [] => List.replicate slashes '\\'
  | c :: rest =>
    if c = '\\' then escapeTags (slashes + 1) rest
    else if c = '[' && isTag rest then
      List.replicate (2 * slashes + 1) '\\' ++ c :: escapeTags 0 rest
    else List.replicate slashes '\\' ++ c :: escapeTags 0 rest

/-- Whether a text ends in a backslash but not in two. -/
def endsInLoneSlash (cs : List Char) : Bool :=
  match cs.reverse with
  | '\\' :: '\\' :: _ => false
  | '\\' :: _ => true
  | _ => false

/-- The text with every character that the screen would read as markup made to stand for itself. -/
def escapeMarkup (s : String) : String :=
  let cs := escapeTags 0 s.toList
  String.ofList (if endsInLoneSlash cs then cs ++ ['\\'] else cs)

end TextAdventure.Text
