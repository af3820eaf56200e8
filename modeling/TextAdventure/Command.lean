import TextAdventure.Document.Access
import TextAdventure.Text.Lowercase

/-!
# Commands

A command is what a player types. The library looks at its words only: the text is trimmed, put in
lower case and cut at its blanks, and the articles are left out wherever they stand, so that
`Pick up  the Old key` and `pick up old key` are the same command.

`TextAdventure.Command.wordsOf` is this rule for a text and articles that are texts. Commands and
articles may also come from data of any kind; `TextAdventure.Command.normalize` says what happens
then. A list of texts is a command whose words are joined by spaces.
-/

namespace TextAdventure.Command

/-- The articles that are left out unless a game says otherwise. -/
def defaultArticles : List String := ["a", "an", "the"]

/-- Whether a word in lower case is one of the articles. -/
def isArticle (articles : List String) (w : String) : Bool :=
  articles.any fun article => Text.lower article == w

/-- The words of a text in lower case, without the articles. -/
def wordsOf (s : String) (articles : List String) : List String :=
  (Text.words (Text.lower (Text.trim s))).filter fun w => !isArticle articles w

/-- A command given as a list is the text of its words; the list may hold nothing but texts. -/
def joined : Document → Except Fault Document
  | .list items =>
    match Document.texts (fun _ => .wrongKind) items with
    | .ok ws => .ok (.text (Text.spaced ws))
    | .error f => .error f
  | d => .ok d

/-- The words of a command of any kind: a list is joined first, then the articles have to be texts,
and at last the command. -/
def normalize (command : Document) (articles : List Document) : Except Fault (List String) :=
  match joined command with
  | .error f => .error f
  | .ok command =>
    match Document.texts (fun _ => .lacking) articles with
    | .error f => .error f
    | .ok articles =>
      match command with
      | .text s => .ok (wordsOf s articles)
      | _ => .error .lacking

end TextAdventure.Command
