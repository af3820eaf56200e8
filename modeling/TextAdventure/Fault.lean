import TextAdventure.Document.Text

/-!
# Why something fails

Two layers of causes. A `TextAdventure.Misfit` says what is wrong with a grammar, a resolver or a
world that was given: its author has to mend the file, so each cause comes with a sentence for the
author (`TextAdventure.Misfit.message`). A `TextAdventure.Fault` is any way in which an operation of
the library can end without a result; a misfit is one of them. The others are told apart by what
went wrong: a value of a kind that the operation does not work on, a value that lacks what was asked
of it, a key or a place that does not exist, and so on.
-/

namespace TextAdventure

/-- What is wrong with a grammar, a resolver or a world. -/
inductive Misfit where
  /-- The file of a world does not hold a mapping. -/
  | worldShape
  /-- A scene lacks an id. -/
  | sceneWithoutId
  /-- A world has no scene. -/
  | noScenes
  /-- The scene to start in is not among the scenes. -/
  | noStartScene (scene : Document)
  /-- An entry in the objects of a scene is neither a name nor a mapping. -/
  | objectShape (scene object : Document)
  /-- The aliases of an object are no list. -/
  | aliasesShape (object aliases : Document)
  /-- The name of an object is no text. -/
  | objectName (object name : Document)
  /-- An alias of an object is no text. -/
  | aliasText (object : String) (name : Document)
  /-- A symbol's definition is neither a resolver type nor a mapping. -/
  | symbolShape (symbol : Document)
  /-- A symbol stands for the objects of a world, and there is no world. -/
  | symbolWithoutWorld (symbol : Document)
  /-- The phrases of a symbol are no list. -/
  | phrasesShape (symbol phrases : Document)
  /-- A symbol has no phrases. -/
  | noPhrases (symbol : Document)
  /-- A symbol's resolver type is none of the known ones. -/
  | resolverType (symbol type : Document)
  /-- A phrase is no text. -/
  | phraseText (phrase : Document)
  /-- What is to be registered for a symbol cannot resolve anything. -/
  | notAResolver (symbol : Document)
  /-- The action of a rule cannot be called. -/
  | notCallable (pattern : String) (action : String)
  /-- The action of a rule does not take one argument per symbol. -/
  | arity (pattern : String) (symbols : Nat) (action signature : String)
  /-- A word of a verb is no text. -/
  | verbWord (word : Document)
  /-- A verb has no words. -/
  | verbWithoutWords
  /-- Rules use symbols for which nothing is registered. -/
  | missingSymbols (names : List String)
  /-- A grammar document is no mapping. -/
  | grammarShape
  /-- The verb of a number, counted from one, is no mapping. -/
  | verbShape (verb : Nat)
  /-- The words of a verb are no list. -/
  | verbWordsShape (verb : Nat) (words : Document)
  /-- A rule of a verb is no mapping. -/
  | ruleShape (verb : Nat) (words : Document)
  /-- A rule of a verb names an action that does not exist. -/
  | unknownAction (verb : Nat) (words action : Document)

/-- A natural number in a message. -/
def counted (n : Nat) : String := String.ofList (Decimal.digits n)

/-- The verb of a number in a message. -/
def verbNumber (n : Nat) : String := "Verb #" ++ counted n

/-- What the author of a file is told. -/
def Misfit.message : Misfit → String
  | .worldShape => "World document must be a mapping with 'scenes'."
  | .sceneWithoutId => "Every scene needs an 'id'."
  | .noScenes => "World has no scenes."
  | .noStartScene scene => "Start scene '" ++ scene.shown ++ "' does not exist."
  | .objectShape scene object =>
    "Scene " ++ scene.quoted ++ ": object " ++ object.quoted ++ " must be a name or a mapping."
  | .aliasesShape object aliases =>
    "Object " ++ object.quoted ++ ": aliases must be a list, got " ++ aliases.quoted ++ "."
  | .objectName object name =>
    "Object " ++ object.quoted ++ ": name " ++ name.quoted ++ " must be text."
  | .aliasText object name =>
    "Object " ++ Text.quoted object ++ ": alias " ++ name.quoted ++ " must be text."
  | .symbolShape symbol => "Symbol '" ++ symbol.shown ++ "' must be a resolver type or a mapping."
  | .symbolWithoutWorld symbol =>
    "Symbol '" ++ symbol.shown ++ "' needs a world to resolve entities."
  | .phrasesShape symbol phrases =>
    "Symbol '" ++ symbol.shown ++ "': phrases must be a list, got " ++ phrases.quoted ++ "."
  | .noPhrases symbol => "Symbol '" ++ symbol.shown ++ "' has no phrases."
  | .resolverType symbol type =>
    "Symbol '" ++ symbol.shown ++ "' has unknown resolver type: " ++ type.quoted
  | .phraseText phrase => "Phrase " ++ phrase.quoted ++ " must be text (quote it in YAML)."
  | .notAResolver symbol => "Resolver for symbol '" ++ symbol.shown ++ "' has no resolve() method."
  | .notCallable pattern action =>
    "Rule '" ++ pattern ++ "': action " ++ action ++ " is not callable."
  | .arity pattern symbols action signature =>
    "Rule '" ++ pattern ++ "' has " ++ counted symbols ++ " symbol(s) but action " ++ action
      ++ signature ++ " does not take that many arguments."
  | .verbWord word => "Verb word " ++ word.quoted ++ " must be text (quote it in YAML)."
  | .verbWithoutWords => "A verb needs at least one word."
  | .missingSymbols names =>
    "No resolver registered for symbol(s): " ++ Document.listed names
  | .grammarShape => "Grammar document must be a mapping with 'symbols' and 'verbs'."
  | .verbShape verb => verbNumber verb ++ " must be a mapping with 'words' and 'rules'."
  | .verbWordsShape verb words =>
    verbNumber verb ++ ": words must be a list, got " ++ words.quoted ++ "."
  | .ruleShape verb words =>
    verbNumber verb ++ " " ++ words.shown ++ ": rules must be mappings with 'pattern' and 'action'."
  | .unknownAction verb words action =>
    verbNumber verb ++ " " ++ words.shown ++ ": unknown action '" ++ action.shown ++ "'."

/-- A way in which an operation ends without a result. -/
inductive Fault where
  /-- A grammar, a resolver or a world does not fit. -/
  | misfit (cause : Misfit)
  /-- A text is no document. -/
  | unreadable
  /-- A value is of a kind that the operation does not work on. -/
  | wrongKind
  /-- A value lacks what was asked of it. -/
  | lacking
  /-- A table has no such key. -/
  | noSuchKey
  /-- A value is of the right kind but not one that the operation can use. -/
  | badValue
  /-- A text cannot be read as markup. -/
  | badMarkup
  /-- A place lies outside a sequence. -/
  | outOfRange
  /-- The operation was left to be defined by others. -/
  | undefined
  /-- There is no file of the name. -/
  | noSuchFile (name : String)
  /-- The name is that of a folder. -/
  | isFolder
  /-- The answers have run out. -/
  | noMoreAnswers

end TextAdventure
