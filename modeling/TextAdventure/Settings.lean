import TextAdventure.Folder
import TextAdventure.Listener
import TextAdventure.Yaml.Reader
import TextAdventure.Yaml.Writer

/-!
# Settings

A table of names with documents. Five names have a meaning for the library; others may be there and
are kept. Settings live in a file that holds only what differs from the defaults:

* loading starts from the defaults and enters everything in the file that is not nothing. Articles
  given as a text become the list of its words. If there is no file, one is written that explains
  itself;
* saving leaves out every setting that equals its default, and every unknown one that is nothing.
  The debug mode is always written, as a truth value.

The environment may name the file and may turn the debug mode on.
-/

namespace TextAdventure

/-- What the environment says about the settings. -/
structure Environment where
  /-- The file of the settings. -/
  file : Option String
  /-- A word that may turn the debug mode on. -/
  debug : Option String

/-- Settings by their names. -/
abbrev Settings := Table Document Document

namespace Settings

/-- The name of the setting for the file of the grammar. -/
def grammarFile : Document := .text "grammar_file"

/-- The name of the setting for the file of the world. -/
def worldFile : Document := .text "world_file"

/-- The name of the setting for the debug mode. -/
def debugMode : Document := .text "debug_mode"

/-- The name of the setting for the articles. -/
def articles : Document := .text "articles"

/-- The name of the setting for what is said to a command that is not understood. -/
def notUnderstood : Document := .text "not_understood"

/-- The settings unless the file says otherwise. -/
def defaults : Settings :=
  [(grammarFile, .text Bundle.grammarPath),
    (worldFile, .text Bundle.worldPath),
    (debugMode, .bool false),
    (articles, .ofTexts Command.defaultArticles),
    (notUnderstood, .text Listener.defaultNotUnderstood)]

/-- The text of the file that is written where there is none. -/
def defaultText : String :=
  "# LORE-PARSER CONFIGURATION
# -------------------------
# Leave grammar_file / world_file commented out to play the bundled demo.

# grammar_file: my_grammar.yaml
# world_file: my_world.yaml
debug_mode: false
articles: [a, an, the]
not_understood: \"I don't understand.\"
"

/-- The file of the settings: the one that is given, or the one that the environment names, or
`config.yaml`. -/
def path (env : Environment) (given : Document) : Document :=
  if given.isTrue then given
  else match env.file with
    | some s => if s.isEmpty then .text "config.yaml" else .text s
    | none => .text "config.yaml"

/-! ### Loading -/

/-- Whether the environment turns the debug mode on. -/
def debugForced (env : Environment) : Bool :=
  match env.debug with
  | some s => ["1", "true", "yes", "on"].contains (Text.lower s)
  | none => false

/-- Articles given as a text become the list of its words. -/
def withArticleList (s : Settings) : Settings :=
  match s.get? articles with
  | some (.text words) => s.insert articles (.ofTexts (Text.words words))
  | _ => s

/-- The settings that the entries of a file give. -/
def ofEntries (entries : Table Document Document) : Settings :=
  withArticleList (Table.update defaults (entries.filter fun e => !(e.2 == Document.null)))

/-- The entries in the document of a settings file; an empty document has none. -/
def entriesIn (d : Document) : Except Fault (Table Document Document) :=
  if d.isEmpty then .ok [] else d.entries

/-- The settings that a file's document gives, in an environment. -/
def ofDocument (env : Environment) (d : Document) : Except Fault Settings :=
  match entriesIn d with
  | .error f => .error f
  | .ok entries =>
    let s := ofEntries entries
    .ok (if debugForced env then s.insert debugMode (.bool true) else s)

/-- The settings in a file that exists. -/
def loadFile (env : Environment) (folder : Folder) (path : String) : Except Fault Settings := do
  ofDocument env (← Yaml.read (← folder.read path))

/-- Loads the settings. A file that does not exist is written first. -/
def load (env : Environment) (folder : Folder) (given : Document) :
    Folder × Except Fault Settings :=
  match Folder.pathText (path env given) with
  | .error f => (folder, .error f)
  | .ok path =>
    if folder.hasPath path then (folder, loadFile env folder path)
    else match folder.write path defaultText with
      | .error f => (folder, .error f)
      | .ok folder => (folder, loadFile env folder path)

/-! ### Saving -/

/-- Whether a setting is left out of the file: it equals its default, or it has none and is
nothing. -/
def isDefault (e : Document × Document) : Bool := (Table.get? e.1 defaults).getD .null == e.2

/-- Whether the debug mode is on. -/
def isDebug (s : Settings) : Bool := (s.get? debugMode).any Document.isTrue

/-- What the file of some settings holds. -/
def saved (s : Settings) : Settings :=
  Table.insert debugMode (.bool s.isDebug) (s.filter fun e => !isDefault e)

/-- Saves settings to their file, and gives its path. -/
def save (env : Environment) (folder : Folder) (s : Settings) (given : Document) :
    Folder × Except Fault Document :=
  match Folder.pathText (path env given) with
  | .error f => (folder, .error f)
  | .ok file =>
    match folder.write file (Yaml.write (.mapping s.saved)) with
    | .error f => (folder, .error f)
    | .ok folder => (folder, .ok (path env given))

/-- The settings with the debug mode changed over. -/
def toggled (s : Settings) : Settings := s.insert debugMode (.bool !s.isDebug)

end Settings

end TextAdventure
