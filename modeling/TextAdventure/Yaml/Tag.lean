import TextAdventure.Yaml.Numeral
import TextAdventure.Yaml.Timestamp

/-!
# Tags

A tag says what kind of value a node is. Most nodes have none written; what a plain scalar is then
depends on what its text looks like.

Of the kinds that the language of the files names, `binary`, `set`, `omap` and `pairs` are left out,
as no document has values of these kinds. A node that is tagged by one of them has an unknown kind,
and the file is no document then. The same goes for an alias inside the node that it names: the node
is not complete there, and no value contains itself.
-/

namespace TextAdventure.Yaml

/-- What kind of value a node is. -/
inductive Tag where
  | null
  | bool
  | int
  | float
  | str
  | time
  | seq
  | map
  /-- The key under which a mapping takes over the entries of others. -/
  | merge
  /-- The key of a default value. -/
  | value
  /-- A kind that this library does not know. -/
  | unknown
  deriving DecidableEq

/-- What the full names of the standard kinds begin with. -/
def standardHandle : String := "tag:yaml.org,2002:"

/-- The kinds that have a name. -/
def Tag.names : List (String × Tag) :=
  [("null", .null), ("bool", .bool), ("int", .int), ("float", .float), ("str", .str),
    ("timestamp", .time), ("seq", .seq), ("map", .map), ("merge", .merge), ("value", .value)]

/-- The kind that a tag names. -/
def Tag.ofText (s : String) : Tag :=
  match Tag.names.find? fun n => standardHandle ++ n.1 == s with
  | some n => n.2
  | none => .unknown

/-- The words for *true*. Each is written small, capitalized or in capitals. -/
def trueWords : List String := ["yes", "Yes", "YES", "true", "True", "TRUE", "on", "On", "ON"]

/-- The words for *false*. -/
def falseWords : List String := ["no", "No", "NO", "false", "False", "FALSE", "off", "Off", "OFF"]

/-- The words for nothing; the empty text is one of them. -/
def nullWords : List String := ["", "~", "null", "Null", "NULL"]

/-- The kind of value that a plain scalar looks like. -/
def impliedTag (s : String) : Tag :=
  let cs := s.toList
  if trueWords.contains s || falseWords.contains s then .bool
  else if looksFloat cs then .float
  else if looksInt cs then .int
  else if s == "<<" then .merge
  else if nullWords.contains s then .null
  else if looksTime cs then .time
  else if s == "=" then .value
  else .str

end TextAdventure.Yaml
