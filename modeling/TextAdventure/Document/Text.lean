import TextAdventure.Document.Basic
import TextAdventure.Text.Quoted
import TextAdventure.Text.Blank

/-!
# Documents in messages

Messages show documents in two ways. *Quoted*, a document is written so that its kind can be told:
texts stand in quotes, nothing and the truth values are capitalized words, lists stand in square
brackets and mappings in braces. *Shown*, a text stands for itself and everything else is quoted.
The parts of a list or mapping are always quoted.

A whole number of too many digits cannot be written (`TextAdventure.Document.isWritable`). This is
left to those who show documents that nobody has checked; the texts here, and so the messages about
misfits, write out any number.
-/

namespace TextAdventure.Document

/-- Texts with a comma and a space between neighbours. -/
def listed (parts : List String) : String := Text.join ", " parts

mutual

/-- A document written so that its kind can be told. -/
def quoted : Document → String
  | .null => "None"
  | .bool true => "True"
  | .bool false => "False"
  | .int n => String.ofList (Decimal.ofInt n)
  | .float x => String.ofList (Decimal.ofFloat .shown x)
  | .text s => Text.quoted s
  | .time t => t.quoted
  | .list items => "[" ++ listed (quotedItems items) ++ "]"
  | .mapping entries => "\x7b" ++ listed (quotedEntries entries) ++ "\x7d"

/-- The items of a list, each quoted. -/
def quotedItems : List Document → List String
  | [] => []
  | d :: ds => quoted d :: quotedItems ds

/-- The entries of a mapping, each as its quoted key and value with a colon between. -/
def quotedEntries : List (Document × Document) → List String
  | [] => []
  | (k, v) :: es => (quoted k ++ ": " ++ quoted v) :: quotedEntries es

end

/-- A document as it appears inside a sentence: a text as it is, anything else quoted, a timestamp
in the form in which files hold it. -/
def shown : Document → String
  | .text s => s
  | .time t => t.text
  | d => d.quoted

mutual

/-- Whether a document can be written as a text: no number in it has too many digits. -/
def isWritable : Document → Bool
  | .int n => Decimal.isWritable n.natAbs
  | .list items => areWritable items
  | .mapping entries => areWritableEntries entries
  | _ => true

/-- Whether all items of a list can be written. -/
def areWritable : List Document → Bool
  | [] => true
  | d :: ds => isWritable d && areWritable ds

/-- Whether the keys and values of all entries can be written. -/
def areWritableEntries : List (Document × Document) → Bool
  | [] => true
  | (k, v) :: es => isWritable k && isWritable v && areWritableEntries es

end

/-- A list of texts as a document. -/
def ofTexts (ss : List String) : Document := .list (ss.map .text)

end TextAdventure.Document
