import TextAdventure.Fault

/-!
# Writing a document to a file

A document is written on one line: texts in double quotes with everything but printable ASCII
characters by number, lists in brackets, mappings in braces with their entries in order. Every key
is announced by a question mark, so that it may be as long as it likes, and so may every number be.
The reader gives back the document that was written.

The same document may be laid out in other ways, in lines and with its keys sorted, and what is said
of saved settings does not depend on it: it is said of what the reader gives back, whatever the
order of the names.
-/

namespace TextAdventure.Yaml

/-- How a character is written between double quotes. -/
def writtenChar (c : Char) : List Char :=
  let n := c.toNat
  if c = '"' || c = '\\' then ['\\', c]
  else if 0x20 ≤ n && n ≤ 0x7E then [c]
  else Text.numbered c

/-- A text in double quotes. -/
def writtenText (cs : List Char) : List Char := '"' :: cs.flatMap writtenChar ++ ['"']

mutual

/-- A document as it stands in a file. -/
def written : Document → List Char
  | .null => "null".toList
  | .bool true => "true".toList
  | .bool false => "false".toList
  | .int n => Decimal.ofInt n
  | .float x => Decimal.ofFloat .stored x
  | .text s => writtenText s.toList
  | .time t => t.text.toList
  | .list items => '[' :: writtenItems items ++ [']']
  | .mapping entries => '\x7b' :: writtenEntries entries ++ ['\x7d']

/-- The items of a list, each followed by a comma. -/
def writtenItems : List Document → List Char
  | [] => []
  | d :: ds => written d ++ [',', ' '] ++ writtenItems ds

/-- The entries of a mapping, each followed by a comma. -/
def writtenEntries : List (Document × Document) → List Char
  | [] => []
  | (k, v) :: es =>
    ['?', ' '] ++ written k ++ [' ', ':', ' '] ++ written v ++ [',', ' '] ++ writtenEntries es

end

/-- The text of a file that holds a document. -/
def write (d : Document) : String := String.ofList (written d ++ ['\n'])

end TextAdventure.Yaml
