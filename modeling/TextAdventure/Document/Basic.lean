import TextAdventure.Document.Timestamp
import TextAdventure.Table

/-!
# Documents

A document is a value as a data file holds it: nothing, a truth value, a number, a text, a
timestamp, a list, or a mapping whose entries keep their order. Grammars, worlds and settings are
read from documents, and because a file may hold anything anywhere, every reader in this library
takes a document and says what it does with each kind.

Some values that the language of the files has are left out: bytes, sets, ordered mappings and lists
of pairs, and lists and mappings that contain themselves. Readers that meet one of these in a file
refuse it (`TextAdventure.Yaml.Tag`).

Three notions that many readers share are defined here.

* **Equality** is by value, across kinds: the number one, the same number with a decimal point and
  the truth value *true* are equal, because a truth value counts as zero or one. Lists are equal
  item by item and mappings entry by entry, whatever the order of the entries. The instance
  `BEq Document` is this equality, so that every `TextAdventure.Table` with documents as keys uses
  it.
* **Emptiness**: nothing, *false*, zero and everything without content are empty; a reader that has
  a default uses it for all of them.
* **Keys**: lists and mappings cannot be keys.
-/

namespace TextAdventure

/-- A value as a data file holds it. -/
inductive Document where
  /-- Nothing. -/
  | null
  /-- A truth value. -/
  | bool (b : Bool)
  /-- A whole number. -/
  | int (n : Int)
  /-- A floating-point number. -/
  | float (x : Float)
  /-- A text. -/
  | text (s : String)
  /-- A day or a moment. -/
  | time (t : Timestamp)
  /-- A list. -/
  | list (items : List Document)
  /-- A mapping, its entries in order. -/
  | mapping (entries : List (Document × Document))

namespace Document

instance : Inhabited Document := ⟨.null⟩

/-- The exact value of a number; a truth value counts as zero or one. -/
def number? : Document → Option Decimal.Exact
  | .bool b => some (.ofInt (if b then 1 else 0))
  | .int n => some (.ofInt n)
  | .float x => some (.ofFloat x)
  | _ => none

/-- The whole number that a document stands for as a position: a whole number itself, or a truth
value as zero or one. -/
def whole? : Document → Option Int
  | .bool b => some (if b then 1 else 0)
  | .int n => some n
  | _ => none

/-- The text that a document is. -/
def text? : Document → Option String
  | .text s => some s
  | _ => none

/-! ### Equality -/

/-- Whether two documents are numbers of the same value. -/
def sameNumber (d d' : Document) : Bool :=
  match d.number?, d'.number? with
  | some x, some y => x.same y
  | _, _ => false

mutual

/-- Whether two documents are equal by value. -/
def same : Document → Document → Bool
  | .null, .null => true
  | .text s, .text s' => s == s'
  | .time t, .time t' => t.same t'
  | .list xs, .list ys => sameItems xs ys
  | .mapping es, .mapping fs => es.length == fs.length && sameEntries es fs
  | .bool b, d => sameNumber (Document.bool b) d
  | .int n, d => sameNumber (Document.int n) d
  | .float x, d => sameNumber (Document.float x) d
  | _, _ => false

/-- Whether two lists are equal item by item. -/
def sameItems : List Document → List Document → Bool
  | [], [] => true
  | x :: xs, y :: ys => same x y && sameItems xs ys
  | _, _ => false

/-- Whether every entry of the first list is equal to some entry of the second. -/
def sameEntries : List (Document × Document) → List (Document × Document) → Bool
  | [], _ => true
  | (k, v) :: es, fs => fs.any (fun f => same k f.1 && same v f.2) && sameEntries es fs

end

instance : BEq Document := ⟨same⟩

/-! ### Emptiness and keys -/

/-- Whether a document has no content: nothing, *false*, zero, and a text, list or mapping without
parts. -/
def isEmpty : Document → Bool
  | .null => true
  | .bool b => !b
  | .int n => n == 0
  | .float x => (Decimal.Exact.ofFloat x).isZero
  | .text s => s == ""
  | .time _ => false
  | .list items => items.isEmpty
  | .mapping entries => entries.isEmpty

/-- The truth value that a document stands for: *false* exactly for the empty ones. -/
def isTrue (d : Document) : Bool := !d.isEmpty

/-- A document, or a default in place of an empty one. -/
def orElse (d default : Document) : Document := if d.isEmpty then default else d

/-- Whether a document can be a key. -/
def canBeKey : Document → Bool
  | .list _ => false
  | .mapping _ => false
  | _ => true

/-- Whether a document is the given text. -/
def isText (d : Document) (s : String) : Bool :=
  match d with
  | .text t => t == s
  | _ => false

/-- The value that a mapping holds under a text. -/
def field? (name : String) (entries : Table Document Document) : Option Document :=
  Table.get? (.text name) entries

/-- The value that a mapping holds under a text, or nothing. -/
def field (name : String) (entries : Table Document Document) : Document :=
  (field? name entries).getD .null

end Document

end TextAdventure
