import TextAdventure.Document.Access

/-!
# Cursors

A cursor is a place in a sequence that only moves forward, one item at a time. It begins before the
first item, so that the first advance lands on it, and it may stand anywhere: outside the sequence
it finds nothing.

A place is a whole number. Because a caller may assign anything as a position, a cursor holds its
position as a document; a position that is no number can be shown but not used, and one with a
fraction can be moved but finds no item.

Several cursors over one sequence form a family. A step is made on one of them and, whatever it
does, moves no other (`TextAdventure.Cursor.Step`).
-/

namespace TextAdventure

/-- The item at a place of a sequence. There is none outside it. -/
def itemAt? {α : Type} (items : List α) (place : Int) : Option α :=
  if place < 0 then none else items[place.toNat]?

/-- The items from a place on; before the sequence, all of them. -/
def itemsFrom {α : Type} (items : List α) (place : Int) : List α := items.drop place.toNat

/-- A place in a sequence. -/
structure Cursor where
  items : List Document
  position : Document

namespace Cursor

/-- A cursor over the parts of a document, before the first one unless a position is given. -/
def ofDocument (d : Document) (position : Option Document) : Except Fault Cursor :=
  match d.parts with
  | .ok items => .ok ⟨items, position.getD (.int (-1))⟩
  | .error f => .error f

/-- A position moved by a step; nothing but numbers can be moved. -/
def moved (position : Document) (step : Int) : Except Fault Document :=
  match position.whole?, position with
  | some n, _ => .ok (.int (n + step))
  | none, .float x => .ok (.float (x + Float.ofInt step))
  | none, _ => .error .wrongKind

/-- The item at the cursor. -/
def current (c : Cursor) : Except Fault (Option Document) :=
  match c.position.whole?, c.position with
  | some n, _ => .ok (itemAt? c.items n)
  | none, .float x =>
    if 0.0 ≤ x && x < Float.ofNat c.items.length then .error .wrongKind else .ok none
  | none, _ => .error .wrongKind

/-- Moves the cursor one place on, and finds the item there. A cursor that has been moved stays so
even if what it finds cannot be used. -/
def advance (c : Cursor) : Cursor × Except Fault (Option Document) :=
  match moved c.position 1 with
  | .error f => (c, .error f)
  | .ok position => ({ c with position }, current { c with position })

/-- The item one place on. The cursor goes there and comes back. -/
def peek (c : Cursor) : Cursor × Except Fault (Option Document) :=
  match c.advance with
  | (c', .error f) => (c', .error f)
  | (c', .ok item) =>
    match moved c'.position (-1) with
    | .ok position => ({ c' with position }, .ok item)
    | .error f => (c', .error f)

/-- The items from the cursor on; all of them if it stands before the sequence. -/
def remaining (c : Cursor) : Except Fault (List Document) :=
  match c.position.whole?, c.position with
  | some n, _ => .ok (itemsFrom c.items n)
  | none, .float x => if x < 0.0 then .ok c.items else .error .wrongKind
  | none, _ => .error .wrongKind

/-- Another cursor over the same sequence, at the same place unless one is given. -/
def fork (c : Cursor) (position : Document) : Cursor :=
  match position with
  | .null => c
  | _ => { c with position }

/-- The cursor in a message. -/
def quoted (c : Cursor) : String :=
  "TokenCursor(position=" ++ c.position.quoted ++ ", items="
    ++ (Document.list c.items).quoted ++ ")"

/-! ### Families of cursors -/

/-- What can be done with one cursor of a family. -/
inductive Step where
  | advance
  | current
  | peek
  | remaining
  /-- Adds a cursor to the family, at a position or, if that is nothing, at the same place. -/
  | fork (position : Document)
  /-- Assigns a position. -/
  | assign (position : Document)
  | quote
  /-- Asks whether the item at the cursor has any content. -/
  | test

/-- What a step finds. -/
inductive Finding where
  /-- An item, or nothing outside the sequence. -/
  | item (d : Option Document)
  | items (ds : List Document)
  /-- The number of the new cursor in the family. -/
  | cursor (n : Nat)
  | text (s : String)
  | truth (b : Bool)
  | nothing

/-- An item as a finding. -/
def found (result : Cursor × Except Fault (Option Document)) : Cursor × Except Fault Finding :=
  (result.1, result.2.map .item)

/-- Makes a step on one cursor of a family of `size` cursors: the cursor afterwards, the cursor that
is added, if one is, and what was found. -/
def step (c : Cursor) (size : Nat) : Step → Cursor × Option Cursor × Except Fault Finding
  | .advance => let (c, f) := found c.advance; (c, none, f)
  | .peek => let (c, f) := found c.peek; (c, none, f)
  | .current => (c, none, c.current.map .item)
  | .remaining => (c, none, c.remaining.map .items)
  | .fork position => (c, some (c.fork position), .ok (.cursor size))
  | .assign position => ({ c with position }, none, .ok .nothing)
  | .quote => (c, none, .ok (.text c.quoted))
  | .test => (c, none, c.current.map fun d => .truth (d.any Document.isTrue))

/-- A family of cursors. -/
abbrev Family := List Cursor

/-- Makes a step on the cursor of a number. -/
def Family.step (family : Family) (n : Nat) (s : Step) : Family × Except Fault Finding :=
  match family[n]? with
  | none => (family, .error .outOfRange)
  | some c =>
    let (c', added, finding) := c.step family.length s
    (family.set n c' ++ added.toList, finding)

end Cursor

end TextAdventure
