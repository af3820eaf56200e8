/-!
# Tables

A table lists its entries in the order in which their keys first came in. Entering a key that is
already there replaces its value and keeps its place. All look-ups of the library – the fields of a
mapping, the scenes of a world, the resolvers of a grammar, the settings, the files – are look-ups
in such tables, whatever test of equality their keys bring.
-/

namespace TextAdventure

/-- Entries in the order in which their keys first came in. -/
abbrev Table (κ α : Type) := List (κ × α)

namespace Table

variable {κ α : Type} [BEq κ]

/-- The value entered under a key. -/
def get? (key : κ) : Table κ α → Option α
  | [] => none
  | (k, a) :: rest => if k == key then some a else get? key rest

/-- Whether a key has been entered. -/
def has (key : κ) (table : Table κ α) : Bool := (get? key table).isSome

/-- The keys in the order in which they first came in. -/
def keys (table : Table κ α) : List κ := table.map Prod.fst

/-- Enters a value under a key: in place of the former value, or else at the end. -/
def insert (key : κ) (value : α) : Table κ α → Table κ α
  | [] => [(key, value)]
  | (k, a) :: rest => if k == key then (k, value) :: rest else (k, a) :: insert key value rest

/-- The entries of a list, entered one after the other. -/
def ofList (entries : List (κ × α)) : Table κ α :=
  entries.foldl (fun table entry => insert entry.1 entry.2 table) []

/-- Enters all entries of a second table. -/
def update (table more : Table κ α) : Table κ α :=
  more.foldl (fun table entry => insert entry.1 entry.2 table) table

/-- The table without a key. -/
def erase (key : κ) : Table κ α → Table κ α
  | [] => []
  | (k, a) :: rest => if k == key then rest else (k, a) :: erase key rest

end Table

end TextAdventure
