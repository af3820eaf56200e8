import TextAdventure.Fault

/-!
# Taking documents apart

Readers take documents apart by operations that work on some kinds and fail on the others, each with
its own cause. Going through the parts of a document works on texts, which yield their characters,
on lists and on mappings, which yield their keys. Whether something occurs in a document is asked of
the same three kinds, a text being searched for a stretch. Fields are only had from mappings.
-/

namespace TextAdventure.Document

/-- The parts of a document: the characters of a text, the items of a list, the keys of a
mapping. -/
def parts : Document → Except Fault (List Document)
  | .text s => .ok (s.toList.map fun c => .text (String.singleton c))
  | .list items => .ok items
  | .mapping entries => .ok (entries.map Prod.fst)
  | _ => .error .wrongKind

/-- Whether one list of characters occurs in another as a stretch. -/
def occursIn (part : List Char) : List Char → Bool
  | [] => part.isEmpty
  | c :: cs => part.isPrefixOf (c :: cs) || occursIn part cs

/-- Whether a text occurs in a document: as a stretch of a text, an item of a list or a key of a
mapping. -/
def contains (s : String) : Document → Except Fault Bool
  | .text t => .ok (occursIn s.toList t.toList)
  | .list items => .ok (items.any fun d => d.isText s)
  | .mapping entries => .ok (entries.any fun e => e.1.isText s)
  | _ => .error .wrongKind

/-- The entries of a mapping. -/
def entries : Document → Except Fault (Table Document Document)
  | .mapping es => .ok es
  | _ => .error .lacking

/-- Looks a document up as a key. -/
def lookUp {α : Type} (key : Document) (table : Table Document α) : Except Fault (Option α) :=
  if key.canBeKey then .ok (Table.get? key table) else .error .wrongKind

/-- The texts of a list of documents, or the fault of the first one that is no text. -/
def texts (fault : Document → Fault) : List Document → Except Fault (List String)
  | [] => .ok []
  | .text s :: ds =>
    match texts fault ds with
    | .ok ss => .ok (s :: ss)
    | .error f => .error f
  | d :: _ => .error (fault d)

end TextAdventure.Document
