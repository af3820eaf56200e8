import TextAdventure.Yaml.Node

/-!
# From a file to a document

The last step of reading: every node becomes a value of the kind that its tag names. A mapping first
takes over the entries of the mappings under its merge key; its own entries come after them, and of
entries with equal keys the last one counts. Lists and mappings cannot be keys.

`TextAdventure.Yaml.read` is the whole way from the text of a file to its document. An empty file
holds nothing.
-/

namespace TextAdventure.Yaml

/-- The value of a scalar. -/
def scalarValue (tag : Tag) (s : String) : Except Fault Document :=
  match tag with
  | .null => .ok .null
  | .bool =>
    let word := s.map Char.toLower
    if trueWords.contains word then .ok (.bool true)
    else if falseWords.contains word then .ok (.bool false)
    else .error .noSuchKey
  | .int => match intOf s.toList with
    | .ok n => .ok (.int n)
    | .error f => .error f
  | .float => match floatOf s.toList with
    | .ok x => .ok (.float x)
    | .error f => .error f
  | .str => .ok (.text s)
  | .time => match timeOf s.toList with
    | .ok t => .ok (.time t)
    | .error f => .error f
  | .seq | .map | .merge | .value | .unknown => .error .unreadable

/-- Whether a node is the key under which a mapping takes over entries. -/
def Node.isMergeKey : Node → Bool
  | .scalar .merge _ => true
  | _ => false

/-- The entries of a mapping: the ones it takes over, then its own. -/
def withTaken (taken : Except Fault (List (Node × Node))) (entries : List (Node × Node)) :
    Except Fault (List (Node × Node)) :=
  match taken with
  | .ok taken => .ok (taken ++ entries.filter fun e => !e.1.isMergeKey)
  | .error f => .error f

mutual

/-- The entries that a node under a merge key gives: those of a mapping, or those of a sequence of
mappings. -/
def mergedEntries : Node → Except Fault (List (Node × Node))
  | .mapping _ entries => withTaken (takenEntries entries) entries
  | .sequence _ items => mergedItems items
  | .scalar _ _ => .error .unreadable

/-- The entries of a sequence of mappings. Those of the first mapping count most and so come
last. -/
def mergedItems : List Node → Except Fault (List (Node × Node))
  | [] => .ok []
  | .mapping _ entries :: rest =>
    match withTaken (takenEntries entries) entries, mergedItems rest with
    | .ok front, .ok more => .ok (more ++ front)
    | .error f, _ => .error f
    | _, .error f => .error f
  | _ :: _ => .error .unreadable

/-- The entries that a mapping takes over. -/
def takenEntries : List (Node × Node) → Except Fault (List (Node × Node))
  | [] => .ok []
  | (k, v) :: rest =>
    if k.isMergeKey then
      match mergedEntries v, takenEntries rest with
      | .ok front, .ok more => .ok (front ++ more)
      | .error f, _ => .error f
      | _, .error f => .error f
    else takenEntries rest

end

/-- The node that a key stands for: a lone equals sign is a text there. -/
def keyNode : Node → Node
  | .scalar .value s => .scalar .str s
  | k => k

mutual

/-- How deep a node is nested. -/
def Node.depth : Node → Nat
  | .scalar _ _ => 1
  | .sequence _ items => depthOfItems items + 1
  | .mapping _ entries => depthOfEntries entries + 1

/-- How deep the deepest of several nodes is nested. -/
def depthOfItems : List Node → Nat
  | [] => 0
  | n :: ns => max n.depth (depthOfItems ns)

/-- How deep the deepest key or value of several entries is nested. -/
def depthOfEntries : List (Node × Node) → Nat
  | [] => 0
  | (k, v) :: es => max (max k.depth v.depth) (depthOfEntries es)

end

/-- The document that a node stands for, if it is nested at most `fuel` deep. -/
def Node.toDocument : Nat → Node → Except Fault Document
  | 0, _ => .error .unreadable
  | _ + 1, .scalar tag s => scalarValue tag s
  | fuel + 1, .sequence tag items =>
    if tag = .seq then (items.mapM (Node.toDocument fuel)).map .list else .error .unreadable
  | fuel + 1, .mapping tag entries =>
    if tag = .map then do
      let entries ← withTaken (takenEntries entries) entries
      let table ← entries.foldlM (fun (table : Table Document Document) e => do
        let key ← (keyNode e.1).toDocument fuel
        if key.canBeKey then
          let value ← e.2.toDocument fuel
          return table.insert key value
        else .error .unreadable) []
      return .mapping table
    else .error .unreadable

/-- The document that the text of a file holds. -/
def read (s : String) : Except Fault Document :=
  match tokens (Text.withLineFeeds s.toList) with
  | .error f => .error f
  | .ok ts =>
    match Node.ofTokens ts with
    | .error f => .error f
    | .ok none => .ok .null
    | .ok (some n) => n.toDocument n.depth

end TextAdventure.Yaml
