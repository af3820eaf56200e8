import TextAdventure.Yaml.Token
import TextAdventure.Yaml.Tag
import TextAdventure.Table

/-!
# Nodes

The tokens of a file form a tree: scalars, sequences and mappings, each with a tag that says what
kind of value it is. Here the tree is read off the tokens, anchors are resolved on the way, and
every node gets its tag: the one that is written, or else the one that the form of the node implies.
For a plain scalar that is the kind of value its text looks like.

A file holds at most one document. An alias names a node that is complete, so the tree is finite.

The readers call each other along the nesting of the tree. Every call passes at least one token or
goes one step down in a fixed order of at most three, so four times the number of tokens bounds the
depth of the calls.
-/

namespace TextAdventure.Yaml

/-- A node of the tree. -/
inductive Node where
  | scalar (tag : Tag) (text : String)
  | sequence (tag : Tag) (items : List Node)
  | mapping (tag : Tag) (entries : List (Node × Node))

instance : Inhabited Node := ⟨.scalar .null ""⟩

/-! ### Reading the tree -/

/-- What is known while the tree is read: the tokens left, the nodes that anchors name, and the
anchors of nodes that are not complete. -/
structure Reading where
  tokens : List Token
  anchors : Table String Node
  unfinished : List String
  /-- The meanings of the handles for tags. -/
  handles : Table String String

/-- What a reader of a part of the tree returns. -/
abbrev Read (α : Type) := Except Fault (α × Reading)

namespace Reading

/-- The tokens without the first one. -/
def drop (r : Reading) : Reading := { r with tokens := r.tokens.tail }

/-- Whether the next token is one of a list. -/
def isAt (r : Reading) (ts : List Token) : Bool :=
  match r.tokens with
  | t :: _ => ts.contains t
  | [] => false

/-- An anchor and a tag in front of a node, in either order. -/
def properties (r : Reading) : Option String × Option (Option String × String) × Reading :=
  match r.tokens with
  | .anchor a :: .tag h t :: rest => (some a, some (h, t), { r with tokens := rest })
  | .tag h t :: .anchor a :: rest => (some a, some (h, t), { r with tokens := rest })
  | .anchor a :: rest => (some a, none, { r with tokens := rest })
  | .tag h t :: rest => (none, some (h, t), { r with tokens := rest })
  | _ => (none, none, r)

/-- The full text of a tag. -/
def tagText (r : Reading) : Option String × String → Except Fault String
  | (none, t) => .ok t
  | (some h, t) =>
    match Table.get? h r.handles with
    | some meaning => .ok (meaning ++ t)
    | none => .error .unreadable

end Reading

/-- An empty scalar without a tag. -/
def Node.empty : Node := .scalar .null ""

/-- The tag of a scalar: the one that is written, unless it is the mark for no tag, or the one that
a plain scalar implies, or that of a text. -/
def scalarTag (written : Option String) (plain : Bool) (text : String) : Tag :=
  match written with
  | none => if plain then impliedTag text else .str
  | some t => if t == "!" then impliedTag text else .ofText t

/-- The tag of a collection: the one that is written, unless it is the mark for no tag, or the one
that its form implies. -/
def collectionTag (written : Option String) (implied : Tag) : Tag :=
  match written with
  | none => implied
  | some t => if t == "!" then implied else .ofText t

mutual

/-- A node. In a block it may be a collection shown by indentation, and under a key also a sequence
whose dashes stand below the key. -/
def readNode (block dashes : Bool) (r : Reading) : Nat → Read Node
  | 0 => .error .unreadable
  | fuel + 1 =>
    match r.tokens with
    | .alias a :: rest =>
      match Table.get? a r.anchors with
      | some n => .ok (n, { r with tokens := rest })
      | none => .error .unreadable
    | _ =>
      let (anchor, tag, r) := r.properties
      let begun : Except Fault Reading := match anchor with
        | none => .ok r
        | some a => if Table.has a r.anchors || r.unfinished.contains a then .error .unreadable
          else .ok { r with unfinished := a :: r.unfinished }
      let written : Except Fault (Option String) := match tag with
        | none => .ok none
        | some t => match r.tagText t with
          | .ok s => .ok (some s)
          | .error f => .error f
      match written, begun with
      | .error f, _ => .error f
      | _, .error f => .error f
      | .ok written, .ok r =>
        match readBody block dashes anchor.isSome written r fuel with
        | .error f => .error f
        | .ok (n, r) =>
          match anchor with
          | none => .ok (n, r)
          | some a => .ok (n, { r with
              anchors := (a, n) :: r.anchors
              unfinished := r.unfinished.erase a })

/-- A node after its anchor and tag. -/
def readBody (block dashes anchored : Bool) (written : Option String) (r : Reading) :
    Nat → Read Node
  | 0 => .error .unreadable
  | fuel + 1 =>
    let asSequence (part : Read (List Node)) : Read Node :=
      match part with
      | .ok (items, r) => .ok (.sequence (collectionTag written .seq) items, r)
      | .error f => .error f
    let asMapping (part : Read (List (Node × Node))) : Read Node :=
      match part with
      | .ok (entries, r) => .ok (.mapping (collectionTag written .map) entries, r)
      | .error f => .error f
    match r.tokens with
    | .scalar text plain :: _ => .ok (.scalar (scalarTag written plain text) text, r.drop)
    | .flowSequenceStart :: _ => asSequence (readFlowItems true r.drop fuel)
    | .flowMappingStart :: _ => asMapping (readFlowEntries true r.drop fuel)
    | t :: _ =>
      if t = .blockEntry && dashes then asSequence (readDashes r fuel)
      else if t = .blockSequenceStart && block then asSequence (readItems r.drop fuel)
      else if t = .blockMappingStart && block then asMapping (readEntries r.drop fuel)
      else if anchored || written.isSome then .ok (.scalar (scalarTag written true "") "", r)
      else .error .unreadable
    | [] =>
      if anchored || written.isSome then .ok (.scalar (scalarTag written true "") "", r)
      else .error .unreadable

/-- A node, or an empty one where the next token is one of `stops` or there is none. -/
def readOptional (block dashes : Bool) (stops : List Token) (r : Reading) : Nat → Read Node
  | 0 => .error .unreadable
  | fuel + 1 => if r.isAt stops then .ok (.empty, r) else readNode block dashes r fuel

/-- The items of a sequence that is shown by indentation, up to its end. -/
def readItems (r : Reading) : Nat → Read (List Node)
  | 0 => .error .unreadable
  | fuel + 1 =>
    if r.isAt [.blockEntry] then
      match readOptional true false [.blockEntry, .blockEnd] r.drop fuel with
      | .error f => .error f
      | .ok (n, r) =>
        match readItems r fuel with
        | .ok (ns, r) => .ok (n :: ns, r)
        | .error f => .error f
    else if r.isAt [.blockEnd] then .ok ([], r.drop)
    else .error .unreadable

/-- The items of a sequence whose dashes stand below the key of the mapping around it. -/
def readDashes (r : Reading) : Nat → Read (List Node)
  | 0 => .error .unreadable
  | fuel + 1 =>
    if r.isAt [.blockEntry] then
      match readOptional true false [.blockEntry, .key, .value, .blockEnd] r.drop fuel with
      | .error f => .error f
      | .ok (n, r) =>
        match readDashes r fuel with
        | .ok (ns, r) => .ok (n :: ns, r)
        | .error f => .error f
    else .ok ([], r)

/-- The entries of a mapping that is shown by indentation, up to its end. -/
def readEntries (r : Reading) : Nat → Read (List (Node × Node))
  | 0 => .error .unreadable
  | fuel + 1 =>
    if r.isAt [.blockEnd] then .ok ([], r.drop)
    else if r.isAt [.key] then
      match readOptional true true [.key, .value, .blockEnd] r.drop fuel with
      | .error f => .error f
      | .ok (k, r) =>
        let value : Read Node :=
          if r.isAt [.value] then readOptional true true [.key, .value, .blockEnd] r.drop fuel
          else .ok (.empty, r)
        match value with
        | .error f => .error f
        | .ok (v, r) =>
          match readEntries r fuel with
          | .ok (es, r) => .ok ((k, v) :: es, r)
          | .error f => .error f
    else .error .unreadable

/-- The items of a sequence in brackets, up to its end. An item with a colon is a mapping of one
entry. -/
def readFlowItems (first : Bool) (r : Reading) : Nat → Read (List Node)
  | 0 => .error .unreadable
  | fuel + 1 =>
    let close := [Token.flowSequenceEnd]
    if r.isAt close then .ok ([], r.drop)
    else if !first && !r.isAt [.flowEntry] then .error .unreadable
    else
      let r := if first then r else r.drop
      if r.isAt close then .ok ([], r.drop)
      else
        let item : Read Node :=
          if r.isAt [.key] then
            match readOptional false false [.value, .flowEntry, .flowSequenceEnd] r.drop fuel with
            | .error f => .error f
            | .ok (k, r) =>
              let value : Read Node :=
                if r.isAt [.value] then
                  readOptional false false [.flowEntry, .flowSequenceEnd] r.drop fuel
                else .ok (.empty, r)
              match value with
              | .ok (v, r) => .ok (.mapping .map [(k, v)], r)
              | .error f => .error f
          else readNode false false r fuel
        match item with
        | .error f => .error f
        | .ok (n, r) =>
          match readFlowItems false r fuel with
          | .ok (ns, r) => .ok (n :: ns, r)
          | .error f => .error f

/-- The entries of a mapping in braces, up to its end. An entry without a colon has an empty
value. -/
def readFlowEntries (first : Bool) (r : Reading) : Nat → Read (List (Node × Node))
  | 0 => .error .unreadable
  | fuel + 1 =>
    let close := [Token.flowMappingEnd]
    if r.isAt close then .ok ([], r.drop)
    else if !first && !r.isAt [.flowEntry] then .error .unreadable
    else
      let r := if first then r else r.drop
      if r.isAt close then .ok ([], r.drop)
      else
        let entry : Read (Node × Node) :=
          if r.isAt [.key] then
            match readOptional false false [.value, .flowEntry, .flowMappingEnd] r.drop fuel with
            | .error f => .error f
            | .ok (k, r) =>
              let value : Read Node :=
                if r.isAt [.value] then
                  readOptional false false [.flowEntry, .flowMappingEnd] r.drop fuel
                else .ok (.empty, r)
              match value with
              | .ok (v, r) => .ok ((k, v), r)
              | .error f => .error f
          else
            match readNode false false r fuel with
            | .ok (k, r) => .ok ((k, .empty), r)
            | .error f => .error f
        match entry with
        | .error f => .error f
        | .ok (e, r) =>
          match readFlowEntries false r fuel with
          | .ok (es, r) => .ok (e :: es, r)
          | .error f => .error f

end

/-! ### The document -/

/-- The handles that every document has. -/
def standardHandles : Table String String := [("!", "!"), ("!!", standardHandle)]

/-- The directives in front of a document: the handles they define, and the tokens after them. -/
def readDirectives (versioned : Bool) (handles : Table String String) :
    List Token → Except Fault (Table String String × List Token)
  | .version major :: rest =>
    if versioned || major ≠ 1 then .error .unreadable else readDirectives true handles rest
  | .handle name meaning :: rest =>
    if Table.has name handles then .error .unreadable
    else readDirectives versioned ((name, meaning) :: handles) rest
  | .directive :: rest => readDirectives versioned handles rest
  | rest => .ok (handles, rest)

/-- Whether a token belongs to the frame of a document. -/
def isFrame : Token → Bool
  | .version _ | .handle _ _ | .directive | .documentStart | .documentEnd => true
  | _ => false

/-- The node of a document whose frame has been read. -/
def readDocument (handles : Table String String) (ts : List Token) :
    Except Fault (Node × List Token) :=
  match readNode true false ⟨ts, [], [], handles⟩ (4 * ts.length + 4) with
  | .ok (n, r) => .ok (n, r.tokens)
  | .error f => .error f

/-- Checks that nothing follows a document but its end marks. -/
def finished (n : Node) (ts : List Token) : Except Fault (Option Node) :=
  if (ts.dropWhile (· = .documentEnd)).isEmpty then .ok (some n) else .error .unreadable

/-- The node that a list of tokens forms; none if there is no document. -/
def Node.ofTokens (ts : List Token) : Except Fault (Option Node) :=
  match ts with
  | [] => .ok none
  | t :: _ =>
    if t = .documentEnd || !isFrame t then
      match readDocument standardHandles ts with
      | .ok (n, rest) => finished n rest
      | .error f => .error f
    else
      match readDirectives false [] ts with
      | .ok (handles, .documentStart :: rest) =>
        let handles := handles ++ standardHandles
        if rest.isEmpty || rest.head?.any isFrame then finished .empty rest
        else
          match readDocument handles rest with
          | .ok (n, rest) => finished n rest
          | .error f => .error f
      | .ok _ => .error .unreadable
      | .error f => .error f

end TextAdventure.Yaml
