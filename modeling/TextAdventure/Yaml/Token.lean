import TextAdventure.Yaml.Scalar

/-!
# Tokens

A document file is cut into tokens: scalars, the marks of collections, anchors, aliases, tags and
the separators of documents. Two kinds of tokens are not written in the file. A collection that is
shown by indentation begins with the first token of its column and ends before the first token to
the left of it; the tokens that open and close it are put there by the lexer. And a key is mostly
recognized only when the colon after it is met, so the lexer remembers for each level of brackets
where a key may have begun (`TextAdventure.Yaml.KeyStart`), and puts the token `key` there when the
colon comes.

Where such a memory is *required* – the first token of a line in a mapping that is shown by
indentation can only be a key – and no colon comes in time, the file is no document.
-/

namespace TextAdventure.Yaml

/-- A piece of a document file. -/
inductive Token where
  /-- A directive that names the version of the format by its major number. -/
  | version (major : Nat)
  /-- A directive that gives a handle for tags its meaning. -/
  | handle (name meaning : String)
  /-- Any other directive. -/
  | directive
  | documentStart
  | documentEnd
  | blockSequenceStart
  | blockMappingStart
  | blockEnd
  | flowSequenceStart
  | flowSequenceEnd
  | flowMappingStart
  | flowMappingEnd
  | blockEntry
  | flowEntry
  | key
  | value
  | alias (name : String)
  | anchor (name : String)
  /-- A tag: its handle, unless it is written out in full, and the rest of it. -/
  | tag (handle : Option String) (rest : String)
  | scalar (text : String) (plain : Bool)
  deriving DecidableEq

/-- A place where a key may have begun. -/
structure KeyStart where
  /-- The number of tokens before the key. -/
  token : Nat
  /-- Whether the token there can only be a key. -/
  required : Bool
  index : Nat
  line : Nat
  column : Nat

/-- How far the lexer has come. -/
structure Lexer where
  source : Source
  /-- The tokens so far. -/
  tokens : Array Token
  /-- The number of brackets that are open. -/
  flow : Int
  /-- The column of the innermost open collection that is shown by indentation, -1 if there is
  none. -/
  indent : Int
  /-- The columns of the collections around it. -/
  outer : List Int
  /-- Whether a key may begin at the next token. -/
  keyAllowed : Bool
  /-- For each level of brackets, where a key may have begun. -/
  keys : List (Int × KeyStart)

/-- A step of the lexer. -/
abbrev Lexing := Except Fault Lexer

namespace Lexer

/-- The lexer at the beginning of a text. -/
def start (cs : List Char) : Lexer :=
  ⟨⟨cs, 0, 0, 0⟩, #[], 0, -1, [], true, []⟩

/-- Appends a token. -/
def push (l : Lexer) (t : Token) : Lexer := { l with tokens := l.tokens.push t }

/-- Passes `n` characters and appends a token. -/
def passAs (l : Lexer) (n : Nat) (t : Token) : Lexer :=
  { l.push t with source := l.source.skipMany n }

/-- Whether nothing but indentation shows the nesting here. -/
def inBlock (l : Lexer) : Bool := l.flow == 0

/-! ### Where keys may have begun -/

/-- Forgets the places where a key can no longer have begun: on an earlier line or more than 1024
characters ago. -/
def dropStaleKeys (l : Lexer) : Lexing :=
  let isStale (k : KeyStart) : Bool := k.line ≠ l.source.line || l.source.index - k.index > 1024
  if l.keys.any fun k => isStale k.2 && k.2.required then .error .unreadable
  else .ok { l with keys := l.keys.filter fun k => !isStale k.2 }

/-- Forgets where a key may have begun at this level of brackets. -/
def forgetKey (l : Lexer) : Lexing :=
  if l.keys.any fun k => k.1 == l.flow && k.2.required then .error .unreadable
  else .ok { l with keys := l.keys.filter fun k => k.1 != l.flow }

/-- Remembers that a key may begin here, if one may. -/
def rememberKey (l : Lexer) : Lexing :=
  if l.keyAllowed then
    match l.forgetKey with
    | .error f => .error f
    | .ok l =>
      let required := l.inBlock && l.indent == (l.source.column : Int)
      let k : KeyStart :=
        ⟨l.tokens.size, required, l.source.index, l.source.line, l.source.column⟩
      .ok { l with keys := (l.flow, k) :: l.keys }
  else .ok l

/-! ### Collections that are shown by indentation -/

/-- Closes the collections indented further than a column, at most `fuel` of them. -/
def unwind (l : Lexer) (column : Int) : Nat → Lexer
  | 0 => l
  | fuel + 1 =>
    if l.inBlock && l.indent > column then
      let l := l.push .blockEnd
      match l.outer with
      | [] => { l with indent := -1 }
      | i :: is => unwind { l with indent := i, outer := is } column fuel
    else l

/-- Closes the collections indented further than a column. -/
def unwindTo (l : Lexer) (column : Int) : Lexer := l.unwind column l.outer.length.succ

/-- Opens a collection at a column, if it is further to the right than the innermost one. The token
is put before the token of number `place`. -/
def openAt (l : Lexer) (column : Nat) (place : Nat) (t : Token) : Lexer :=
  if l.indent < (column : Int) then
    { l with
      indent := column
      outer := l.indent :: l.outer
      tokens := l.tokens.insertIdxIfInBounds place t }
  else l

/-! ### Marks -/

/-- A separator of documents. -/
def separator (l : Lexer) (t : Token) : Lexing :=
  match (l.unwindTo (-1)).forgetKey with
  | .error f => .error f
  | .ok l => .ok { l.passAs 3 t with keyAllowed := false }

/-- An opening bracket. -/
def openBracket (l : Lexer) (t : Token) : Lexing :=
  match l.rememberKey with
  | .error f => .error f
  | .ok l => .ok { l.passAs 1 t with flow := l.flow + 1, keyAllowed := true }

/-- A closing bracket. -/
def closeBracket (l : Lexer) (t : Token) : Lexing :=
  match l.forgetKey with
  | .error f => .error f
  | .ok l => .ok { l.passAs 1 t with flow := l.flow - 1, keyAllowed := false }

/-- A comma. -/
def comma (l : Lexer) : Lexing :=
  match l.forgetKey with
  | .error f => .error f
  | .ok l => .ok { l.passAs 1 .flowEntry with keyAllowed := true }

/-- A dash or a question mark that opens an item or a key. In a block, where no key may begin none
of these may stand either. -/
def indicator (l : Lexer) (t opening : Token) (keyAllowed : Bool) : Lexing :=
  if l.inBlock && !l.keyAllowed then .error .unreadable
  else
    let l := if l.inBlock then l.openAt l.source.column l.tokens.size opening else l
    match l.forgetKey with
    | .error f => .error f
    | .ok l => .ok { l.passAs 1 t with keyAllowed := keyAllowed }

/-- A colon. If a key may have begun at this level, it did; else the key is empty. -/
def colon (l : Lexer) : Lexing :=
  match l.keys.find? fun k => k.1 == l.flow with
  | some (_, k) =>
    let l := { l with
      keys := l.keys.filter fun k => k.1 != l.flow
      tokens := l.tokens.insertIdxIfInBounds k.token .key }
    let l := if l.inBlock then l.openAt k.column k.token .blockMappingStart else l
    .ok { l.passAs 1 .value with keyAllowed := false }
  | none => l.indicator .value .blockMappingStart l.inBlock

/-! ### Names and tags -/

/-- A name after an asterisk or an ampersand. -/
def named (l : Lexer) (token : String → Token) : Lexing :=
  match l.rememberKey with
  | .error f => .error f
  | .ok l =>
    let (name, s) := l.source.skip.takeWhile isNameChar
    let c := s.peek
    if name.isEmpty || !(endsWord c || "?:,]\x7d%@`".toList.contains c) then .error .unreadable
    else .ok { l.push (token (String.ofList name)) with source := s, keyAllowed := false }

/-- Whether a character may stand in a tag. -/
def isTagChar (c : Char) : Bool := isNameChar c || ";/?:@&=+$,.!~*'()[]%".toList.contains c

/-- Bytes written as percent signs with two hexadecimal digits, and the text after them. -/
def percentBytes : List Char → Option (List UInt8 × List Char)
  | '%' :: a :: b :: cs =>
    match Decimal.readNat? 16 [a, b], percentBytes cs with
    | some n, some (bytes, rest) => some (n.toUInt8 :: bytes, rest)
    | _, _ => none
  | '%' :: _ => none
  | cs => some ([], cs)

/-- The text of a tag with its percent signs resolved. -/
def percentDecoded (cs : List Char) : Nat → Option (List Char)
  | 0 => some []
  | fuel + 1 =>
    match cs with
    | [] => some []
    | '%' :: _ =>
      match percentBytes cs with
      | some (bytes, rest) =>
        match String.fromUTF8? ⟨bytes.toArray⟩, percentDecoded rest fuel with
        | some s, some more => some (s.toList ++ more)
        | _, _ => none
      | none => none
    | c :: rest => (percentDecoded rest fuel).map (c :: ·)

/-- The characters of a tag, at least one. -/
def tagText (s : Source) : Scanned String :=
  let (cs, s) := s.takeWhile isTagChar
  match percentDecoded cs cs.length with
  | some text => if cs.isEmpty then .error .unreadable else .ok (String.ofList text, s)
  | none => .error .unreadable

/-- The handle of a tag: an exclamation mark, or a name between two of them. -/
def tagHandle (s : Source) : Scanned String :=
  let (name, after) := s.skip.takeWhile isNameChar
  if s.peek ≠ '!' then .error .unreadable
  else if s.peekAt 1 = ' ' then .ok ("!", s.skip)
  else if after.peek = '!' then .ok (String.ofList ('!' :: name ++ ['!']), after.skip)
  else .error .unreadable

/-- A tag. -/
def tag (s : Source) : Scanned Token :=
  let finish (token : Token) (s : Source) : Scanned Token :=
    if endsField s.peek then .ok (token, s) else .error .unreadable
  let c := s.peekAt 1
  if c = '<' then
    match tagText (s.skipMany 2) with
    | .error f => .error f
    | .ok (text, s) =>
      if s.peek = '>' then finish (.tag none text) s.skip else .error .unreadable
  else if endsWord c then finish (.tag none "!") s.skip
  else
    let handled := (s.skip.rest.takeWhile fun d => !endsField d).contains '!'
    match (if handled then tagHandle s else .ok ("!", s.skip)) with
    | .error f => .error f
    | .ok (handle, s) =>
      match tagText s with
      | .error f => .error f
      | .ok (text, s) => finish (.tag (some handle) text) s

/-- A tag, as a token. -/
def tagged (l : Lexer) : Lexing :=
  match l.rememberKey with
  | .error f => .error f
  | .ok l =>
    match tag l.source with
    | .error f => .error f
    | .ok (t, s) => .ok { l.push t with source := s, keyAllowed := false }

/-! ### Directives -/

/-- Digits, at least one. -/
def digitsOf (s : Source) : Scanned Nat :=
  let (ds, s) := s.takeWhile Char.isDigit
  match Decimal.readNat? 10 ds with
  | some n => .ok (n, s)
  | none => .error .unreadable

/-- The version after a directive's name. -/
def versionOf (s : Source) : Scanned Token :=
  match digitsOf (s.skipWhile (· = ' ')) with
  | .error f => .error f
  | .ok (major, s) =>
    if s.peek ≠ '.' then .error .unreadable
    else match digitsOf s.skip with
      | .error f => .error f
      | .ok (_, s) => if endsField s.peek then .ok (.version major, s) else .error .unreadable

/-- The handle after a directive's name, and its meaning. -/
def handleOf (s : Source) : Scanned Token :=
  match tagHandle (s.skipWhile (· = ' ')) with
  | .error f => .error f
  | .ok (name, s) =>
    if s.peek ≠ ' ' then .error .unreadable
    else match tagText (s.skipWhile (· = ' ')) with
      | .error f => .error f
      | .ok (text, s) =>
        if endsField s.peek then .ok (.handle name text, s) else .error .unreadable

/-- A directive; the source is at its percent sign. -/
def directiveOf (s : Source) : Scanned Token :=
  let (name, s) := s.skip.takeWhile isNameChar
  if name.isEmpty || !endsField s.peek then .error .unreadable
  else
    let body :=
      if name = "YAML".toList then versionOf s
      else if name = "TAG".toList then handleOf s
      else .ok (.directive, s.skipWhile fun c => !endsLine c)
    match body with
    | .error f => .error f
    | .ok (t, s) =>
      match ignoredLine s with
      | .error f => .error f
      | .ok s => .ok (t, s)

/-- A directive, as a token. -/
def directed (l : Lexer) : Lexing :=
  match (l.unwindTo (-1)).forgetKey with
  | .error f => .error f
  | .ok l =>
    match directiveOf l.source with
    | .error f => .error f
    | .ok (t, s) => .ok { l.push t with source := s, keyAllowed := false }

/-! ### Scalars -/

/-- A block scalar, as a token. No key can be written as a block. -/
def block (l : Lexer) (folded : Bool) : Lexing :=
  match l.forgetKey with
  | .error f => .error f
  | .ok l =>
    match blockScalar folded l.indent l.source with
    | .error f => .error f
    | .ok (cs, s) =>
      .ok { l.push (.scalar (String.ofList cs) false) with source := s, keyAllowed := true }

/-- A quoted scalar, as a token. -/
def quotedText (l : Lexer) (double : Bool) : Lexing :=
  match l.rememberKey with
  | .error f => .error f
  | .ok l =>
    match quotedScalar double l.source with
    | .error f => .error f
    | .ok (cs, s) =>
      .ok { l.push (.scalar (String.ofList cs) false) with source := s, keyAllowed := false }

/-- A plain scalar, as a token. After one whose last line has ended a key may begin. -/
def plain (l : Lexer) : Lexing :=
  match l.rememberKey with
  | .error f => .error f
  | .ok l =>
    let (cs, ended, s) :=
      plainBody (!l.inBlock) (l.indent + 1) [] false l.source l.source.rest.length.succ
    .ok { l.push (.scalar (String.ofList cs) true) with source := s, keyAllowed := ended }

/-- Whether a plain scalar may begin here. -/
def plainMayBegin (l : Lexer) : Bool :=
  let c := l.source.peek
  if c = '-' then !endsWord (l.source.peekAt 1)
  else if c = '?' || c = ':' then l.inBlock && !endsWord (l.source.peekAt 1)
  else !endsWord c && !",[]\x7b\x7d#&*!|>'\"%@`".toList.contains c

/-! ### The whole text -/

/-- Passes spaces, comments and line ends before the next token. After a line end outside brackets a
key may begin. -/
def toNextToken (l : Lexer) : Nat → Lexer
  | 0 => l
  | fuel + 1 =>
    let s := l.source.skipWhile (· = ' ')
    let s := if s.peek = '#' then s.skipWhile (fun c => !endsLine c) else s
    if isBreak s.peek then
      toNextToken { l with source := s.lineBreak.2, keyAllowed := l.keyAllowed || l.inBlock } fuel
    else { l with source := s }

/-- Reads the token at which the source is. -/
def next (l : Lexer) : Lexing :=
  let s := l.source
  let c := s.peek
  let spaced := endsWord (s.peekAt 1)
  if s.column = 0 && c = '%' then l.directed
  else if s.column = 0 && s.atMarker '-' then l.separator .documentStart
  else if s.column = 0 && s.atMarker '.' then l.separator .documentEnd
  else if c = '[' then l.openBracket .flowSequenceStart
  else if c = '\x7b' then l.openBracket .flowMappingStart
  else if c = ']' then l.closeBracket .flowSequenceEnd
  else if c = '\x7d' then l.closeBracket .flowMappingEnd
  else if c = ',' then l.comma
  else if c = '-' && spaced then l.indicator .blockEntry .blockSequenceStart true
  else if c = '?' && (!l.inBlock || spaced) then l.indicator .key .blockMappingStart l.inBlock
  else if c = ':' && (!l.inBlock || spaced) then l.colon
  else if c = '*' then l.named .alias
  else if c = '&' then l.named .anchor
  else if c = '!' then l.tagged
  else if c = '|' && l.inBlock then l.block false
  else if c = '>' && l.inBlock then l.block true
  else if c = '\'' then l.quotedText false
  else if c = '"' then l.quotedText true
  else if l.plainMayBegin then l.plain
  else .error .unreadable

/-- Reads all tokens. -/
def run (l : Lexer) : Nat → Lexing
  | 0 => .error .unreadable
  | fuel + 1 =>
    match (l.toNextToken l.source.rest.length.succ).dropStaleKeys with
    | .error f => .error f
    | .ok l =>
      let l := l.unwindTo l.source.column
      if l.source.rest.isEmpty then (l.unwindTo (-1)).forgetKey
      else match l.next with
        | .error f => .error f
        | .ok l => run l fuel

end Lexer

/-- The tokens of a text. A byte order mark in front is passed. -/
def tokens (cs : List Char) : Except Fault (List Token) :=
  if !cs.all isAllowed then .error .unreadable
  else
    let cs := match cs with
      | '\uFEFF' :: rest => rest
      | _ => cs
    match (Lexer.start cs).run cs.length.succ with
    | .ok l => .ok l.tokens.toList
    | .error f => .error f

end TextAdventure.Yaml
