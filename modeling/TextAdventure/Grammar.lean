import TextAdventure.Action.Basic
import TextAdventure.Pattern
import TextAdventure.Registry

/-!
# Grammars

A grammar is a list of verbs, each with the words that call it and its rules, together with the
resolvers of the symbols that the rules use. It is checked as a whole while it is loaded, so that
whatever is wrong with it comes to light before the game begins:

* every action that a rule names exists, can be called, and takes one value per symbol of the rule's
  pattern;
* every verb has at least one word, and all its words are texts;
* every symbol of every rule has a resolver.
-/

namespace TextAdventure

/-! ### Rules -/

/-- One accepted way to go on after a verb, and the action that it triggers. -/
structure Rule where
  pattern : String
  tokens : List Token
  action : Action
  /-- What the action is called in this grammar. -/
  label : Document

namespace Rule

/-- The names of the symbols in a rule's pattern, in order. -/
def symbols (r : Rule) : List String := Pattern.symbolsOf r.tokens

/-- The rule of a pattern and an action. The action is called by the given name, or by its own if
that is empty. -/
def make (pattern : Document) (binding : Binding) (name : Document) : Except Fault Rule := do
  let pattern ← Pattern.ofDocument pattern
  let label := name.orElse binding.label
  match binding with
  | .other _ => .error (.misfit (.notCallable pattern label.shown))
  | .action action =>
    let rule : Rule := ⟨pattern, Pattern.compile pattern, action, label⟩
    match action.signature with
    | none => return rule
    | some signature =>
      if signature.accepts rule.symbols.length then return rule
      else .error (.misfit (.arity pattern rule.symbols.length label.shown signature.quoted))

/-- A rule in a message. -/
def quoted (r : Rule) : String := "Rule(" ++ Text.quoted r.pattern ++ ", " ++ r.label.shown ++ ")"

end Rule

/-! ### Verbs -/

/-- The words that call a verb, in lower case, and its rules in order. -/
structure Verb where
  words : List String
  rules : List Rule

namespace Verb

/-- The verb of some words and rules. -/
def ofWords (words : List Document) (rules : List Rule) : Except Fault Verb := do
  let words ← Document.texts (fun d => .misfit (.verbWord d)) words
  match words with
  | [] => .error (.misfit .verbWithoutWords)
  | ws => return ⟨ws.map Text.lower, rules⟩

/-- The verb of the words that are the parts of a document. -/
def make (words : Document) (rules : List Rule) : Except Fault Verb := do
  ofWords (← words.parts) rules

/-- Whether a word calls the verb. -/
def isCalled (v : Verb) (word : String) : Bool := v.words.contains word

/-- A verb in a message. -/
def quoted (v : Verb) : String :=
  "Verb(" ++ (Document.ofTexts v.words).quoted ++ ", " ++ counted v.rules.length ++ " rules)"

end Verb

/-! ### Grammars -/

/-- The verbs of a game and the resolvers of its symbols. -/
structure Grammar where
  verbs : List Verb
  registry : Registry

namespace Grammar

/-- Adds a name to a list of missing symbols, unless it is registered or listed. -/
def addMissing (registry : Registry) (missing : List String) (name : String) : List String :=
  if registry.knows name || missing.contains name then missing else missing ++ [name]

/-- The symbols that some rules use without a resolver for them. -/
def missingIn (registry : Registry) (missing : List String) (rules : List Rule) : List String :=
  rules.foldl (fun missing r => r.symbols.foldl (addMissing registry) missing) missing

/-- The symbols that the verbs use without a resolver for them, each once, in order of first use. -/
def missing (verbs : List Verb) (registry : Registry) : List String :=
  verbs.foldl (fun missing v => missingIn registry missing v.rules) []

/-- The grammar of some verbs and resolvers, if no symbol is missing. -/
def make (verbs : List Verb) (registry : Registry) : Except Fault Grammar :=
  match missing verbs registry with
  | [] => .ok ⟨verbs, registry⟩
  | names => .error (.misfit (.missingSymbols names))

/-- The verbs that a word calls, with their numbers in the grammar, from a number on. -/
def calledFrom (word : String) (number : Nat) : List Verb → List (Nat × Verb)
  | [] => []
  | v :: vs =>
    if v.isCalled word then (number, v) :: calledFrom word (number + 1) vs
    else calledFrom word (number + 1) vs

/-- The verbs that a word calls, with their numbers in the grammar, in order. -/
def verbsFor (g : Grammar) (word : String) : List (Nat × Verb) := calledFrom word 0 g.verbs

/-! ### Reading a grammar -/

/-- The words of a verb's document: a lone text is a list of one, an empty field a list of none. -/
def wordsIn (verb : Nat) (field : Document) : Except Fault (List Document) :=
  if field.isEmpty then .ok []
  else match field with
    | .text s => .ok [.text s]
    | .list items => .ok items
    | d => .error (.misfit (.verbWordsShape verb d))

/-- The rule in an entry of a verb's rules. -/
def ruleOf (actions : Actions) (verb : Nat) (words : Document) (d : Document) :
    Except Fault Rule := do
  match d with
  | .mapping fields =>
    let name := Document.field "action" fields
    match ← actions.find name with
    | none => .error (.misfit (.unknownAction verb words name))
    | some binding =>
      Rule.make ((Document.field? "pattern" fields).getD (.text "")) binding name
  | _ => .error (.misfit (.ruleShape verb words))

/-- The rules in the entries of a verb's rules. -/
def rulesOf (actions : Actions) (verb : Nat) (words : Document) :
    List Document → Except Fault (List Rule)
  | [] => .ok []
  | d :: ds => do
    let r ← ruleOf actions verb words d
    let rs ← rulesOf actions verb words ds
    return r :: rs

/-- The verb in an entry of a grammar's verbs, counted from one. -/
def verbOf (actions : Actions) (number : Nat) (d : Document) : Except Fault Verb := do
  match d with
  | .mapping fields =>
    let words ← wordsIn number (Document.field "words" fields)
    let entries ← ((Document.field "rules" fields).orElse (.list [])).parts
    let rules ← rulesOf actions number (.list words) entries
    Verb.ofWords words rules
  | _ => .error (.misfit (.verbShape number))

/-- The verbs in the entries of a grammar's verbs, counted from `number`. -/
def verbsOf (actions : Actions) (number : Nat) : List Document → Except Fault (List Verb)
  | [] => .ok []
  | d :: ds => do
    let v ← verbOf actions number d
    let vs ← verbsOf actions (number + 1) ds
    return v :: vs

/-- The grammar that a document describes. Its actions are looked up by name; its symbols may refer
to the objects of a world, if there is one. -/
def ofDocument (data : Document) (actions : Actions) (world : Option World) :
    Except Fault Grammar := do
  match data with
  | .mapping fields =>
    let registry ← Registry.ofDocument (Document.field "symbols" fields) world
    let entries ← ((Document.field "verbs" fields).orElse (.list [])).parts
    let verbs ← verbsOf actions 1 entries
    make verbs registry
  | _ => .error (.misfit .grammarShape)

end Grammar

end TextAdventure
