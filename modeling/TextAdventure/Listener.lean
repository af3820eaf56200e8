import TextAdventure.Command
import TextAdventure.Match

/-!
# Listening to commands

The listener maps a command to the first rule that fits it and runs the rule's action. The first
word of the command calls the verbs; their rules are tried in the order in which they were declared,
each from the word after the verb on, until one matches. The listener never prints and never changes
the world.

What the listener made of a command is an interpretation: the words of the command, every rule that
was tried with its verdict, and how it ended. Finding the rule (`TextAdventure.Listener.choose`) is
kept apart from running its action, so that a rule's action runs once and only if the rule was
chosen. How an action is performed is left to the caller (`TextAdventure.Listener.interpretWith`): a
game runs it, and one that keeps a log also writes it down.
-/

namespace TextAdventure

/-- A rule that was chosen: the number of its verb, the rule, and the values of its symbols. -/
structure Choice where
  verb : Nat
  rule : Rule
  params : List Value

/-- Why no rule was chosen. -/
inductive NoChoice where
  | emptyInput
  | unknownVerb
  | noRuleMatched

/-- The word for why no rule was chosen. -/
def NoChoice.reason : NoChoice → String
  | .emptyInput => "empty_input"
  | .unknownVerb => "unknown_verb"
  | .noRuleMatched => "no_rule_matched"

/-- How listening to a command ended. -/
inductive Conclusion where
  /-- A rule was chosen, and its action returned a reply. -/
  | matched (choice : Choice) (reply : Reply)
  | unmatched (cause : NoChoice)

/-- What the listener made of a command. -/
structure Interpretation where
  command : Document
  words : List String
  /-- The rules that were tried, in order. -/
  trace : List Attempt
  conclusion : Conclusion

namespace Interpretation

/-- Whether a rule was chosen. -/
def isMatched (i : Interpretation) : Bool :=
  match i.conclusion with
  | .matched _ _ => true
  | .unmatched _ => false

/-- An interpretation in a message. -/
def quoted (i : Interpretation) : String :=
  match i.conclusion with
  | .matched choice _ =>
    "Interpretation(" ++ i.command.quoted ++ ", rule=" ++ Text.quoted choice.rule.pattern ++ ")"
  | .unmatched cause =>
    "Interpretation(" ++ i.command.quoted ++ ", failed=" ++ Text.quoted cause.reason ++ ")"

end Interpretation

/-- A listener: its grammar, the articles it leaves out of commands, and what it says to a command
that it does not understand. -/
structure Listener where
  grammar : Grammar
  articles : List Document
  notUnderstood : Document

namespace Listener

/-- What a listener says to a command that it does not understand, unless a game says otherwise. -/
def defaultNotUnderstood : String := "I don't understand."

/-- The articles in a document: the words of a text, the parts of anything else. -/
def articlesIn : Document → Except Fault (List Document)
  | .text s => .ok ((Text.words s).map .text)
  | d => d.parts

/-- The listener of a grammar. -/
def make (grammar : Grammar) (articles notUnderstood : Document) : Except Fault Listener :=
  match articlesIn articles with
  | .ok articles => .ok ⟨grammar, articles, notUnderstood⟩
  | .error f => .error f

/-- The rules of some verbs in order, each with the number of its verb. -/
def rulesOf (verbs : List (Nat × Verb)) : List (Nat × Rule) :=
  verbs.flatMap fun v => v.2.rules.map fun r => (v.1, r)

/-- Tries rules in order until one matches: the attempts made, and the rule that matched. -/
def tryRules (resolves : String → Option Resolve) (input : List Document) :
    List (Nat × Rule) → Except Fault (List Attempt × Option Choice)
  | [] => .ok ([], none)
  | (number, r) :: rest =>
    match r.attempt resolves input 1 with
    | .error f => .error f
    | .ok a =>
      match a.verdict with
      | .matched params => .ok ([a], some ⟨number, r, params⟩)
      | .failed _ _ =>
        match tryRules resolves input rest with
        | .error f => .error f
        | .ok (trace, choice) => .ok (a :: trace, choice)

/-- The rules that are tried for a command's words, and the one that is chosen or why none is. -/
def choose (l : Listener) (world : Option World) (words : List String) :
    Except Fault (List Attempt × Except NoChoice Choice) :=
  match words with
  | [] => .ok ([], .error .emptyInput)
  | word :: _ =>
    match l.grammar.verbsFor word with
    | [] => .ok ([], .error .unknownVerb)
    | verbs =>
      match tryRules (l.grammar.registry.resolves world) (words.map .text) (rulesOf verbs) with
      | .error f => .error f
      | .ok (trace, some choice) => .ok (trace, .ok choice)
      | .ok (trace, none) => .ok (trace, .error .noRuleMatched)

section Performing

variable {m : Type → Type} [Monad m] [MonadExceptOf Fault m]

/-- Has the action of the rule that was chosen performed, if one was chosen. -/
def concludeWith (perform : Action → List Value → m Reply) : Except NoChoice Choice → m Conclusion
  | .error cause => return .unmatched cause
  | .ok choice => return .matched choice (← perform choice.rule.action choice.params)

/-- Interprets a command in a world: finds the first rule that fits, and has its action
performed. -/
def interpretWith (perform : Action → List Value → m Reply) (l : Listener) (world : Option World)
    (command : Document) : m Interpretation := do
  let words ← liftExcept (Command.normalize command l.articles)
  let (trace, choice) ← liftExcept (l.choose world words)
  let conclusion ← concludeWith perform choice
  return ⟨command, words, trace, conclusion⟩

end Performing

/-- Interprets a command in a world: finds the first rule that fits, and runs its action. -/
def interpret (l : Listener) (world : Option World) (command : Document) :
    Except Fault Interpretation :=
  l.interpretWith Action.run world command

/-- What the player is answered: the reply of the action, or that the command was not understood. -/
def answer (l : Listener) (i : Interpretation) : Reply :=
  match i.conclusion with
  | .matched _ reply => reply
  | .unmatched _ => .value (.document l.notUnderstood)

/-- Interprets a command and answers the player. -/
def parse (l : Listener) (world : Option World) (command : Document) : Except Fault Reply := do
  return l.answer (← l.interpret world command)

end Listener

end TextAdventure
