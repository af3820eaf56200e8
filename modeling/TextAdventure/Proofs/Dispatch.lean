import Mathlib.Data.List.TakeWhile
import TextAdventure.Listener
import TextAdventure.Proofs.Reading

/-!
# First match

Which rule a command triggers, said without a search. The rules that compete for a command are those
of the verbs that its first word calls, verb by verb in the order of declaration
(`TextAdventure.Listener.candidates`). Each of them can be tried on its own
(`TextAdventure.Listener.tried`); the listener's trace is the list of these attempts, cut just after
the first that is not a failure, and the rule it chooses is the first that matches.

What an interpretation does besides is to call an action. To speak of calls, the interpretation is
performed with a log (`TextAdventure.Listener.logged`), in which every call of an action is written
down with its values before the action runs. The log changes nothing in the interpretation
(`TextAdventure.Listener.logged_fst`), and it comes out with one call if a rule was chosen and empty
otherwise (`TextAdventure.Listener.logged_first_match`).
-/

namespace TextAdventure

/-! ### Actions with a log -/

/-- A call of an action with some values. -/
structure Call where
  action : Action
  params : List Value

/-- Operations that may fail and keep a log of the calls they make. -/
abbrev Logged := ExceptT Fault (StateM (List Call))

/-- Writes the call of an action down, and runs the action. -/
def Action.runLogged (a : Action) (params : List Value) : Logged Reply := do
  modify (· ++ [⟨a, params⟩])
  liftExcept (a.run params)

namespace Listener

/-- Interprets a command with a log: the interpretation, and the calls of actions it made. -/
def logged (l : Listener) (world : Option World) (command : Document) :
    Except Fault Interpretation × List Call :=
  Id.run ((l.interpretWith Action.runLogged world command).run.run [])

variable {l : Listener} {world : Option World} {command : Document} {ws : List String}
  {trace : List Attempt}

/-- An interpretation whose rule is found: what remains to be done is the action. -/
theorem interpretWith_of_choose {m : Type → Type} [Monad m] [LawfulMonad m] [MonadExceptOf Fault m]
    (perform : Action → List Value → m Reply) {choice : Except NoChoice Choice}
    (h : Command.normalize command l.articles = .ok ws)
    (hchoose : l.choose world ws = .ok (trace, choice)) :
    l.interpretWith perform world command = do
      let conclusion ← concludeWith perform choice
      return ⟨command, ws, trace, conclusion⟩ := by
  rw [interpretWith, h]
  simp only [liftExcept, pure_bind, hchoose]

/-- If no words can be found in a command, no action is called. -/
theorem logged_of_normalize_error {f : Fault}
    (h : Command.normalize command l.articles = .error f) :
    l.logged world command = (.error f, []) := by
  rw [logged, interpretWith, h]
  rfl

/-- If a rule cannot be tried, no action is called. -/
theorem logged_of_choose_error {f : Fault} (h : Command.normalize command l.articles = .ok ws)
    (hchoose : l.choose world ws = .error f) : l.logged world command = (.error f, []) := by
  rw [logged, interpretWith, h]
  simp only [liftExcept, pure_bind, hchoose]
  rfl

/-- If no rule is chosen, no action is called. -/
theorem logged_of_unmatched {cause : NoChoice} (h : Command.normalize command l.articles = .ok ws)
    (hchoose : l.choose world ws = .ok (trace, .error cause)) :
    l.logged world command = (.ok ⟨command, ws, trace, .unmatched cause⟩, []) := by
  rw [logged, interpretWith_of_choose _ h hchoose]
  rfl

/-- If a rule is chosen, its action is called once, whether it succeeds or fails. -/
theorem logged_of_matched {choice : Choice} (h : Command.normalize command l.articles = .ok ws)
    (hchoose : l.choose world ws = .ok (trace, .ok choice)) :
    l.logged world command =
      ((choice.rule.action.run choice.params).map fun reply =>
          ⟨command, ws, trace, .matched choice reply⟩,
        [⟨choice.rule.action, choice.params⟩]) := by
  rw [logged, interpretWith_of_choose _ h hchoose]
  cases hrun : choice.rule.action.run choice.params with
  | error f =>
    simp only [concludeWith, Action.runLogged, hrun]
    rfl
  | ok reply =>
    simp only [concludeWith, Action.runLogged, hrun]
    rfl

variable (l world command) in
/-- **The log changes nothing**: an interpretation with a log is the interpretation. -/
theorem logged_fst : (l.logged world command).1 = l.interpret world command := by
  cases h : Command.normalize command l.articles with
  | error f =>
    rw [logged_of_normalize_error h, interpret, interpretWith, h]
    rfl
  | ok ws =>
    cases hchoose : l.choose world ws with
    | error f =>
      rw [logged_of_choose_error h hchoose, interpret, interpretWith, h]
      simp only [liftExcept, pure_bind, hchoose]
      rfl
    | ok found =>
      obtain ⟨trace, cause | choice⟩ := found
      · rw [logged_of_unmatched h hchoose, interpret, interpretWith_of_choose _ h hchoose]
        rfl
      · rw [logged_of_matched h hchoose, interpret, interpretWith_of_choose _ h hchoose,
          concludeWith]
        cases choice.rule.action.run choice.params <;> rfl

variable (l world command) in
/-- What the player is answered is taken from the interpretation. -/
theorem parse_eq : l.parse world command = (l.logged world command).1.map l.answer := by
  rw [parse, logged_fst]
  cases l.interpret world command <;> rfl

end Listener

/-! ### Competing rules -/

/-- The rules that a word calls, each with the number of its verb: those of the verbs that have the
word, verb by verb in the order of declaration. -/
def Grammar.rulesCalled (g : Grammar) (word : String) : List (ℕ × Rule) :=
  (g.verbs.zipIdx.filter fun v => word ∈ v.1.words).flatMap fun v => v.1.rules.map (v.2, ·)

/-- All the symbols that some verbs use, in order, as often as they are used. -/
def Grammar.symbolsUsed (verbs : List Verb) : List String :=
  verbs.flatMap fun v => v.rules.flatMap Rule.symbols

/-- Why a grammar has no rule for some words, none of its rules having matched. -/
def Grammar.excuse (g : Grammar) : List String → NoChoice
  | [] => .emptyInput
  | word :: _ => if ∃ v ∈ g.verbs, word ∈ v.words then .noRuleMatched else .unknownVerb

@[simp] theorem Verb.isCalled_eq (v : Verb) (word : String) :
    v.isCalled word = decide (word ∈ v.words) := by
  rw [isCalled, Bool.eq_iff_iff, List.contains_iff_mem, decide_eq_true_iff]

namespace Grammar

variable {g : Grammar}

theorem calledFrom_eq (word : String) (number : ℕ) (verbs : List Verb) :
    calledFrom word number verbs =
      ((verbs.zipIdx number).filter fun v => word ∈ v.1.words).map Prod.swap := by
  induction verbs generalizing number with
  | nil => rfl
  | cons v vs ih =>
    rw [calledFrom, ih, List.zipIdx_cons, List.filter_cons, Verb.isCalled_eq]
    by_cases hw : word ∈ v.words
    · simp [hw]
    · simp [hw]

theorem rulesOf_verbsFor (word : String) :
    Listener.rulesOf (g.verbsFor word) = g.rulesCalled word := by
  rw [Listener.rulesOf, verbsFor, calledFrom_eq, List.flatMap_map]
  rfl

theorem calledFrom_eq_nil_iff (word : String) (number : ℕ) (verbs : List Verb) :
    calledFrom word number verbs = [] ↔ ∀ v ∈ verbs, word ∉ v.words := by
  induction verbs generalizing number with
  | nil => simp [calledFrom]
  | cons v vs ih =>
    rw [calledFrom, Verb.isCalled_eq, List.forall_mem_cons]
    by_cases hw : word ∈ v.words
    · simp [hw]
    · simp [hw, ih]

/-- The rules that a word calls are rules of the grammar. -/
theorem mem_rulesCalled {word : String} {c : ℕ × Rule}
    (h : c ∈ g.rulesCalled word) : ∃ v ∈ g.verbs, c.2 ∈ v.rules := by
  obtain ⟨v, hv, hc⟩ := List.mem_flatMap.mp h
  obtain ⟨r, hr, rfl⟩ := List.mem_map.mp hc
  exact ⟨v.1, List.fst_mem_of_mem_zipIdx (List.mem_of_mem_filter hv), hr⟩

end Grammar

/-- When each of the causes is given. -/
theorem Grammar.excuse_iff (g : Grammar) (ws : List String) :
    (g.excuse ws = .emptyInput ↔ ws = []) ∧
      (g.excuse ws = .unknownVerb ↔
        ∃ word rest, ws = word :: rest ∧ ∀ v ∈ g.verbs, word ∉ v.words) ∧
      (g.excuse ws = .noRuleMatched ↔
        ∃ word rest, ws = word :: rest ∧ ∃ v ∈ g.verbs, word ∈ v.words) := by
  cases ws with
  | nil => simp [excuse]
  | cons word rest =>
    by_cases hknown : ∃ v ∈ g.verbs, word ∈ v.words
    · have hnot : ¬∀ v ∈ g.verbs, word ∉ v.words := by
        obtain ⟨v, hv, hword⟩ := hknown
        exact fun hall => hall v hv hword
      simp [excuse, hknown, hnot]
    · have hall : ∀ v ∈ g.verbs, word ∉ v.words := fun v hv hword => hknown ⟨v, hv, hword⟩
      simpa [excuse, hknown] using hall

/-! ### Trying them in order -/

/-- Whether trying a rule ended in a failure, so that the next one is tried. -/
def Attempt.isFailure (a : Attempt) : Bool :=
  match a.verdict with
  | .matched _ => false
  | .failed _ _ => true

/-- Whether a rule could be tried and failed. -/
def isFailure : Except Fault Attempt → Bool
  | .ok a => a.isFailure
  | .error _ => false

/-- Whether a rule could be tried and matched. -/
def isMatch : Except Fault Attempt → Bool
  | .ok a => !a.isFailure
  | .error _ => false

@[simp] theorem isFailure_error (f : Fault) : isFailure (.error f) = false := rfl

@[simp] theorem isFailure_matched (r : Rule) (params : List Value) :
    isFailure (.ok ⟨r, .matched params⟩) = false := rfl

@[simp] theorem isFailure_failed (r : Rule) (cause : Failure) (leftover : List Document) :
    isFailure (.ok ⟨r, .failed cause leftover⟩) = true := rfl

/-- A list up to and with its first item that does not satisfy `p`. -/
def cutAfter {α : Type} (p : α → Bool) (xs : List α) : List α :=
  xs.takeWhile p ++ (xs.dropWhile p).take 1

section CutAfter

variable {α : Type} {p : α → Bool} {x : α} {xs : List α}

theorem cutAfter_cons_of_pos (h : p x) : cutAfter p (x :: xs) = x :: cutAfter p xs := by
  rw [cutAfter, List.takeWhile_cons_of_pos h, List.dropWhile_cons_of_pos h]
  rfl

theorem cutAfter_cons_of_neg (h : ¬p x) : cutAfter p (x :: xs) = [x] := by
  rw [cutAfter, List.takeWhile_cons_of_neg h, List.dropWhile_cons_of_neg h]
  rfl

/-- All items of the cut but possibly the last satisfy `p`. -/
theorem of_mem_dropLast_cutAfter (h : x ∈ (cutAfter p xs).dropLast) : p x := by
  refine List.mem_takeWhile_imp (l := xs) ?_
  rw [cutAfter] at h
  cases hrest : xs.dropWhile p with
  | nil =>
    rw [hrest, List.take_nil, List.append_nil] at h
    exact (List.dropLast_sublist _).subset h
  | cons y ys =>
    rw [hrest, List.take_one, List.head?_cons, Option.toList_some, List.dropLast_concat] at h
    exact h

theorem mem_of_mem_cutAfter (h : x ∈ cutAfter p xs) : x ∈ xs := by
  rw [cutAfter] at h
  rcases List.mem_append.mp h with h | h
  · exact (List.takeWhile_prefix p).subset h
  · exact (List.dropWhile_suffix p).subset (List.mem_of_mem_take h)

end CutAfter

namespace Listener

variable {l : Listener} {world : Option World} {command : Document} {ws : List String}

section TryRules

variable {resolves : String → Option Resolve} {input : List Document} {rules : List (ℕ × Rule)}

theorem rule_of_attempt {r : Rule} {start : Int} {a : Attempt}
    (h : r.attempt resolves input start = .ok a) : a.rule = r := by
  rw [Rule.attempt] at h
  cases hrun : Match.tokens resolves input r.tokens start with
  | error f => simp [hrun] at h
  | ok verdict =>
    simp only [hrun, Except.ok.injEq] at h
    rw [← h]

/-- A rule that cannot be tried ends the search, if it is reached. -/
theorem tryRules_eq_error {f : Fault}
    (h : .error f ∈ cutAfter isFailure (rules.map fun c => c.2.attempt resolves input 1)) :
    tryRules resolves input rules = .error f := by
  induction rules with
  | nil => simp [cutAfter] at h
  | cons c rules ih =>
    obtain ⟨number, r⟩ := c
    rw [List.map_cons] at h
    rw [tryRules]
    rcases htry : r.attempt resolves input 1 with f' | ⟨r', params | ⟨cause, leftover⟩⟩
    · rw [htry, cutAfter_cons_of_neg (by simp)] at h
      obtain rfl := Except.error.inj (List.mem_singleton.mp h)
      rfl
    · rw [htry, cutAfter_cons_of_neg (by simp)] at h
      simp at h
    · rw [htry, cutAfter_cons_of_pos (by simp)] at h
      have hrest := ih (by simpa using h)
      simp only [hrest]

/-- **What the search finds**: the trace is the list of the attempts at the rules, each on its own,
cut just after the first that is no failure, and the choice is the first rule that matches. -/
theorem tryRules_eq_ok {trace : List Attempt}
    (h : cutAfter isFailure (rules.map fun c => c.2.attempt resolves input 1) = trace.map .ok) :
    ((rules.find? fun c => isMatch (c.2.attempt resolves input 1)) = none ∧
      tryRules resolves input rules = .ok (trace, none)) ∨
      ∃ c : Choice,
        (rules.find? fun c => isMatch (c.2.attempt resolves input 1)) = some (c.verb, c.rule) ∧
        c.rule.attempt resolves input 1 = .ok ⟨c.rule, .matched c.params⟩ ∧
        tryRules resolves input rules = .ok (trace, some c) := by
  induction rules generalizing trace with
  | nil =>
    obtain rfl : trace = [] := by simpa [cutAfter] using h.symm
    exact Or.inl ⟨rfl, rfl⟩
  | cons c rules ih =>
    obtain ⟨number, r⟩ := c
    rw [List.map_cons] at h
    rw [List.find?_cons, tryRules]
    rcases htry : r.attempt resolves input 1 with f | ⟨r', params | ⟨cause, leftover⟩⟩
    · -- the rule cannot be tried, so there is no trace
      rw [htry, cutAfter_cons_of_neg (by simp)] at h
      exact absurd (h ▸ List.mem_singleton_self _) (by simp)
    · -- the rule matches
      obtain rfl : r' = r := rule_of_attempt htry
      rw [htry, cutAfter_cons_of_neg (by simp)] at h
      obtain rfl : trace = [⟨r', .matched params⟩] := by
        cases trace with
        | nil => simp at h
        | cons a rest => simpa [eq_comm] using h
      exact Or.inr ⟨⟨number, r', params⟩, rfl, htry, rfl⟩
    · -- the rule fails, and the search goes on
      rw [htry, cutAfter_cons_of_pos (by simp)] at h
      obtain ⟨a, rest, rfl, ha, hrest⟩ : ∃ a rest, trace = a :: rest ∧
          a = ⟨r', .failed cause leftover⟩ ∧
          cutAfter isFailure (rules.map fun c => c.2.attempt resolves input 1) =
            rest.map .ok := by
        cases trace with
        | nil => simp at h
        | cons a rest =>
          simp only [List.map_cons, List.cons.injEq, Except.ok.injEq] at h
          exact ⟨a, rest, rfl, h.1.symm, h.2⟩
      subst ha
      rcases ih hrest with ⟨hfirst, hsearch⟩ | ⟨c, hfirst, hattempt, hsearch⟩
      · exact Or.inl ⟨hfirst, by simp only [hsearch]⟩
      · exact Or.inr ⟨c, hfirst, hattempt, by simp only [hsearch]⟩

end TryRules

section Candidates

variable (l : Listener) (world : Option World) (ws : List String)

/-- The rules that compete for the words of a command: those that the first word calls. -/
def candidates : List String → List (ℕ × Rule)
  | [] => []
  | word :: _ => l.grammar.rulesCalled word

/-- What trying a rule for some words comes to: it has to match from the second word on. -/
def tried (r : Rule) : Except Fault Attempt :=
  r.attempt (l.grammar.registry.resolves world) (ws.map .text) 1

/-- What trying all candidates comes to, each on its own. -/
def tries : List (Except Fault Attempt) := (l.candidates ws).map fun c => l.tried world ws c.2

/-- Choosing a rule is a search through the candidates. -/
theorem choose_eq :
    l.choose world ws =
      match tryRules (l.grammar.registry.resolves world) (ws.map .text) (l.candidates ws) with
      | .error f => .error f
      | .ok (trace, some choice) => .ok (trace, .ok choice)
      | .ok (trace, none) => .ok (trace, .error (l.grammar.excuse ws)) := by
  cases ws with
  | nil => rfl
  | cons word rest =>
    have hnone := Grammar.calledFrom_eq_nil_iff word 0 l.grammar.verbs
    -- whether the first word calls any verb decides between the causes
    rw [choose, candidates, ← Grammar.rulesOf_verbsFor, Grammar.verbsFor]
    cases hcalled : Grammar.calledFrom word 0 l.grammar.verbs with
    | nil =>
      have hunknown : ¬∃ v ∈ l.grammar.verbs, word ∈ v.words := by
        rintro ⟨v, hv, hword⟩
        exact hnone.mp hcalled v hv hword
      have hexcuse : l.grammar.excuse (word :: rest) = .unknownVerb := if_neg hunknown
      exact hexcuse ▸ rfl
    | cons v vs =>
      have hknown : ∃ v ∈ l.grammar.verbs, word ∈ v.words := by
        by_contra! hunknown
        rw [hnone.mpr hunknown] at hcalled
        exact absurd hcalled (by simp)
      have hexcuse : l.grammar.excuse (word :: rest) = .noRuleMatched := if_pos hknown
      exact hexcuse ▸ rfl

variable {l ws}

theorem mem_candidates {c : ℕ × Rule} (h : c ∈ l.candidates ws) :
    ∃ v ∈ l.grammar.verbs, c.2 ∈ v.rules := by
  cases ws with
  | nil => exact absurd h List.not_mem_nil
  | cons word rest => exact Grammar.mem_rulesCalled h

/-- The symbols of a candidate are among those that the grammar uses. -/
theorem mem_symbolsUsed {c : ℕ × Rule} {name : String} (hc : c ∈ l.candidates ws)
    (hname : name ∈ c.2.symbols) : name ∈ Grammar.symbolsUsed l.grammar.verbs := by
  obtain ⟨v, hv, hr⟩ := mem_candidates hc
  exact List.mem_flatMap.mpr ⟨v, hv, List.mem_flatMap.mpr ⟨c.2, hr, hname⟩⟩

end Candidates

variable (world) in
/-- **First match.** Let the words of a command be known, and let each rule that competes for it be
tried on its own. A rule that cannot be tried ends the interpretation if it is reached. Otherwise
the trace is the list of the attempts cut just after the first that is no failure. If some rule
matches, the first one is chosen: its action is called once with the values of the attempt, and its
reply is the answer. If none does, no action is called, and the cause is the one that the words
give. -/
theorem logged_first_match (h : Command.normalize command l.articles = .ok ws) :
    (∀ f, .error f ∈ cutAfter isFailure (l.tries world ws) →
      l.logged world command = (.error f, []) ∧ l.parse world command = .error f) ∧
    ∀ trace : List Attempt, cutAfter isFailure (l.tries world ws) = trace.map .ok →
      (∀ a ∈ trace.dropLast, a.isFailure) ∧
      (∀ number r,
        ((l.candidates ws).find? fun c => isMatch (l.tried world ws c.2)) = some (number, r) →
        ∃ params, l.tried world ws r = .ok ⟨r, .matched params⟩ ∧
          l.logged world command =
            ((r.action.run params).map fun reply =>
              ⟨command, ws, trace, .matched ⟨number, r, params⟩ reply⟩, [⟨r.action, params⟩]) ∧
          l.parse world command = r.action.run params) ∧
      (((l.candidates ws).find? fun c => isMatch (l.tried world ws c.2)) = none →
        ∃ cause, l.logged world command = (.ok ⟨command, ws, trace, .unmatched cause⟩, []) ∧
          l.parse world command = .ok (.value (.document l.notUnderstood)) ∧
          (cause = .emptyInput ↔ ws = []) ∧
          (cause = .unknownVerb ↔
            ∃ word rest, ws = word :: rest ∧ ∀ v ∈ l.grammar.verbs, word ∉ v.words) ∧
          (cause = .noRuleMatched ↔
            ∃ word rest, ws = word :: rest ∧ ∃ v ∈ l.grammar.verbs, word ∈ v.words)) := by
  refine ⟨fun f hf => ?_, fun trace htrace => ⟨fun a ha => ?_, ?_⟩⟩
  · have hchoose : l.choose world ws = .error f := by rw [choose_eq, tryRules_eq_error hf]
    have hlogged := logged_of_choose_error h hchoose
    exact ⟨hlogged, by rw [parse_eq, hlogged]; rfl⟩
  · have hmem : Except.ok a ∈ (cutAfter isFailure (l.tries world ws)).dropLast := by
      rw [htrace, ← List.map_dropLast]
      exact List.mem_map_of_mem ha
    exact of_mem_dropLast_cutAfter (p := isFailure) hmem
  rcases tryRules_eq_ok htrace with ⟨hnone, hsearch⟩ | ⟨c, hfirst, hattempt, hsearch⟩
  · -- no candidate matches
    have hchoose : l.choose world ws = .ok (trace, .error (l.grammar.excuse ws)) := by
      rw [choose_eq, hsearch]
    have hlogged := logged_of_unmatched h hchoose
    refine ⟨fun number r hsome => ?_, fun _ => ⟨l.grammar.excuse ws, hlogged, ?_, ?_⟩⟩
    · exact absurd (hnone.symm.trans hsome) (by simp)
    · rw [parse_eq, hlogged]
      rfl
    · exact l.grammar.excuse_iff ws
  · -- the first candidate that matches is chosen
    have hchoose : l.choose world ws = .ok (trace, .ok c) := by rw [choose_eq, hsearch]
    have hlogged := logged_of_matched h hchoose
    refine ⟨fun number r hsome => ?_, fun hnone => ?_⟩
    · obtain ⟨rfl, rfl⟩ := Prod.mk.inj (Option.some.inj (hsome.symm.trans hfirst))
      refine ⟨c.params, hattempt, hlogged, ?_⟩
      rw [parse_eq, hlogged]
      cases c.rule.action.run c.params <;> rfl
    · exact absurd (hnone.symm.trans hfirst) (by simp)

end Listener

namespace Parlour

/-- Names its value. -/
def drop : Action where
  name := "drop"
  signature := some [.required "obj"]
  run := fun vs => .ok (.values vs)

/-- Something is given away. -/
def giveAway : Rule := ⟨"single", [.symbol "single"], drop, .text "drop"⟩

/-- A listener for the parlour, in which two verbs have the word *give*. -/
def listener : Listener where
  grammar := ⟨[⟨["give"], [giveAway]⟩, ⟨["hand", "give"], [giveTo]⟩], registry⟩
  articles := [.text "the"]
  notUnderstood := .text Listener.defaultNotUnderstood

end Parlour

open Parlour in
/-- The rule of the first verb leaves words behind, so the rule of the second is chosen, and its
action is called once. -/
theorem Listener.logged_give_key_to_man :
    Command.normalize (.text "Give the key to man") listener.articles =
        .ok ["give", "key", "to", "man"] ∧
      listener.logged (some (.ofObjects [key, man])) (.text "Give the key to man") =
        (.ok ⟨.text "Give the key to man", ["give", "key", "to", "man"],
            [⟨giveAway, .failed .inputRemaining [.text "to", .text "man"]⟩,
              ⟨giveTo, .matched [.entity (.object key), .entity (.object man)]⟩],
            .matched ⟨1, giveTo, [.entity (.object key), .entity (.object man)]⟩
              (.values [.entity (.object key), .entity (.object man)])⟩,
          [⟨give, [.entity (.object key), .entity (.object man)]⟩]) := by
  have h : Command.normalize (.text "Give the key to man") listener.articles =
      .ok ["give", "key", "to", "man"] := rfl
  obtain ⟨params, htried, hlogged, -⟩ := ((logged_first_match (some (.ofObjects [key, man])) h).2
    [⟨giveAway, .failed .inputRemaining [.text "to", .text "man"]⟩,
      ⟨giveTo, .matched [.entity (.object key), .entity (.object man)]⟩] rfl).2.1 1 giveTo rfl
  have hmatched :
      listener.tried (some (.ofObjects [key, man])) ["give", "key", "to", "man"] giveTo =
        .ok ⟨giveTo, .matched [.entity (.object key), .entity (.object man)]⟩ := rfl
  rw [hmatched, Except.ok.injEq, Attempt.mk.injEq, Verdict.matched.injEq] at htried
  obtain rfl := htried.2
  exact ⟨h, hlogged⟩

end TextAdventure
