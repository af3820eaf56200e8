import TextAdventure.Proofs.Dispatch

/-!
# What a scope may change

An author arranges the objects of a scene in some order, among others that the player does not speak
of. Neither may make a difference to what a command is taken for. This file compares two runs of the
listener, over scopes that look alike through the words of the command
(`TextAdventure.GameObject.LookAlike`): without the objects that share no word with the command,
they are permutations of each other.

The comparison follows the run. Alike scopes have the same holders up to order, so a reference has
the same value in both runs, or is refused in both for causes that differ in the order of the
candidates at most (`TextAdventure.Sense.Alike.outcome`). The tokens of a rule are therefore gone
through in lockstep (`TextAdventure.Match.tokens_alike`), and so are the rules that compete for the
command (`TextAdventure.Listener.tryRules_alike`). The main statement is
`TextAdventure.Listener.interpret_alike`.
-/

namespace TextAdventure

/-! ### Outcomes up to the order of candidates -/

/-- Causes of a refusal that differ in the order of the candidates at most. -/
inductive Refusal.Alike : Refusal → Refusal → Prop
  | refl (cause : Refusal) : Alike cause cause
  | ambiguous {candidates candidates' : List String} (h : candidates.Perm candidates')
      (score : Int) : Alike (.ambiguous candidates score) (.ambiguous candidates' score)

/-- Outcomes that differ in the order of the candidates at most. -/
inductive Outcome.Alike : Outcome → Outcome → Prop
  | resolved (value : Value) (place : Int) : Alike (.resolved value place) (.resolved value place)
  | refused {cause cause' : Refusal} (h : cause.Alike cause') :
      Alike (.refused cause) (.refused cause')

/-- Causes of a failure that differ in the order of the candidates at most. -/
inductive Failure.Alike : Failure → Failure → Prop
  | refl (cause : Failure) : Alike cause cause
  | refused (symbol : String) {cause cause' : Refusal} (h : cause.Alike cause') :
      Alike (.refused symbol cause) (.refused symbol cause')

/-- Verdicts with the same values, or with the same words left over and causes that differ in the
order of the candidates at most. -/
inductive Verdict.Alike : Verdict → Verdict → Prop
  | matched (params : List Value) : Alike (.matched params) (.matched params)
  | failed {cause cause' : Failure} (h : cause.Alike cause') (leftover : List Document) :
      Alike (.failed cause leftover) (.failed cause' leftover)

/-- **Attempts that are alike**: the same rule was tried, with verdicts that differ in the order of
the candidates of an ambiguous reference at most. -/
structure Attempt.Alike (a a' : Attempt) : Prop where
  rule : a.rule = a'.rule
  verdict : a.verdict.Alike a'.verdict

theorem Refusal.Alike.reason_eq {cause cause' : Refusal} (h : cause.Alike cause') :
    cause.reason = cause'.reason := by
  cases h with
  | refl => rfl
  | ambiguous h score => rfl

/-- Alike causes have the same word. -/
theorem Failure.Alike.reason_eq {cause cause' : Failure} (h : cause.Alike cause') :
    cause.reason = cause'.reason := by
  cases h with
  | refl => rfl
  | refused symbol h => exact h.reason_eq

theorem Verdict.Alike.after {verdict verdict' : Verdict} (h : verdict.Alike verdict') (v : Value) :
    (verdict.after v).Alike (verdict'.after v) := by
  cases h with
  | matched params => exact .matched (v :: params)
  | failed h leftover => exact .failed h leftover

/-! ### Scopes that look alike -/

/-- Whether some words hold a word by which an object is called. -/
def GameObject.isHeardIn (ws : List String) (o : GameObject) : Bool := o.words.any (· ∈ ws)

/-- **Lists of objects that look alike** through some words: without the objects none of whose words
is among them, they are permutations of each other. -/
def GameObject.LookAlike (ws : List String) (os os' : List GameObject) : Prop :=
  (os.filter (isHeardIn ws)).Perm (os'.filter (isHeardIn ws))

namespace Reference

variable {ws : List String} {n : ℕ}

/-- An object covers words only if some of them call it. -/
theorem isHeardIn_of_score_pos {o : GameObject} (h : 0 < score (.object o) (ws.map .text) n) :
    o.isHeardIn ws := by
  rw [score_words rfl, Int.natCast_pos, List.length_pos_iff] at h
  obtain ⟨w, rest, hrun⟩ := List.exists_cons_of_ne_nil h
  have hw : w ∈ (ws.drop n).takeWhile fun w => w ∈ (Entity.object o).words := by
    rw [hrun]
    exact List.mem_cons_self ..
  have hmem : w ∈ ws := List.mem_of_mem_drop ((List.takeWhile_prefix _).subset hw)
  have hcalls := List.mem_takeWhile_imp hw
  exact List.any_eq_true.mpr ⟨w, decide_eq_true_iff.mp hcalls, decide_eq_true hmem⟩

/-- The objects of positive score are found among those that share a word with the input. -/
theorem filter_score_pos (os : List GameObject) :
    ((os.map Entity.object).filter fun e => 0 < score e (ws.map .text) n) =
      ((os.filter (GameObject.isHeardIn ws)).filter
        fun o => 0 < score (.object o) (ws.map .text) n).map .object := by
  rw [List.filter_map, List.filter_filter]
  congr 1
  refine List.filter_congr fun o _ => ?_
  rw [Function.comp_apply, Bool.eq_iff_iff, Bool.and_eq_true, decide_eq_true_iff]
  exact ⟨fun h => ⟨h, isHeardIn_of_score_pos h⟩, fun h => h.1⟩

theorem holders_perm_of_lookAlike {os os' : List GameObject}
    (h : GameObject.LookAlike ws os os') :
    top (os.map .object) (ws.map .text) n = top (os'.map .object) (ws.map .text) n ∧
      (holders (os.map .object) (ws.map .text) n).Perm
        (holders (os'.map .object) (ws.map .text) n) := by
  have hpos : ((os.map Entity.object).filter fun e => 0 < score e (ws.map .text) n).Perm
      ((os'.map Entity.object).filter fun e => 0 < score e (ws.map .text) n) := by
    rw [filter_score_pos, filter_score_pos]
    exact (h.filter _).map _
  exact ⟨top_eq_of_perm hpos, holders_perm hpos⟩

/-- The outcome of a reference depends on the holders of its scope and the top. -/
theorem outcome_alike_of_perm {scope scope' : List Entity} {input : List Document} {start : Int}
    (htop : top scope input start = top scope' input start)
    (hperm : (holders scope input start).Perm (holders scope' input start)) :
    (outcome scope input start).Alike (outcome scope' input start) := by
  rw [outcome, outcome, leaders_eq, leaders_eq, htop]
  have hlength := hperm.length_eq
  rcases hes : holders scope input start with _ | ⟨e, _ | ⟨e₂, es⟩⟩
  · rw [hes] at hperm
    rw [hperm.symm.eq_nil]
    exact .refused (.refl _)
  · rw [hes] at hperm
    rw [← List.singleton_perm.mp hperm]
    exact .resolved _ _
  · rcases hes' : holders scope' input start with _ | ⟨e', _ | ⟨e₂', es'⟩⟩
    · simp [hes, hes'] at hlength
    · simp [hes, hes'] at hlength
    · rw [hes, hes'] at hperm
      exact .refused (.ambiguous (hperm.map _) _)

end Reference

/-- **Senses that are alike** through some words: those of entities in scopes of objects that look
alike, and those of the same phrases. -/
inductive Sense.Alike (ws : List String) : Sense → Sense → Prop
  | entities {os os' : List GameObject} {plain : ∀ e ∈ os.map Entity.object, e.isPlain}
      {plain' : ∀ e ∈ os'.map Entity.object, e.isPlain} (h : GameObject.LookAlike ws os os') :
      Alike ws (.entities (os.map .object) plain) (.entities (os'.map .object) plain')
  | phrases (known : List String) : Alike ws (.phrases known) (.phrases known)

/-- **Alike senses have alike outcomes** on the words through which they are alike. -/
theorem Sense.Alike.outcome {ws : List String} {s s' : Sense} (h : s.Alike ws s') (n : ℕ) :
    (s.outcome (ws.map .text) n).Alike (s'.outcome (ws.map .text) n) := by
  cases h with
  | entities h =>
    obtain ⟨htop, hperm⟩ := Reference.holders_perm_of_lookAlike (n := n) h
    exact Reference.outcome_alike_of_perm htop hperm
  | phrases known =>
    cases hout : Phrase.outcome known (ws.map .text) n with
    | resolved value place =>
      rw [Sense.outcome, hout]
      exact .resolved value place
    | refused cause =>
      rw [Sense.outcome, hout]
      exact .refused (.refl cause)

/-! ### Two runs in lockstep -/

/-- At the same place of the same words, the two runs end alike. -/
theorem Match.atEnd_alike (input : List Document) (place : Int) :
    (atEnd input place).Alike (atEnd input place) := by
  cases atEnd input place with
  | matched params => exact .matched params
  | failed cause leftover => exact .failed (.refl cause) leftover

/-- **Trying tokens in two runs**: if every symbol among the tokens has senses in the two runs that
are alike, both come to a verdict, and the verdicts are alike. -/
theorem Match.tokens_alike {resolves resolves' : String → Option Resolve} {ws : List String}
    (tokens : List Token) (n : ℕ)
    (h : ∀ name ∈ Pattern.symbolsOf tokens, ∃ s s' : Sense, resolves name = some s.resolve ∧
      resolves' name = some s'.resolve ∧ s.Alike ws s') :
    ∃ verdict verdict', Match.tokens resolves (ws.map .text) tokens n = .ok verdict ∧
      Match.tokens resolves' (ws.map .text) tokens n = .ok verdict' ∧ verdict.Alike verdict' := by
  induction tokens generalizing n with
  | nil => exact ⟨_, _, rfl, rfl, atEnd_alike _ _⟩
  | cons token tokens ih =>
    cases token with
    | literal word =>
      -- the words alone decide, and they are the same in both runs
      rw [Match.tokens, Match.tokens]
      cases hahead : itemAt? (ws.map Document.text) n with
      | none => exact ⟨_, _, rfl, rfl, .failed (.refl _) _⟩
      | some d =>
        by_cases hd : d.isText word
        · simp only [hd, ↓reduceIte]
          exact ih (n + 1) h
        · simp only [hd, Bool.false_eq_true, ↓reduceIte]
          exact ⟨_, _, rfl, rfl, .failed (.refl _) _⟩
    | symbol name =>
      obtain ⟨s, s', hres, hres', hs⟩ := h name (List.mem_cons_self ..)
      have halike := hs.outcome n
      rw [Match.tokens, Match.tokens, hres, hres']
      simp only [s.resolve_words ws n, s'.resolve_words ws n]
      rcases hout : s.outcome (ws.map .text) n with ⟨v, place⟩ | cause
      · -- both runs go on with the same value from the same place
        rw [hout] at halike
        obtain ⟨segment, rest, -, -, rfl⟩ := Sense.outcome_eq_resolved_iff.mp hout
        generalize s'.outcome (ws.map .text) n = outcome' at halike
        cases halike with
        | resolved =>
          obtain ⟨verdict, verdict', hrun, hrun', hverdict⟩ := ih (n + segment.length)
            fun name hname => h name (List.mem_cons_of_mem _ hname)
          rw [Int.natCast_add] at hrun hrun'
          simp only [hrun, hrun']
          exact ⟨_, _, rfl, rfl, hverdict.after v⟩
      · -- both runs are refused here
        rw [hout] at halike
        generalize s'.outcome (ws.map .text) n = outcome' at halike
        cases halike with
        | refused hcause => exact ⟨_, _, rfl, rfl, .failed (.refused name hcause) _⟩

namespace Listener

/-- **Trying rules in two runs**: if each rule can be tried in both and its attempts are alike, then
the traces are of the same length and alike entry by entry, and the same rule is chosen. -/
theorem tryRules_alike {resolves resolves' : String → Option Resolve} {input : List Document}
    {rules : List (ℕ × Rule)}
    (h : ∀ c ∈ rules, ∃ a a', c.2.attempt resolves input 1 = .ok a ∧
      c.2.attempt resolves' input 1 = .ok a' ∧ a.Alike a') :
    ∃ trace trace' choice, tryRules resolves input rules = .ok (trace, choice) ∧
      tryRules resolves' input rules = .ok (trace', choice) ∧
      List.Forall₂ Attempt.Alike trace trace' := by
  induction rules with
  | nil => exact ⟨[], [], none, rfl, rfl, .nil⟩
  | cons c rules ih =>
    obtain ⟨number, r⟩ := c
    obtain ⟨⟨a, a', htry, htry', ha⟩, hrest⟩ := List.forall_mem_cons.mp h
    obtain ⟨trace, trace', choice, hsearch, hsearch', htrace⟩ := ih hrest
    obtain ⟨rule, verdict⟩ := a
    obtain ⟨rule', verdict'⟩ := a'
    obtain ⟨hrule, hverdict⟩ := ha
    rw [tryRules, tryRules]
    simp only [htry, htry']
    cases hverdict with
    | matched params =>
      exact ⟨_, _, some ⟨number, r, params⟩, rfl, rfl, .cons ⟨hrule, .matched params⟩ .nil⟩
    | failed hcause leftover =>
      simp only [hsearch, hsearch']
      exact ⟨_, _, choice, rfl, rfl, .cons ⟨hrule, .failed hcause leftover⟩ htrace⟩

/-- **Listeners that are alike**, each in its world, through the words of a command: they have the
same verbs and articles, and the symbols of their rules have senses that are alike. -/
structure Alike (ws : List String) (l l' : Listener) (world world' : Option World) : Prop where
  verbs : l.grammar.verbs = l'.grammar.verbs
  articles : l.articles = l'.articles
  symbols : ∀ name ∈ Grammar.symbolsUsed l.grammar.verbs, ∃ s s' : Sense,
    l.grammar.registry.sense? world name = some s ∧
    l'.grammar.registry.sense? world' name = some s' ∧ s.Alike ws s'

variable {l l' : Listener} {world world' : Option World} {command : Document} {ws : List String}

namespace Alike

theorem candidates_eq (hl : Alike ws l l' world world') : l.candidates ws = l'.candidates ws := by
  cases ws with
  | nil => rfl
  | cons word rest =>
    rw [candidates, candidates, Grammar.rulesCalled, Grammar.rulesCalled, hl.verbs]

theorem excuse_eq (hl : Alike ws l l' world world') :
    l.grammar.excuse ws = l'.grammar.excuse ws := by
  cases ws with
  | nil => rfl
  | cons word rest => rw [Grammar.excuse, Grammar.excuse, hl.verbs]

/-- A rule that competes for the words can be tried in both runs, and the attempts are alike. -/
theorem exists_attempts (hl : Alike ws l l' world world') {c : ℕ × Rule}
    (hc : c ∈ l.candidates ws) :
    ∃ a a', c.2.attempt (l.grammar.registry.resolves world) (ws.map .text) 1 = .ok a ∧
      c.2.attempt (l'.grammar.registry.resolves world') (ws.map .text) 1 = .ok a' ∧
      a.Alike a' := by
  have hsenses : ∀ name ∈ Pattern.symbolsOf c.2.tokens, ∃ s s' : Sense,
      l.grammar.registry.resolves world name = some s.resolve ∧
      l'.grammar.registry.resolves world' name = some s'.resolve ∧ s.Alike ws s' := by
    intro name hname
    obtain ⟨s, s', hs, hs', halike⟩ := hl.symbols name (mem_symbolsUsed hc hname)
    exact ⟨s, s', Registry.resolves_of_sense? hs, Registry.resolves_of_sense? hs', halike⟩
  obtain ⟨verdict, verdict', hrun, hrun', hverdict⟩ := Match.tokens_alike c.2.tokens 1 hsenses
  rw [Int.natCast_one] at hrun hrun'
  exact ⟨⟨c.2, verdict⟩, ⟨c.2, verdict'⟩, by rw [Rule.attempt, hrun], by rw [Rule.attempt, hrun'],
    ⟨rfl, hverdict⟩⟩

end Alike

/-- Alike listeners choose the same rule, or none for the same cause, and their traces are alike. -/
theorem choose_alike (hl : Alike ws l l' world world') :
    ∃ trace trace' choice, l.choose world ws = .ok (trace, choice) ∧
      l'.choose world' ws = .ok (trace', choice) ∧ List.Forall₂ Attempt.Alike trace trace' := by
  obtain ⟨trace, trace', choice, hsearch, hsearch', htrace⟩ :=
    tryRules_alike fun c hc => hl.exists_attempts hc
  rw [hl.candidates_eq] at hsearch'
  rw [choose_eq, choose_eq, hsearch, hsearch', hl.excuse_eq]
  cases choice with
  | none => exact ⟨trace, trace', _, rfl, rfl, htrace⟩
  | some c => exact ⟨trace, trace', .ok c, rfl, rfl, htrace⟩

/-- **Scope invariance.** Two listeners that differ in scopes at most, which look alike through the
words of a command, interpret the command alike: they choose the same rule of the same verb with the
same values, or none for the same cause, and conclude the same from it; and their traces are of the
same length and agree attempt by attempt, up to the order of the candidates of ambiguous
references. -/
theorem interpret_alike (h : Command.normalize command l.articles = .ok ws)
    (hl : Alike ws l l' world world') :
    ∃ trace trace' choice, l.choose world ws = .ok (trace, choice) ∧
      l'.choose world' ws = .ok (trace', choice) ∧ List.Forall₂ Attempt.Alike trace trace' ∧
      l.interpret world command = (concludeWith Action.run choice).map (⟨command, ws, trace, ·⟩) ∧
      l'.interpret world' command =
        (concludeWith Action.run choice).map (⟨command, ws, trace', ·⟩) := by
  obtain ⟨trace, trace', choice, hchoose, hchoose', htrace⟩ := choose_alike hl
  have h' : Command.normalize command l'.articles = .ok ws := hl.articles ▸ h
  refine ⟨trace, trace', choice, hchoose, hchoose', htrace, ?_, ?_⟩
  · exact interpretWith_of_choose Action.run h hchoose
  · exact interpretWith_of_choose Action.run h' hchoose'

end Listener

namespace Parlour

/-- A third object, which comes and goes. -/
def lamp : GameObject := .called ["brass", "lamp"]

end Parlour

open Parlour in
/-- Who or what is *old* is ambiguous in the parlour, whether the lamp is there or not. -/
theorem Listener.interpret_give_old_to_man :
    Command.normalize (.text "Give the old to man") listener.articles =
        .ok ["give", "old", "to", "man"] ∧
      Alike ["give", "old", "to", "man"] listener listener (some (.ofObjects [key, man]))
        (some (.ofObjects [man, lamp, key])) ∧
      List.Forall₂ Attempt.Alike
        [⟨giveAway, .failed (.refused "single" (.ambiguous ["old rusty key", "old man"] 1))
            [.text "old", .text "to", .text "man"]⟩,
          ⟨giveTo, .failed (.refused "single" (.ambiguous ["old rusty key", "old man"] 1))
            [.text "old", .text "to", .text "man"]⟩]
        [⟨giveAway, .failed (.refused "single" (.ambiguous ["old man", "old rusty key"] 1))
            [.text "old", .text "to", .text "man"]⟩,
          ⟨giveTo, .failed (.refused "single" (.ambiguous ["old man", "old rusty key"] 1))
            [.text "old", .text "to", .text "man"]⟩] := by
  have h : Command.normalize (.text "Give the old to man") listener.articles =
      .ok ["give", "old", "to", "man"] := rfl
  have hl : Alike ["give", "old", "to", "man"] listener listener (some (.ofObjects [key, man]))
      (some (.ofObjects [man, lamp, key])) := by
    refine ⟨rfl, rfl, fun name hname => ?_⟩
    have hused : Grammar.symbolsUsed listener.grammar.verbs = ["single", "single", "single"] := rfl
    obtain rfl : name = "single" := by simpa [hused] using hname
    exact ⟨_, _, rfl, rfl, .entities (.swap man key [])⟩
  obtain ⟨trace, trace', choice, hchoose, hchoose', htrace, -, -⟩ := interpret_alike h hl
  obtain ⟨rfl, -⟩ := Prod.mk.inj (Except.ok.inj hchoose)
  obtain ⟨rfl, -⟩ := Prod.mk.inj (Except.ok.inj hchoose')
  exact ⟨h, hl, htrace⟩

end TextAdventure
