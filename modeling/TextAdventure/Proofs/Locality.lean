import TextAdventure.Proofs.Loading
import TextAdventure.Proofs.WordByWord

/-!
# Only the words ahead matter

A rule is tried from the word after the verb on, but the matcher and the resolvers are given all the
words and a place among them. This file shows that none of them makes use of the words before the
place. Looks at the input are shifted with it (`TextAdventure.itemAt?_append_left` and its
companions); from this, a resolver for plain entities or phrases gives the same outcome, with all
places shifted (`TextAdventure.Resolve.LooksAhead`); and from this in turn, trying tokens gives the
very same verdict (`TextAdventure.Match.tokens_append_left`).

For the listener it follows that the word by which a verb is called does not matter, once it is
settled which verbs it calls: two words that call the same verbs are synonyms everywhere
(`TextAdventure.Listener.locality`).
-/

namespace TextAdventure

/-! ### Looks at a shifted input -/

section Places

variable {α : Type} (before items : List α) (n : ℕ)

theorem itemAt?_append_left : itemAt? (before ++ items) (before.length + n) = itemAt? items n := by
  rw [← Int.natCast_add, itemAt?_natCast, itemAt?_natCast, List.drop_length_add_append]

theorem itemsFrom_append_left :
    itemsFrom (before ++ items) (before.length + n) = itemsFrom items n := by
  rw [← Int.natCast_add, itemsFrom, itemsFrom, Int.toNat_natCast, Int.toNat_natCast,
    List.drop_length_add_append]

end Places

/-! ### Resolvers that look ahead -/

/-- An outcome for an input that has `k` words more in front. -/
def Outcome.shift (k : Int) : Outcome → Outcome
  | .resolved value place => .resolved value (k + place)
  | .refused cause => .refused cause

/-- A resolution for an input that has `k` words more in front. -/
def Resolution.shift (k : Int) (r : Resolution) : Resolution := ⟨r.outcome.shift k, k + r.cursor⟩

/-- **Resolvers that look ahead**: words before the place shift what they find and do not change it
otherwise, and they never go back. -/
structure Resolve.LooksAhead (resolve : Resolve) : Prop where
  shift (before input : List Document) (n : ℕ) :
    resolve (before ++ input) (before.length + n) =
      (resolve input n).map (Resolution.shift before.length)
  forward {input : List Document} {n : ℕ} {value : Value} {next cursor : Int} :
    resolve input n = .ok ⟨.resolved value next, cursor⟩ → n ≤ next

theorem Resolve.looksAhead_error (f : Fault) : LooksAhead fun _ _ => .error f where
  shift _ _ _ := rfl
  forward h := nomatch h

namespace Reference

section Shift

variable {scope : List Entity} (before input : List Document) (n : ℕ)

theorem ahead_append_left : ahead (before ++ input) (before.length + n) = ahead input n := by
  rw [← Int.natCast_add, ahead_natCast, ahead_natCast, List.drop_length_add_append]

theorem score_append_left {e : Entity} (h : e.isPlain) :
    score e (before ++ input) (before.length + n) = score e input n := by
  simp only [score, Entity.claimed?_of_isPlain h, run, ahead_append_left]

theorem isStuck_append_left {e : Entity} (h : e.isPlain) :
    isStuck e (before ++ input) (before.length + n) = isStuck e input n := by
  rw [isStuck, isStuck, Entity.claimed?_of_isPlain h, Entity.claimed?_of_isPlain h,
    ahead_append_left]

variable (hplain : ∀ e ∈ scope, e.isPlain)

include hplain

theorem leaders_append_left :
    leaders scope (before ++ input) (before.length + n) = leaders scope input n := by
  refine List.foldl_ext _ _ _ fun lead e he => ?_
  rw [score_append_left before input n (hplain e he)]

theorem outcome_append_left : outcome scope (before ++ input) (before.length + n) =
    (outcome scope input n).shift before.length := by
  rw [outcome, outcome, leaders_append_left before input n hplain, itemsFrom_append_left]
  rcases (leaders scope input n).holders with _ | ⟨e, _ | ⟨e', es⟩⟩
  · rfl
  · simp only [Outcome.shift, Int.add_assoc]
  · rfl

/-- References to plain entities look ahead. -/
theorem looksAhead : (resolve scope).LooksAhead where
  shift before input n := by
    have hstuck : (scope.any fun e => isStuck e (before ++ input) (before.length + n)) =
        scope.any fun e => isStuck e input n := by
      rw [Bool.eq_iff_iff, List.any_eq_true, List.any_eq_true]
      refine exists_congr fun e => and_congr_right fun he => ?_
      rw [isStuck_append_left before input n (hplain e he)]
    rw [resolve, resolve, hstuck, outcome_append_left before input n hplain]
    split_ifs
    · rfl
    · cases outcome scope input n <;> rfl
  forward {input n value next cursor} h := by
    rw [resolve] at h
    split_ifs at h
    obtain ⟨hout, -⟩ := Resolution.mk.inj (Except.ok.inj h)
    obtain ⟨e, -, -, hnext⟩ := outcome_eq_resolved_iff_holders.mp hout
    have htop := top_nonneg scope input n
    omega

end Shift

end Reference

namespace Phrase

/-- Phrases look ahead. -/
theorem looksAhead (known : List String) : (resolve known).LooksAhead where
  shift before input n := by
    have hfits : (fun p => fits p (before ++ input) (before.length + n)) =
        fun p => fits p input n := by
      funext p
      rw [fits, fits]
      exact congrArg (begins _) (Reference.ahead_append_left before input n)
    have hout : outcome known (before ++ input) (before.length + n) =
        (outcome known input n).shift before.length := by
      rw [outcome, outcome, hfits, itemsFrom_append_left]
      cases known.find? fun p => fits p input n with
      | none => rfl
      | some p => simp only [Outcome.shift, Int.add_assoc]
    rw [resolve, resolve, hout]
    cases outcome known input n <;> rfl
  forward {input n value next cursor} h := by
    rw [resolve] at h
    cases hout : outcome known input n with
    | refused cause => simp [hout] at h
    | resolved v place =>
      simp only [hout, Except.ok.injEq, Resolution.mk.injEq, Outcome.resolved.injEq] at h
      rw [outcome] at hout
      cases hfind : known.find? fun p => fits p input n with
      | none => simp [hfind] at hout
      | some p =>
        simp only [hfind, Outcome.resolved.injEq] at hout
        omega

end Phrase

/-- **Resolvers that go by words**: references in scopes of plain entities, and phrases. -/
def Resolver.GoesByWords (world : Option World) : Resolver → Prop
  | .reference scope => ∀ es, entitiesIn world scope = .ok es → ∀ e ∈ es, e.isPlain
  | .phrases _ => True
  | .custom _ => False
  | .undefined => False

theorem Resolver.GoesByWords.looksAhead {world : Option World} {r : Resolver}
    (h : r.GoesByWords world) : (r.resolve world).LooksAhead := by
  cases r with
  | reference scope =>
    cases hes : entitiesIn world scope with
    | error f =>
      have hresolve : resolve world (.reference scope) = fun _ _ => .error f := by
        funext input start
        simp only [resolve, hes]
      exact hresolve ▸ Resolve.looksAhead_error f
    | ok es =>
      have hresolve : resolve world (.reference scope) = Reference.resolve es := by
        funext input start
        simp only [resolve, hes]
      exact hresolve ▸ Reference.looksAhead (h es hes)
  | phrases known => exact Phrase.looksAhead known
  | custom way => exact h.elim
  | undefined => exact h.elim

/-! ### The matcher -/

/-- A resolver that is found in a registry whose resolvers go by words looks ahead. -/
theorem Registry.looksAhead {registry : Registry} {world : Option World}
    (h : ∀ e ∈ registry, e.2.GoesByWords world) {name : String} {resolve : Resolve}
    (hres : registry.resolves world name = some resolve) : resolve.LooksAhead := by
  obtain ⟨r, hget, rfl⟩ := Option.map_eq_some_iff.mp hres
  obtain ⟨key, hmem⟩ := Table.mem_of_get? hget
  exact (h _ hmem).looksAhead

/-- **Trying tokens does not depend on the words before the place.** -/
theorem Match.tokens_append_left {resolves : String → Option Resolve}
    (h : ∀ name resolve, resolves name = some resolve → resolve.LooksAhead)
    (before input : List Document) (tokens : List Token) (n : ℕ) :
    Match.tokens resolves (before ++ input) tokens (before.length + n) =
      Match.tokens resolves input tokens n := by
  induction tokens generalizing n with
  | nil => rw [Match.tokens, Match.tokens, atEnd, atEnd, itemAt?_append_left, itemsFrom_append_left]
  | cons token tokens ih =>
    cases token with
    | literal word =>
      have hrest := ih (n + 1)
      rw [Int.natCast_add, Int.natCast_one, ← Int.add_assoc] at hrest
      rw [Match.tokens, Match.tokens, itemAt?_append_left, itemsFrom_append_left, hrest]
    | symbol name =>
      rw [Match.tokens, Match.tokens, itemsFrom_append_left]
      cases hres : resolves name with
      | none => rfl
      | some resolve =>
        have hlooks := h name resolve hres
        dsimp only
        rw [hlooks.shift before input n]
        rcases hout : resolve input n with f | ⟨⟨v, next⟩ | cause, cursor⟩
        · rfl
        · -- the resolver went on, so the place behind it is again a number of words
          obtain ⟨m, rfl⟩ := Int.eq_ofNat_of_zero_le (Int.le_trans (by omega) (hlooks.forward hout))
          simp only [Except.map, Resolution.shift, Outcome.shift, ih m]
        · rfl

/-- An attempt at a rule does not depend on the words before the place. -/
theorem Rule.attempt_append_left {resolves : String → Option Resolve}
    (h : ∀ name resolve, resolves name = some resolve → resolve.LooksAhead) (r : Rule)
    (before input : List Document) :
    r.attempt resolves (before ++ input) before.length = r.attempt resolves input 0 := by
  have hrun := Match.tokens_append_left h before input r.tokens 0
  rw [Int.natCast_zero, Int.add_zero] at hrun
  rw [attempt, attempt, hrun]

/-! ### The listener -/

namespace Listener

/-- The search comes to the same on two inputs if every rule does. -/
theorem tryRules_congr {resolves : String → Option Resolve} {input input' : List Document}
    {rules : List (ℕ × Rule)}
    (h : ∀ c ∈ rules, c.2.attempt resolves input 1 = c.2.attempt resolves input' 1) :
    tryRules resolves input rules = tryRules resolves input' rules := by
  induction rules with
  | nil => rfl
  | cons c rules ih =>
    obtain ⟨number, r⟩ := c
    obtain ⟨hr, hrest⟩ := List.forall_mem_cons.mp h
    rw [tryRules, tryRules, hr, ih hrest]

variable {l : Listener} {world : Option World} {v v' : String} {rest : List String}

/-- Words that call the same verbs have the same choice made. -/
theorem choose_congr (h : ∀ e ∈ l.grammar.registry, e.2.GoesByWords world)
    (hverbs : ∀ verb ∈ l.grammar.verbs, v ∈ verb.words ↔ v' ∈ verb.words) :
    l.choose world (v :: rest) = l.choose world (v' :: rest) := by
  have hcandidates : l.candidates (v :: rest) = l.candidates (v' :: rest) := by
    rw [candidates, candidates, Grammar.rulesCalled, Grammar.rulesCalled]
    congr 1
    refine List.filter_congr fun e he => ?_
    rw [decide_eq_decide]
    exact hverbs e.1 (List.fst_mem_of_mem_zipIdx he)
  have hexcuse : l.grammar.excuse (v :: rest) = l.grammar.excuse (v' :: rest) := by
    rw [Grammar.excuse, Grammar.excuse]
    exact if_congr (exists_congr fun verb => and_congr_right fun hverb => hverbs verb hverb) rfl rfl
  -- both inputs are what follows the verb, with one word in front
  have htries : ∀ r : Rule, ∀ w : String,
      r.attempt (l.grammar.registry.resolves world) ((w :: rest).map .text) 1 =
        r.attempt (l.grammar.registry.resolves world) (rest.map .text) 0 := fun r w =>
    r.attempt_append_left (fun _ _ => Registry.looksAhead h) [.text w] (rest.map .text)
  have hsearch :
      tryRules (l.grammar.registry.resolves world) ((v :: rest).map .text)
          (l.candidates (v' :: rest)) =
        tryRules (l.grammar.registry.resolves world) ((v' :: rest).map .text)
          (l.candidates (v' :: rest)) :=
    tryRules_congr fun c _ => (htries c.2 v).trans (htries c.2 v').symm
  rw [choose_eq, choose_eq, hcandidates, hexcuse, hsearch]

/-- An interpretation of a command in other words, where the same choice is made. -/
theorem logged_of_choose_eq {command command' : Document} {ws ws' : List String}
    (h : Command.normalize command l.articles = .ok ws)
    (h' : Command.normalize command' l.articles = .ok ws')
    (hchoose : l.choose world ws = l.choose world ws') :
    l.logged world command' = ((l.logged world command).1.map fun i =>
      { i with command := command', words := ws' }, (l.logged world command).2) := by
  rcases hfound : l.choose world ws' with f | ⟨trace, cause | choice⟩
  · rw [logged_of_choose_error h' hfound, logged_of_choose_error h (hchoose.trans hfound)]
    rfl
  · rw [logged_of_unmatched h' hfound, logged_of_unmatched h (hchoose.trans hfound)]
    rfl
  · rw [logged_of_matched h' hfound, logged_of_matched h (hchoose.trans hfound)]
    cases choice.rule.action.run choice.params <;> rfl

/-- **The words before the start never matter.** Let all resolvers of a registry go by words. Then
an attempt at any rule from a place on has the same verdict as the attempt on the words from there
on alone. Consequently two words that call the same verbs are synonyms: with either of them in front
of the same words, the listener makes the same attempts, chooses the same rule with the same values
or none for the same cause, and calls the same action; only the words themselves differ. -/
theorem locality (registry : Registry) (world : Option World)
    (hregistry : ∀ e ∈ registry, e.2.GoesByWords world) :
    (∀ (r : Rule) (before input : List Document),
      r.attempt (registry.resolves world) (before ++ input) before.length =
        r.attempt (registry.resolves world) input 0) ∧
    ∀ (l : Listener), l.grammar.registry = registry → ∀ (v v' : String) (rest : List String),
      Command.normalize (.text v) l.articles = .ok [v] →
      Command.normalize (.text v') l.articles = .ok [v'] →
      Command.normalize (.list (rest.map .text)) l.articles = .ok rest →
      (∀ verb ∈ l.grammar.verbs, v ∈ verb.words ↔ v' ∈ verb.words) →
      l.logged world (.list ((v' :: rest).map .text)) =
        ((l.logged world (.list ((v :: rest).map .text))).1.map fun i =>
            { i with command := .list ((v' :: rest).map .text), words := v' :: rest },
          (l.logged world (.list ((v :: rest).map .text))).2) := by
  refine ⟨fun r before input => ?_, ?_⟩
  · exact r.attempt_append_left (fun _ _ => Registry.looksAhead hregistry) before input
  · rintro l rfl v v' rest hv hv' hrest hverbs
    exact logged_of_choose_eq (Command.normalize_cons hv hrest) (Command.normalize_cons hv' hrest)
      (choose_congr hregistry hverbs)

end Listener

namespace Parlour

/-- A listener for the parlour in which *hand* and *offer* are one verb, and *drop* another. -/
def host : Listener where
  grammar := ⟨[⟨["hand", "offer"], [giveTo]⟩, ⟨["drop"], [giveAway]⟩], registry⟩
  articles := [.text "the"]
  notUnderstood := .text Listener.defaultNotUnderstood

end Parlour

open Parlour in
/-- Offering the key to the man is handing the key over to him. -/
theorem Listener.locality_hand_offer :
    (∀ e ∈ host.grammar.registry, e.2.GoesByWords (some (.ofObjects [key, man]))) ∧
      Command.normalize (.text "hand") host.articles = .ok ["hand"] ∧
      Command.normalize (.text "offer") host.articles = .ok ["offer"] ∧
      Command.normalize (.list (["key", "to", "man"].map .text)) host.articles =
        .ok ["key", "to", "man"] ∧
      (∀ verb ∈ host.grammar.verbs, "hand" ∈ verb.words ↔ "offer" ∈ verb.words) ∧
      (host.logged (some (.ofObjects [key, man]))
          (.list (["offer", "key", "to", "man"].map .text))).2 =
        [⟨give, [.entity (.object key), .entity (.object man)]⟩] := by
  have hregistry : ∀ e ∈ host.grammar.registry,
      e.2.GoesByWords (some (.ofObjects [key, man])) := by
    intro e he
    have hmem : e = (.text "single", .reference .scene) ∨
        e = (.text "style", .phrases ["waltz", "funky chicken"]) := by
      simpa [host, registry] using he
    rcases hmem with rfl | rfl
    · rintro es hes e he
      obtain rfl := Except.ok.inj hes
      obtain ⟨o, -, rfl⟩ := List.mem_map.mp he
      rfl
    · trivial
  have hverbs : ∀ verb ∈ host.grammar.verbs, "hand" ∈ verb.words ↔ "offer" ∈ verb.words := by
    decide
  have hsame := (locality host.grammar.registry (some (.ofObjects [key, man])) hregistry).2 host rfl
    "hand" "offer" ["key", "to", "man"] rfl rfl rfl hverbs
  exact ⟨hregistry, rfl, rfl, rfl, hverbs, congrArg Prod.snd hsame⟩

end TextAdventure
