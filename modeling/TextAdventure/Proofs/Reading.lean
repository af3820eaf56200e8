import TextAdventure.Proofs.Sense

/-!
# Readings

What it means for words to be what a rule says, without a matcher: the words are cut into segments,
one for each token of the rule, in order. A literal reads the segment that is exactly its word; a
symbol reads a segment that has a meaning for it in front of the words after it, and the meanings
are the values of the symbols. `TextAdventure.Reads` says this with one rule per kind of token.

The main statement, `TextAdventure.Rule.attempt_eq_matched_iff`, is that trying a rule succeeds with
some values exactly when there is a reading with these values. Soundness and completeness are one
induction over the tokens, because a resolver's answer is known in both directions
(`TextAdventure.Sense.outcome_eq_resolved_iff`).
-/

namespace TextAdventure

/-- **A reading of words by tokens**, with the values of the symbols among the tokens. Symbols
without a sense read nothing. -/
inductive Reads (sense : String → Option Sense) : List Token → List String → List Value → Prop
  /-- When the tokens run out, so do the words. -/
  | done : Reads sense [] [] []
  /-- A literal reads one word. -/
  | literal {word : String} {tokens : List Token} {rest : List String} {vs : List Value}
      (h : Reads sense tokens rest vs) : Reads sense (.literal word :: tokens) (word :: rest) vs
  /-- A symbol reads a segment that means something to it. -/
  | symbol {name : String} {s : Sense} {tokens : List Token} {segment rest : List String}
      {v : Value} {vs : List Value} (hs : sense name = some s) (hv : s.Takes segment rest v)
      (h : Reads sense tokens rest vs) :
      Reads sense (.symbol name :: tokens) (segment ++ rest) (v :: vs)

namespace Reads

variable {sense : String → Option Sense} {tokens : List Token} {ws : List String} {vs : List Value}

theorem nil_iff : Reads sense [] ws vs ↔ ws = [] ∧ vs = [] := by
  constructor
  · rintro ⟨⟩
    exact ⟨rfl, rfl⟩
  · rintro ⟨rfl, rfl⟩
    exact .done

theorem literal_iff {word : String} :
    Reads sense (.literal word :: tokens) ws vs ↔ ∃ rest, ws = word :: rest ∧
      Reads sense tokens rest vs := by
  constructor
  · rintro ⟨⟩
    exact ⟨_, rfl, ‹_›⟩
  · rintro ⟨rest, rfl, h⟩
    exact .literal h

theorem symbol_iff {name : String} {s : Sense} (hs : sense name = some s) :
    Reads sense (.symbol name :: tokens) ws vs ↔ ∃ segment rest v vs', ws = segment ++ rest ∧
      vs = v :: vs' ∧ s.Takes segment rest v ∧ Reads sense tokens rest vs' := by
  constructor
  · rintro (_ | _ | ⟨hs', hv, h⟩)
    obtain rfl := Option.some.inj (hs.symm.trans hs')
    exact ⟨_, _, _, _, rfl, rfl, hv, h⟩
  · rintro ⟨segment, rest, v, vs', rfl, rfl, hv, h⟩
    exact .symbol hs hv h

end Reads

/-! ### The matcher finds the readings -/

theorem Verdict.after_eq_matched_iff {verdict : Verdict} {v : Value} {vs : List Value} :
    verdict.after v = .matched vs ↔ ∃ vs', vs = v :: vs' ∧ verdict = .matched vs' := by
  cases verdict with
  | matched params => simp [after, eq_comm]
  | failed cause leftover => simp [after]

/-- The word for the cause of a verdict of failure. -/
def Verdict.reason? : Verdict → Option Document
  | .matched _ => none
  | .failed cause _ => some cause.reason

theorem Verdict.reason?_after (verdict : Verdict) (v : Value) :
    (verdict.after v).reason? = verdict.reason? := by
  cases verdict <;> rfl

namespace Match

variable {resolves : String → Option Resolve} {sense : String → Option Sense}

section Steps

/-! One step of the matcher that does not fail, one lemma for each kind of token. -/

variable {input : List Document} {tokens : List Token} {place : Int} {vs : List Value}

theorem tokens_nil_eq_matched_iff :
    Match.tokens resolves input [] place = .ok (.matched vs) ↔
      itemAt? input place = none ∧ vs = [] := by
  rw [Match.tokens, Except.ok.injEq, atEnd]
  cases itemAt? input place with
  | none => simp [eq_comm]
  | some d => simp

theorem tokens_literal_eq_matched_iff {word : String} :
    Match.tokens resolves input (.literal word :: tokens) place = .ok (.matched vs) ↔
      ∃ d, itemAt? input place = some d ∧ d.isText word ∧
        Match.tokens resolves input tokens (place + 1) = .ok (.matched vs) := by
  rw [Match.tokens]
  cases itemAt? input place with
  | none => simp
  | some d =>
    by_cases hd : d.isText word
    · simp [hd]
    · simp [hd]

theorem tokens_symbol_eq_matched_iff {name : String} :
    Match.tokens resolves input (.symbol name :: tokens) place = .ok (.matched vs) ↔
      ∃ resolve v next cursor vs', resolves name = some resolve ∧
        resolve input place = .ok ⟨.resolved v next, cursor⟩ ∧
        Match.tokens resolves input tokens next = .ok (.matched vs') ∧ vs = v :: vs' := by
  rw [Match.tokens]
  constructor
  · intro h
    cases hres : resolves name with
    | none => simp [hres] at h
    | some resolve =>
      rw [hres] at h
      rcases hout : resolve input place with f | ⟨⟨v, next⟩ | cause, cursor⟩
      · simp [hout] at h
      · cases hrun : Match.tokens resolves input tokens next with
        | error f => simp [hout, hrun] at h
        | ok verdict =>
          simp only [hout, hrun, Except.ok.injEq] at h
          obtain ⟨vs', rfl, rfl⟩ := Verdict.after_eq_matched_iff.mp h
          exact ⟨resolve, v, next, cursor, vs', rfl, hout, hrun, rfl⟩
      · simp [hout] at h
  · rintro ⟨resolve, v, next, cursor, vs', hres, hout, hrun, rfl⟩
    simp only [hres, hout, hrun, Verdict.after]

end Steps

/-- **Trying tokens finds the readings** of the words ahead, provided that every symbol among the
tokens has a sense and is resolved by it. -/
theorem tokens_eq_matched_iff (tokens : List Token) (ws : List String) (n : ℕ) (vs : List Value)
    (h : ∀ name ∈ Pattern.symbolsOf tokens, ∃ s, sense name = some s ∧
      resolves name = some s.resolve) :
    Match.tokens resolves (ws.map .text) tokens n = .ok (.matched vs) ↔
      Reads sense tokens (ws.drop n) vs := by
  -- the place moves on with the tokens, and so do the values that are still to come
  induction tokens generalizing n vs with
  | nil =>
    rw [tokens_nil_eq_matched_iff, Reads.nil_iff, itemAt?_words, Option.map_eq_none_iff,
      List.head?_eq_none_iff]
  | cons token tokens ih =>
    cases token with
    | literal word =>
      rw [tokens_literal_eq_matched_iff, itemAt?_words, Reads.literal_iff]
      cases hahead : ws.drop n with
      | nil => simp
      | cons w rest =>
        -- behind the literal, what is ahead is what was behind its first word
        have hrest : ws.drop (n + 1) = rest := drop_add_one hahead
        have hih := ih (n + 1) vs h
        rw [hrest, Int.natCast_add, Int.natCast_one] at hih
        simp [hih]
    | symbol name =>
      obtain ⟨s, hs, hres⟩ := h name (List.mem_cons_self ..)
      have hih := fun m vs' => ih m vs' fun name hname => h name (List.mem_cons_of_mem _ hname)
      rw [tokens_symbol_eq_matched_iff, Reads.symbol_iff hs]
      constructor
      · rintro ⟨resolve, v, next, cursor, vs', hres', hout, hrun, rfl⟩
        obtain rfl := Option.some.inj (hres.symm.trans hres')
        rw [s.resolve_words, Except.ok.injEq, Resolution.mk.injEq] at hout
        obtain ⟨segment, rest, hahead, hv, rfl⟩ := Sense.outcome_eq_resolved_iff.mp hout.1
        rw [← Int.natCast_add, hih, drop_add_length hahead] at hrun
        exact ⟨segment, rest, v, vs', hahead, rfl, hv, hrun⟩
      · rintro ⟨segment, rest, v, vs', hahead, rfl, hv, hreads⟩
        have hout := Sense.outcome_eq_resolved_iff.mpr ⟨segment, rest, hahead, hv, rfl⟩
        rw [← drop_add_length hahead, ← hih, Int.natCast_add] at hreads
        exact ⟨s.resolve, v, n + segment.length, _, vs', hres, by rw [s.resolve_words, hout],
          hreads, rfl⟩

/-- A rule that matches has one value per symbol, whatever the symbols are resolved by. -/
theorem length_of_matched {input : List Document} {tokens : List Token} {place : Int}
    {vs : List Value} (h : Match.tokens resolves input tokens place = .ok (.matched vs)) :
    vs.length = (Pattern.symbolsOf tokens).length := by
  induction tokens generalizing place vs with
  | nil =>
    obtain ⟨-, rfl⟩ := tokens_nil_eq_matched_iff.mp h
    rfl
  | cons token tokens ih =>
    cases token with
    | literal word =>
      obtain ⟨d, -, -, hrun⟩ := tokens_literal_eq_matched_iff.mp h
      exact ih hrun
    | symbol name =>
      obtain ⟨resolve, v, next, cursor, vs', -, -, hrun, rfl⟩ := tokens_symbol_eq_matched_iff.mp h
      rw [Pattern.symbolsOf, List.length_cons, List.length_cons, ih hrun]

/-- **Every attempt has a verdict**, provided that every symbol among the tokens has a sense and is
resolved by it; and a verdict of failure never blames a symbol for lacking a resolver. -/
theorem exists_verdict (tokens : List Token) (ws : List String) (n : ℕ)
    (h : ∀ name ∈ Pattern.symbolsOf tokens, ∃ s, sense name = some s ∧
      resolves name = some s.resolve) :
    ∃ verdict, Match.tokens resolves (ws.map .text) tokens n = .ok verdict ∧
      verdict.reason? ≠ some (.text "unregistered_symbol") := by
  induction tokens generalizing n with
  | nil =>
    refine ⟨_, rfl, ?_⟩
    rw [atEnd]
    split
    · simp [Verdict.reason?, Failure.reason]
    · simp [Verdict.reason?]
  | cons token tokens ih =>
    cases token with
    | literal word =>
      rw [Match.tokens]
      split
      · exact ⟨_, rfl, by simp [Verdict.reason?, Failure.reason]⟩
      · split_ifs
        · exact ih (n + 1) h
        · exact ⟨_, rfl, by simp [Verdict.reason?, Failure.reason]⟩
    | symbol name =>
      obtain ⟨s, -, hres⟩ := h name (List.mem_cons_self ..)
      rw [Match.tokens, hres]
      simp only [s.resolve_words ws n]
      cases hout : s.outcome (ws.map .text) n with
      | refused cause =>
        -- the sense has a cause of its own for refusing, and it is none of the matcher's
        refine ⟨_, rfl, fun hbad => ?_⟩
        have hreason := Sense.reason_of_outcome hout
        have hcause : cause.reason = .text "unregistered_symbol" := Option.some.inj hbad
        rw [hcause] at hreason
        simp at hreason
      | resolved v place =>
        obtain ⟨segment, rest, -, -, rfl⟩ := Sense.outcome_eq_resolved_iff.mp hout
        obtain ⟨verdict, hrun, hreason⟩ := ih (n + segment.length) fun name hname =>
          h name (List.mem_cons_of_mem _ hname)
        rw [Int.natCast_add] at hrun
        simp only [hrun]
        exact ⟨_, rfl, by rwa [Verdict.reason?_after]⟩

end Match

/-- **What matching a rule means**: an attempt at a rule whose symbols have senses succeeds with
some values if and only if the rule reads the words from the place on, to the end, with these
values. -/
theorem Rule.attempt_eq_matched_iff (r : Rule) (registry : Registry) (world : Option World)
    (ws : List String) (start : ℕ) (vs : List Value)
    (h : ∀ name ∈ r.symbols, (registry.sense? world name).isSome) :
    r.attempt (registry.resolves world) (ws.map .text) start = .ok ⟨r, .matched vs⟩ ↔
      Reads (registry.sense? world) r.tokens (ws.drop start) vs := by
  have hsense : ∀ name ∈ Pattern.symbolsOf r.tokens, ∃ s, registry.sense? world name = some s ∧
      registry.resolves world name = some s.resolve := by
    intro name hname
    obtain ⟨s, hs⟩ := Option.isSome_iff_exists.mp (h name hname)
    exact ⟨s, hs, Registry.resolves_of_sense? hs⟩
  rw [← Match.tokens_eq_matched_iff r.tokens ws start vs hsense, attempt]
  cases Match.tokens (registry.resolves world) (ws.map .text) r.tokens start with
  | error f => simp
  | ok verdict => simp

/-! ### A small game

Two objects with a word in common, and a rule for giving one to the other.
-/

/-- An object that is called by some words. -/
def GameObject.called (ws : List String) : GameObject where
  id := .text (Text.spaced ws)
  name := Text.spaced ws
  aliases := []
  description := .text ""
  words := ws

/-- A world of one scene with some objects in it. -/
def World.ofObjects (os : List GameObject) : World where
  title := .text "Untitled"
  scenes := [(.text "room", ⟨.text "room", .text "room", .text "", os⟩)]
  current := .text "room"

namespace Parlour

/-- The first object of the parlour. -/
def key : GameObject := .called ["old", "rusty", "key"]

/-- The second object of the parlour. -/
def man : GameObject := .called ["old", "man"]

/-- A symbol for the objects at hand, and one for two styles of dancing. -/
def registry : Registry :=
  [(.text "single", .reference .scene), (.text "style", .phrases ["waltz", "funky chicken"])]

/-- Names its values one after the other. -/
def give : Action where
  name := "give"
  signature := some [.required "obj", .required "recipient"]
  run := fun vs => .ok (.values vs)

/-- Something is given *to* someone. -/
def giveTo : Rule :=
  ⟨"single \"to\" single", [.symbol "single", .literal "to", .symbol "single"], give, .text "give"⟩

end Parlour

open Parlour in
/-- In `give key to man` the rule reads the key and the man, although both are *old*. -/
theorem Rule.attempt_give_key_to_man :
    (∀ name ∈ giveTo.symbols, (registry.sense? (some (.ofObjects [key, man])) name).isSome) ∧
      Reads (registry.sense? (some (.ofObjects [key, man]))) giveTo.tokens ["key", "to", "man"]
        [.entity (.object key), .entity (.object man)] := by
  have h : ∀ name ∈ giveTo.symbols,
      (registry.sense? (some (.ofObjects [key, man])) name).isSome := by decide
  exact ⟨h, (attempt_eq_matched_iff giveTo registry (some (.ofObjects [key, man]))
    ["give", "key", "to", "man"] 1 _ h).mp rfl⟩

end TextAdventure
