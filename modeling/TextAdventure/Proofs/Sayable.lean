import TextAdventure.Proofs.Composition
import TextAdventure.Proofs.Exactness
import TextAdventure.Proofs.Loading

/-!
# What can be said

A listener hears the words of a command only in normal form: in lower case, without blanks, and with
the articles left out. All lists of such words can be said
(`TextAdventure.Command.exists_normalize_iff`), and nothing else ever reaches a grammar. So whatever
part of a grammar waits for another word waits in vain, although the grammar loads without a
complaint. There are two such parts.

* *Literals.* A rule with an article among its literals is dead: no command makes an attempt at it
  succeed, however its symbols are resolved, since no resolver can lead the rule past a literal that
  is not in the input. For rules without symbols nothing else can go wrong, because literals are
  normal but for the articles (`TextAdventure.Listener.succeeds_iff_literals_sayable`).
* *Words of verbs.* A verb is looked up under the first word of a command. Its words are kept in
  lower case, but they may be empty, have blanks in them or be articles, and then no command calls
  the verb by them (`TextAdventure.Listener.calls_iff_sayable`).
-/

namespace TextAdventure

namespace Command

variable {articles ws : List String} {command : Document}

/-- The words of a command of any kind are the words of a text. -/
theorem exists_wordsOf_of_normalize (h : normalize command (articles.map .text) = .ok ws) :
    ∃ s, wordsOf s articles = ws := by
  rw [normalize] at h
  cases hjoined : joined command with
  | error f => simp [hjoined] at h
  | ok command' =>
    simp only [hjoined, Document.texts_map_text] at h
    cases command' with
    | text s => exact ⟨s, Except.ok.inj h⟩
    | _ => simp at h

/-- **What reaches a listener is normal**, whatever kind of command it comes from. -/
theorem isNormal_of_normalize (h : normalize command (articles.map .text) = .ok ws) :
    ∀ w ∈ ws, IsNormal articles w := by
  obtain ⟨s, rfl⟩ := exists_wordsOf_of_normalize h
  exact fun w hw => isNormal_of_mem_wordsOf hw

/-- **What can be said**: exactly the lists of normal words. -/
theorem exists_normalize_iff :
    (∃ s : String, normalize (.text s) (articles.map .text) = .ok ws) ↔
      ∀ w ∈ ws, IsNormal articles w := by
  constructor
  · rintro ⟨s, hs⟩
    exact isNormal_of_normalize hs
  · intro h
    refine ⟨Text.spaced ws, ?_⟩
    rw [normalize_text_of_texts, wordsOf_spaced_eq_self_iff.mpr h]

end Command

/-! ### Literals -/

/-- Tokens match only if their literals are in the input, wherever the symbols between them lead. -/
theorem Match.mem_of_matched {resolves : String → Option Resolve} {input : List Document}
    {tokens : List Token} {place : Int} {vs : List Value}
    (h : Match.tokens resolves input tokens place = .ok (.matched vs)) {word : String}
    (hword : .literal word ∈ tokens) : .text word ∈ input := by
  induction tokens generalizing place vs with
  | nil => exact absurd hword List.not_mem_nil
  | cons token tokens ih =>
    cases token with
    | literal word' =>
      obtain ⟨d, hitem, htext, hrun⟩ := tokens_literal_eq_matched_iff.mp h
      rcases List.mem_cons.mp hword with hhead | hrest
      · obtain rfl := Token.literal.inj hhead
        obtain rfl := Document.isText_iff.mp htext
        rw [itemAt?] at hitem
        split_ifs at hitem
        exact List.mem_of_getElem? hitem
      · exact ih hrun hrest
    | symbol name =>
      obtain ⟨resolve, v, next, cursor, vs', -, -, hrun, -⟩ := tokens_symbol_eq_matched_iff.mp h
      exact ih hrun ((List.mem_cons.mp hword).resolve_left (by simp))

/-- Literals read exactly their words. -/
theorem Reads.literals_iff {sense : String → Option Sense} {words ws : List String}
    {vs : List Value} : Reads sense (words.map .literal) ws vs ↔ ws = words ∧ vs = [] := by
  induction words generalizing ws with
  | nil => exact nil_iff
  | cons word words ih =>
    rw [List.map_cons, literal_iff]
    simp only [ih]
    constructor
    · rintro ⟨rest, rfl, rfl, rfl⟩
      exact ⟨rfl, rfl⟩
    · rintro ⟨rfl, rfl⟩
      exact ⟨words, rfl, rfl, rfl⟩

theorem Pattern.symbolsOf_map_literal (words : List String) :
    symbolsOf (words.map .literal) = [] := by
  induction words with
  | nil => rfl
  | cons word words ih => rw [List.map_cons, symbolsOf, ih]

/-- A rule *succeeds* on the words of a command if an attempt at it matches. The first word has
called the verb, so the attempt begins behind it. -/
def Rule.Succeeds (r : Rule) (resolves : String → Option Resolve) (ws : List String) : Prop :=
  ∃ params, r.attempt resolves (ws.map .text) 1 = .ok ⟨r, .matched params⟩

namespace Rule

variable {r : Rule} {resolves : String → Option Resolve} {ws : List String}

/-- Where a rule succeeds, its literals are among the words. -/
theorem Succeeds.mem (h : r.Succeeds resolves ws) {word : String}
    (hword : .literal word ∈ r.tokens) :
    word ∈ ws := by
  obtain ⟨params, hattempt⟩ := h
  have hmem := Match.mem_of_matched (attempt_eq_ok_iff.mp hattempt) hword
  exact (List.mem_map_of_injective Document.text_injective).mp hmem

/-- A rule of literals succeeds where they are the words behind the first. -/
theorem succeeds_literals_iff {words : List String} (h : r.tokens = words.map .literal) :
    r.Succeeds resolves ws ↔ ws.drop 1 = words := by
  have hread : ∀ params, r.attempt resolves (ws.map .text) 1 = .ok ⟨r, .matched params⟩ ↔
      ws.drop 1 = words ∧ params = [] := by
    intro params
    have hiff : Reads (fun _ => none) (words.map .literal) (ws.drop 1) params ↔ _ :=
      Reads.literals_iff
    rw [attempt_eq_ok_iff, h, ← hiff]
    exact Match.tokens_eq_matched_iff _ ws 1 params (by simp [Pattern.symbolsOf_map_literal])
  simp [Succeeds, hread]

end Rule

namespace Pattern

/-- The literals of a pattern are plain. -/
theorem isPlain_of_literal_mem_compile {p word : String} (h : .literal word ∈ compile p) :
    IsPlain (.literal word) := by
  obtain ⟨part, -, htoken⟩ := List.mem_flatMap.mp h
  rw [tokensOf] at htoken
  split_ifs at htoken
  · obtain ⟨word', hword', heq⟩ := List.mem_map.mp htoken
    obtain rfl := Token.literal.inj heq
    exact isPlain_of_mem_literals hword'
  · simp at htoken

/-- **A literal of a pattern is normal** unless it is an article. -/
theorem isNormal_of_literal_mem_compile {p word : String} {articles : List String}
    (h : .literal word ∈ compile p) (hfree : ∀ article ∈ articles, Text.lower article ≠ word) :
    Command.IsNormal articles word where
  nonempty := (isPlain_of_literal_mem_compile h).1
  noBlank c hc :=
    Text.isInk_iff_not_isBlank.mp
      (isInk_of_isSmallLetter ((isPlain_of_literal_mem_compile h).2 c hc))
  lower := by
    have hletters := (isPlain_of_literal_mem_compile h).2
    rw [Text.lower, Text.lowerChars,
      Text.lowerAfter_eq_self (fun c hc => isSmall_of_isSmallLetter (hletters c hc)),
      String.ofList_toList]
  noArticle := hfree

end Pattern

namespace Listener

variable {resolves : String → Option Resolve} {input : List Document} {world : Option World}
  {trace : List Attempt} {ws : List String}

/-- The trace of a search holds nothing but attempts at the rules that were tried. -/
theorem attempt_of_mem_tryRules {rules : List (ℕ × Rule)} {choice : Option Choice}
    (h : tryRules resolves input rules = .ok (trace, choice)) :
    ∀ a ∈ trace, a.rule.attempt resolves input 1 = .ok a := by
  induction rules generalizing trace with
  | nil =>
    obtain ⟨rfl, -⟩ := Prod.mk.inj (Except.ok.inj h)
    simp
  | cons c rules ih =>
    obtain ⟨number, r⟩ := c
    rw [tryRules] at h
    cases htry : r.attempt resolves input 1 with
    | error f => simp [htry] at h
    | ok a =>
      have ha : a.rule.attempt resolves input 1 = .ok a := by rw [rule_of_attempt htry, htry]
      simp only [htry] at h
      split at h
      · obtain ⟨rfl, -⟩ := Prod.mk.inj (Except.ok.inj h)
        exact fun a' ha' => List.mem_singleton.mp ha' ▸ ha
      · split at h
        · simp at h
        · rename_i trace' choice' hrest
          obtain ⟨rfl, rfl⟩ := Prod.mk.inj (Except.ok.inj h)
          exact List.forall_mem_cons.mpr ⟨ha, ih hrest⟩

/-- The trace of a listener holds nothing but attempts from behind the first word on. -/
theorem attempt_of_mem_trace {l : Listener} {choice : Except NoChoice Choice}
    (h : l.choose world ws = .ok (trace, choice)) :
    ∀ a ∈ trace, l.tried world ws a.rule = .ok a := by
  rw [choose_eq] at h
  split at h
  · simp at h
  · rename_i hsearch
    obtain ⟨rfl, -⟩ := Prod.mk.inj (Except.ok.inj h)
    exact attempt_of_mem_tryRules hsearch
  · rename_i hsearch
    obtain ⟨rfl, -⟩ := Prod.mk.inj (Except.ok.inj h)
    exact attempt_of_mem_tryRules hsearch

/-- **Articles among literals make dead rules, and nothing else does.** Let the articles of a
listener be texts. If a literal of a rule is one of them in lower case, no command makes an attempt
at the rule succeed, however its symbols are resolved, and every attempt at it in a trace is a
failure. A rule of literals only succeeds exactly where they are the words behind the first. So, if
it was made from a pattern and the verb's word can be said, some command makes it succeed if and
only if none of its literals is an article in lower case. -/
theorem succeeds_iff_literals_sayable (l : Listener) (articles : List String)
    (harticles : l.articles = articles.map .text) (r : Rule) :
    (∀ word, .literal word ∈ r.tokens → (∃ article ∈ articles, Text.lower article = word) →
      ∀ command ws, Command.normalize command l.articles = .ok ws →
        (∀ resolves, ¬r.Succeeds resolves ws) ∧
        ∀ world trace choice, l.choose world ws = .ok (trace, choice) →
          ∀ a ∈ trace, a.rule = r → a.isFailure) ∧
    ∀ words : List String, r.tokens = words.map .literal → ∀ resolves,
      (∀ command ws, Command.normalize command l.articles = .ok ws →
        (r.Succeeds resolves ws ↔ ws.drop 1 = words)) ∧
      ∀ v, Command.normalize (.text v) l.articles = .ok [v] →
        (∃ pattern binding name, Rule.make pattern binding name = .ok r) →
        ((∃ s rest, Command.normalize (.text s) l.articles = .ok (v :: rest) ∧
            r.Succeeds resolves (v :: rest)) ↔
          ∀ word ∈ words, ∀ article ∈ articles, Text.lower article ≠ word) := by
  rw [harticles]
  have hdead : ∀ word, .literal word ∈ r.tokens →
      (∃ article ∈ articles, Text.lower article = word) →
        ∀ command ws, Command.normalize command (articles.map .text) = .ok ws →
          ∀ resolves, ¬r.Succeeds resolves ws := by
    rintro word hword ⟨article, harticle, rfl⟩ command ws hws resolves hsucceeds
    exact (Command.isNormal_of_normalize hws _ (hsucceeds.mem hword)).noArticle article harticle rfl
  refine ⟨fun word hword harticle command ws hws =>
    ⟨hdead word hword harticle command ws hws, ?_⟩, fun words hwords resolves =>
    ⟨fun _ _ _ => Rule.succeeds_literals_iff hwords,
      fun v hv ⟨_, _, _, hmake⟩ => ⟨?_, fun hfree => ?_⟩⟩⟩
  · rintro world trace choice hchoose ⟨rule, params | ⟨cause, leftover⟩⟩ ha rfl
    · exact absurd ⟨params, attempt_of_mem_trace hchoose _ ha⟩
        (hdead word hword harticle command ws hws _)
    · rfl
  · rintro ⟨s, rest, hs, hsucceeds⟩ word hword article harticle heq
    have hmem : .literal word ∈ r.tokens := hwords ▸ List.mem_map_of_mem hword
    exact hdead word hmem ⟨article, harticle, heq⟩ _ _ hs resolves hsucceeds
  · -- the verb's word and the literals are said one after the other
    have hnormal : ∀ w ∈ v :: words, Command.IsNormal articles w := by
      refine List.forall_mem_cons.mpr
        ⟨Command.isNormal_of_normalize hv v (List.mem_singleton_self v), fun word hword => ?_⟩
      have hmem : .literal word ∈ Pattern.compile r.pattern :=
        Rule.tokens_of_make hmake ▸ hwords ▸ List.mem_map_of_mem hword
      exact Pattern.isNormal_of_literal_mem_compile hmem (hfree word hword)
    obtain ⟨s, hs⟩ := Command.exists_normalize_iff.mpr hnormal
    exact ⟨s, words, hs, (Rule.succeeds_literals_iff hwords).mpr rfl⟩

end Listener

namespace Parlour

/-- Goes up. -/
def climb : Action where
  name := "climb"
  signature := some []
  run _ := .ok (.value (.document .null))

/-- One climbs by a pattern without symbols. -/
def climbing (pattern : String) : Rule := ⟨pattern, Pattern.compile pattern, climb, .text "climb"⟩

end Parlour

open Parlour in
/-- In the parlour *the* is an article. So nobody ever climbs by a rule for *up the stairs*, but one
does by a rule for *up stairs*, which takes *go up the stairs*, too. -/
theorem Listener.climbing_up_stairs :
    listener.articles = ["the"].map .text ∧
      (.literal "the" ∈ (climbing "\"up the stairs\"").tokens ∧
        (∃ article ∈ ["the"], Text.lower article = "the") ∧
        ∀ s ws, Command.normalize (.text s) listener.articles = .ok ws →
          ¬(climbing "\"up the stairs\"").Succeeds (fun _ => none) ws) ∧
      (climbing "\"up stairs\"").tokens = ["up", "stairs"].map .literal ∧
      Command.normalize (.text "go") listener.articles = .ok ["go"] ∧
      (∃ pattern binding name, Rule.make pattern binding name = .ok (climbing "\"up stairs\"")) ∧
      ∃ s rest, Command.normalize (.text s) listener.articles = .ok ("go" :: rest) ∧
        (climbing "\"up stairs\"").Succeeds (fun _ => none) ("go" :: rest) := by
  have harticles : listener.articles = ["the"].map .text := rfl
  have hthe : .literal "the" ∈ (climbing "\"up the stairs\"").tokens := by decide +kernel
  have harticle : ∃ article ∈ ["the"], Text.lower article = "the" := by decide +kernel
  have htokens : (climbing "\"up stairs\"").tokens = ["up", "stairs"].map .literal := by
    decide +kernel
  have hgo : Command.normalize (.text "go") listener.articles = .ok ["go"] := rfl
  have hmake : Rule.make (.text "\"up stairs\"") (.action climb) (.text "climb") =
      .ok (climbing "\"up stairs\"") := rfl
  obtain ⟨hdead, -⟩ := succeeds_iff_literals_sayable listener ["the"] harticles
    (climbing "\"up the stairs\"")
  obtain ⟨-, halive⟩ := succeeds_iff_literals_sayable listener ["the"] harticles
    (climbing "\"up stairs\"")
  refine ⟨harticles, ⟨hthe, harticle, fun s ws hws => (hdead _ hthe harticle _ ws hws).1 _⟩,
    htokens, hgo, ⟨_, _, _, hmake⟩, ?_⟩
  exact ((halive _ htokens _).2 "go" hgo ⟨_, _, _, hmake⟩).mpr (by decide +kernel)

/-! ### Words of verbs -/

/-- **When a verb can be made**: if its words are texts, and there are some. They are kept in lower
case. -/
theorem Verb.ofWords_eq_ok_iff {words : List Document} {rules : List Rule} {v : Verb} :
    ofWords words rules = .ok v ↔
      ∃ ss : List String, words = ss.map .text ∧ ss ≠ [] ∧ v = ⟨ss.map Text.lower, rules⟩ := by
  rw [ofWords, bind_eq_ok_iff]
  constructor
  · rintro ⟨ss, hss, h⟩
    refine ⟨ss, Document.texts_eq_ok_iff.mp hss, ?_⟩
    cases ss with
    | nil => simp at h
    | cons s ss => exact ⟨by simp, (Except.ok.inj h).symm⟩
  · rintro ⟨ss, rfl, hne, rfl⟩
    refine ⟨ss, Document.texts_map_text _ ss, ?_⟩
    cases ss with
    | nil => exact absurd rfl hne
    | cons s ss => rfl

/-- The verbs that a word calls are those that have it. -/
theorem Grammar.mem_verbsFor_iff {g : Grammar} {word : String} {number : ℕ} {v : Verb} :
    (number, v) ∈ g.verbsFor word ↔ g.verbs[number]? = some v ∧ word ∈ v.words := by
  rw [verbsFor, calledFrom_eq, List.mem_map]
  simp only [Prod.exists, Prod.swap_prod_mk, Prod.mk.injEq, List.mem_filter, decide_eq_true_eq,
    List.mk_mem_zipIdx_iff_getElem?]
  constructor
  · rintro ⟨v, number, h, rfl, rfl⟩
    exact h
  · exact fun h => ⟨v, number, h, rfl, rfl⟩

/-- A word without blanks, said on its own, is heard in lower case. -/
theorem Command.normalize_eq_lower {articles : List String} {w : String} (hne : Text.lower w ≠ "")
    (hblank : ∀ c ∈ (Text.lower w).toList, ¬Text.isBlank c)
    (hfree : ∀ article ∈ articles, Text.lower article ≠ Text.lower w) :
    normalize (.text w) (articles.map .text) = .ok [Text.lower w] := by
  rw [normalize_text_of_texts, wordsOf_eq, ← Text.words_lower, Text.words_eq_singleton hne hblank,
    List.filter_eq_self.mpr fun u hu => not_isArticle_iff.mpr (List.mem_singleton.mp hu ▸ hfree)]

/-- **A word calls a verb** of a listener, the one of a number, if there is a command by which the
listener comes to look for the verbs with this word: the word is the first that is left of the
command, the verb is found under it, and so the rules of the verb compete for the command. -/
def Listener.Calls (l : Listener) (word : String) (number : ℕ) (v : Verb) : Prop :=
  ∃ command rest, Command.normalize command l.articles = .ok (word :: rest) ∧
    (number, v) ∈ l.grammar.verbsFor word ∧ ∀ r ∈ v.rules, (number, r) ∈ l.candidates (word :: rest)

/-- **Which words call a verb.** Let a verb be made from some words and stand in the grammar of a
listener whose articles are texts. Each of its words, in lower case, calls it if and only if in
lower case the word is not empty, has no white space in it and is no article in lower case. -/
theorem Listener.calls_iff_sayable (l : Listener) (articles : List String)
    (harticles : l.articles = articles.map .text) {words : List Document} {rules : List Rule}
    {v : Verb} (hv : Verb.ofWords words rules = .ok v) {number : ℕ}
    (hnumber : l.grammar.verbs[number]? = some v) {w : String} (hw : .text w ∈ words) :
    l.Calls (Text.lower w) number v ↔
      Text.lower w ≠ "" ∧ (∀ c ∈ (Text.lower w).toList, ¬Text.isBlank c) ∧
        ∀ article ∈ articles, Text.lower article ≠ Text.lower w := by
  constructor
  · rintro ⟨command, rest, hnormalize, -, -⟩
    rw [harticles] at hnormalize
    have hnormal := Command.isNormal_of_normalize hnormalize _ (List.mem_cons_self ..)
    exact ⟨hnormal.nonempty, hnormal.noBlank, hnormal.noArticle⟩
  · rintro ⟨hne, hblank, hfree⟩
    obtain ⟨ss, rfl, -, rfl⟩ := Verb.ofWords_eq_ok_iff.mp hv
    have hword : Text.lower w ∈ ss.map Text.lower :=
      List.mem_map_of_mem ((List.mem_map_of_injective Document.text_injective).mp hw)
    have hcalled := Grammar.mem_verbsFor_iff.mpr ⟨hnumber, hword⟩
    have halone := Command.normalize_eq_lower hne hblank hfree
    refine ⟨.text w, [], harticles ▸ halone, hcalled, fun r hr => ?_⟩
    rw [candidates, ← Grammar.rulesOf_verbsFor, rulesOf]
    exact List.mem_flatMap.mpr ⟨_, hcalled, List.mem_map_of_mem hr⟩

namespace Parlour

/-- The words of a verb for handing something over, as an author writes them. -/
def handWords : List Document := [.text "Hand over", .text "The", .text "\u212Aeep"]

/-- A verb for handing something over. -/
def handOver : Verb := ⟨["hand over", "the", "keep"], [giveTo]⟩

/-- A listener for handing something over. -/
def clerk : Listener := { listener with grammar := ⟨[handOver], registry⟩ }

end Parlour

open Parlour in
/-- The verb is never called by two words or by an article, but by the word that begins with the
Kelvin sign. -/
theorem Listener.calls_keep :
    clerk.articles = ["the"].map .text ∧ Verb.ofWords handWords [giveTo] = .ok handOver ∧
      clerk.grammar.verbs[0]? = some handOver ∧
      (.text "Hand over" ∈ handWords ∧ ¬clerk.Calls "hand over" 0 handOver) ∧
      (.text "The" ∈ handWords ∧ ¬clerk.Calls "the" 0 handOver) ∧
      .text "\u212Aeep" ∈ handWords ∧ clerk.Calls "keep" 0 handOver := by
  have harticles : clerk.articles = ["the"].map .text := rfl
  have hverb : Verb.ofWords handWords [giveTo] = .ok handOver := rfl
  have hnumber : clerk.grammar.verbs[0]? = some handOver := rfl
  have htwo : .text "Hand over" ∈ handWords := by simp [handWords]
  have harticle : .text "The" ∈ handWords := by simp [handWords]
  have hkeep : .text "\u212Aeep" ∈ handWords := by simp [handWords]
  have hlowerTwo : Text.lower "Hand over" = "hand over" := by decide +kernel
  have hlowerThe : Text.lower "The" = "the" := by decide +kernel
  have hlowerKeep : Text.lower "\u212Aeep" = "keep" := by decide +kernel
  have hiff := fun {w} => calls_iff_sayable (w := w) clerk ["the"] harticles hverb hnumber
  refine ⟨harticles, hverb, hnumber, ⟨htwo, fun h => ?_⟩, ⟨harticle, fun h => ?_⟩, hkeep, ?_⟩
  · rw [← hlowerTwo, hiff htwo, hlowerTwo] at h
    exact h.2.1 ' ' (by decide) (by decide)
  · rw [← hlowerThe, hiff harticle] at h
    exact h.2.2 "the" (List.mem_singleton_self _) (by decide +kernel)
  · rw [← hlowerKeep, hiff hkeep, hlowerKeep]
    have hblankless : "keep".toList.all fun c => !Text.isBlank c := by decide +kernel
    refine ⟨by decide, fun c hc => ?_, by decide +kernel⟩
    simpa using List.all_eq_true.mp hblankless c hc

end TextAdventure
