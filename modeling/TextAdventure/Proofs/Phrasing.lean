import TextAdventure.Action.Storeroom
import TextAdventure.Proofs.Naming

/-!
# Saying a phrase in full

A game lists phrases that a symbol may stand for, and a player who knows the list will say one of
them word by word. There are two ways in which this can fail to mean the phrase.

* The listener leaves articles out of a command, and the phrases keep theirs. A phrase with an
  article among its words is never said by a command.
* The first phrase that fits is meant, and not the longest. A phrase that is declared before and is
  the beginning of another one hides it: it is read in its place, and words are left over.

There is no third way. A phrase is kept as its words joined by spaces and is cut into the same words
again (`TextAdventure.Phrase.words_canonical`), so phrases with the same words are one phrase, and
those among them that come later can be said because the first can. The list opens with the first of
them if nothing before hides it (`TextAdventure.Phrase.exists_opens_iff`); the main statement,
`TextAdventure.Listener.interpret_phrase`, is what this comes to for a verb whose only rule is a
symbol for the phrases.
-/

namespace TextAdventure

namespace Phrase

/-- The words of a phrase, in lower case. -/
def wordsOf (s : String) : List String := Text.words (Text.lower s)

/-- The phrases that are kept are those of the texts that were given, in order. -/
theorem ofDocuments_eq_ok_iff {ds : List Document} {known : List String} :
    ofDocuments ds = .ok known ↔
      ∃ ss : List String, ds = ss.map .text ∧ known = ss.map canonical := by
  rw [ofDocuments]
  constructor
  · intro h
    split at h
    · rename_i ss hss
      obtain rfl := Except.ok.inj h
      exact ⟨ss, Document.texts_eq_ok_iff.mp hss, rfl⟩
    · simp at h
  · rintro ⟨ss, rfl, rfl⟩
    rw [Document.texts_map_text]

/-- A phrase as it is kept has the words that it had. -/
theorem words_canonical (s : String) : Text.words (canonical s) = wordsOf s :=
  Text.words_spaced_words _

theorem canonical_eq_of_wordsOf_eq {s t : String} (h : wordsOf s = wordsOf t) :
    canonical s = canonical t := congrArg Text.spaced h

/-- A command that is a phrase has the words of the phrase but for the articles. -/
theorem wordsOf_command (s : String) (articles : List String) :
    Command.wordsOf s articles = (wordsOf s).filter fun w => !Command.isArticle articles w := by
  rw [Command.wordsOf_eq, wordsOf, Text.words_lower]

/-- A phrase *hides* another one if it is shorter and the other begins with it. -/
def Hides (s t : String) : Prop :=
  wordsOf s <+: wordsOf t ∧ (wordsOf s).length < (wordsOf t).length

instance (s t : String) : Decidable (Hides s t) :=
  inferInstanceAs (Decidable (wordsOf s <+: wordsOf t ∧ (wordsOf s).length < (wordsOf t).length))

/-- The phrases of a list that are declared before the first one with the words of a given phrase.
-/
def declaredBefore (s : String) (ss : List String) : List String :=
  ss.takeWhile fun t => wordsOf t ≠ wordsOf s

/-- A phrase that begins another one hides it or has the same words. -/
theorem hides_of_begins {s t : String} (h : wordsOf s <+: wordsOf t) (hne : wordsOf s ≠ wordsOf t) :
    Hides s t := by
  refine ⟨h, lt_of_le_of_ne h.length_le fun hlength => ?_⟩
  exact hne (h.eq_of_length hlength)

/-- Where the first phrase with some words stands, there the phrases declared before it end. -/
theorem declaredBefore_eq {before after : List String} {s first : String}
    (hfirst : wordsOf first = wordsOf s) (hbefore : ∀ t ∈ before, wordsOf t ≠ wordsOf s) :
    declaredBefore s (before ++ first :: after) = before := by
  rw [declaredBefore, List.takeWhile_append_of_pos fun t ht => decide_eq_true (hbefore t ht),
    List.takeWhile_cons_of_neg (by simpa using hfirst), List.append_nil]

/-- Behind the phrases declared before there is a first phrase with the words of a given one. -/
theorem exists_eq_declaredBefore_append {ss : List String} {s : String} (h : s ∈ ss) :
    ∃ first rest, ss = declaredBefore s ss ++ first :: rest ∧ wordsOf first = wordsOf s := by
  have hsplit := List.takeWhile_append_dropWhile (p := fun t => wordsOf t ≠ wordsOf s) (l := ss)
  cases hback : ss.dropWhile fun t => wordsOf t ≠ wordsOf s with
  | nil =>
    -- the list holds the phrase itself
    have hall := List.dropWhile_eq_nil_iff.mp hback s h
    simp at hall
  | cons first rest =>
    have hhead := List.head?_dropWhile_not (fun t => decide (wordsOf t ≠ wordsOf s)) ss
    rw [hback, List.head?_cons] at hhead
    rw [hback] at hsplit
    exact ⟨first, rest, hsplit.symm, by simpa using hhead⟩

theorem ne_of_mem_declaredBefore {ss : List String} {s t : String} (h : t ∈ declaredBefore s ss) :
    wordsOf t ≠ wordsOf s := by
  simpa using List.mem_takeWhile_imp h

/-- Among the words of a phrase of the list, with nothing behind them, the phrase opens unless one
that is declared before the first with its words hides it. -/
theorem exists_opens_iff {ss : List String} {s : String} (h : s ∈ ss) :
    Opens (ss.map canonical) (canonical s) (wordsOf s) [] ↔
      ∀ t ∈ declaredBefore s ss, ¬Hides t s := by
  constructor
  · rintro ⟨-, before, after, hknown, hfirst⟩ t ht ⟨hpre, -⟩
    rw [List.append_nil] at hfirst
    -- what is before the phrase in the list that is kept has words of its own
    obtain ⟨front, back, rfl, rfl, hback⟩ := List.map_eq_append_iff.mp hknown
    obtain ⟨first, rest, rfl, hfirst', -⟩ := List.map_eq_cons_iff.mp hback
    have hwords : wordsOf first = wordsOf s := by
      rw [← words_canonical, ← words_canonical, hfirst']
    have hfront : ∀ u ∈ front, wordsOf u ≠ wordsOf s := by
      intro u hu hsame
      refine hfirst (canonical u) (List.mem_map_of_mem hu) ⟨[], ?_⟩
      rw [List.append_nil, words_canonical, hsame]
    rw [declaredBefore_eq hwords hfront] at ht
    refine hfirst (canonical t) (List.mem_map_of_mem ht) ?_
    rwa [words_canonical]
  · intro hfree
    obtain ⟨first, rest, hsplit, hwords⟩ := exists_eq_declaredBefore_append h
    refine ⟨(words_canonical s).symm, (declaredBefore s ss).map canonical, rest.map canonical,
      ?_, ?_⟩
    · rw [← canonical_eq_of_wordsOf_eq hwords, ← List.map_cons, ← List.map_append]
      exact congrArg (List.map canonical) hsplit
    · refine List.forall_mem_map.mpr fun t ht hpre => ?_
      rw [words_canonical, List.append_nil] at hpre
      exact hfree t ht (hides_of_begins hpre (ne_of_mem_declaredBefore ht))

end Phrase

/-! ### A symbol for phrases on its own -/

/-- A symbol that stands for phrases has them for a sense, in whatever world. -/
theorem Registry.sense?_phrases {registry : Registry} {name : String} {known : List String}
    (h : Table.get? (.text name) registry = some (.phrases known)) (world : Option World) :
    registry.sense? world name = some (.phrases known) := by
  rw [sense?, h]

namespace Match

section Lone

variable {registry : Registry} {name : String} {known ws : List String} {n : ℕ}

variable (ws n) in
/-- **A lone symbol for phrases** is matched by the words ahead exactly if they are, to the last,
the phrase that is meant. -/
theorem tokens_lone_phrase_iff (h : Table.get? (.text name) registry = some (.phrases known))
    (world : Option World) (vs : List Value) :
    Match.tokens (registry.resolves world) (ws.map .text) [.symbol name] n = .ok (.matched vs) ↔
      ∃ p, vs = [.document (.text p)] ∧ Phrase.Opens known p (ws.drop n) [] := by
  have hsense := Registry.sense?_phrases h world
  have hres := Registry.resolves_of_sense? hsense
  have hsenses : ∀ name' ∈ Pattern.symbolsOf [.symbol name], ∃ s,
      registry.sense? world name' = some s ∧ registry.resolves world name' = some s.resolve := by
    intro name' hname'
    obtain rfl := List.mem_singleton.mp hname'
    exact ⟨_, hsense, hres⟩
  rw [tokens_eq_matched_iff _ ws n vs hsenses, Reads.symbol_iff hsense]
  constructor
  · rintro ⟨segment, rest, v, vs', hahead, rfl, ⟨p, rfl, hopens⟩, hrest⟩
    obtain ⟨rfl, rfl⟩ := Reads.nil_iff.mp hrest
    rw [List.append_nil] at hahead
    exact ⟨p, rfl, hahead ▸ hopens⟩
  · rintro ⟨p, rfl, hopens⟩
    exact ⟨_, [], _, [], (List.append_nil _).symm, rfl, ⟨p, rfl, hopens⟩, .done⟩

variable (ws n) in
/-- On words, a lone symbol for phrases always has a verdict. -/
theorem exists_verdict_lone_phrase
    (h : Table.get? (.text name) registry = some (.phrases known)) (world : Option World) :
    ∃ verdict, Match.tokens (registry.resolves world) (ws.map .text) [.symbol name] n =
      .ok verdict := by
  have hsense := Registry.sense?_phrases h world
  have hsenses : ∀ name' ∈ Pattern.symbolsOf [.symbol name], ∃ s,
      registry.sense? world name' = some s ∧ registry.resolves world name' = some s.resolve := by
    intro name' hname'
    obtain rfl := List.mem_singleton.mp hname'
    exact ⟨_, hsense, Registry.resolves_of_sense? hsense⟩
  obtain ⟨verdict, hrun, -⟩ := exists_verdict [.symbol name] ws n hsenses
  exact ⟨verdict, hrun⟩

end Lone

end Match

/-- No word of a list is an article exactly if leaving articles out leaves it as it is. -/
theorem Command.filter_isArticle_eq_self_iff {ws articles : List String} :
    (ws.filter fun w => !isArticle articles w) = ws ↔
      ∀ w ∈ ws, ∀ article ∈ articles, Text.lower article ≠ w := by
  simp only [List.filter_eq_self, not_isArticle_iff]

namespace Listener

variable {verb : Verb} {r : Rule} {word name phrase : String} {known : List String}

/-- **When a phrase of a list can be said.** Let a symbol stand for the phrases that a list of
documents gives, and say a word followed by one of the phrases. If the word calls a single verb, and
the verb's only rule is the symbol, then that rule is tried and nothing else. It matches with the
phrase, as it is kept, if and only if no word of the phrase is an article in lower case, and no
phrase declared before the first one with the same words is shorter and begins the phrase. -/
theorem interpret_phrase (l : Listener) (world : Option World) {ds : List Document}
    (hphrases : Phrase.ofDocuments ds = .ok known) (hphrase : .text phrase ∈ ds)
    (hword : Command.normalize (.text word) l.articles = .ok [word])
    (hverb : (l.grammar.verbs.filter fun v => word ∈ v.words) = [verb])
    (hrule : verb.rules = [r]) (htokens : r.tokens = [.symbol name])
    (hsymbol : Table.get? (.text name) l.grammar.registry = some (.phrases known)) :
    ∃ (ss articles ws : List String) (number : ℕ) (verdict : Verdict),
      ds = ss.map .text ∧ l.articles = articles.map .text ∧
      Command.normalize (.text phrase) l.articles = .ok ws ∧
      l.grammar.verbs[number]? = some verb ∧
      l.interpret world (.text (word ++ " " ++ phrase)) =
        (concludeWith Action.run (verdict.choice number r)).map
          (⟨.text (word ++ " " ++ phrase), word :: ws, [⟨r, verdict⟩], ·⟩) ∧
      (verdict = .matched [.document (.text (Text.spaced (Phrase.wordsOf phrase)))] ↔
        (∀ w ∈ Phrase.wordsOf phrase, ∀ article ∈ articles, Text.lower article ≠ w) ∧
          ∀ s ∈ Phrase.declaredBefore phrase ss, ¬Phrase.Hides s phrase) := by
  obtain ⟨ss, rfl, rfl⟩ := Phrase.ofDocuments_eq_ok_iff.mp hphrases
  obtain ⟨articles, harticles, hwords⟩ := Command.normalize_text_eq_ok_iff.mp hword
  obtain ⟨ws, hws⟩ : ∃ ws, Command.wordsOf phrase articles = ws := ⟨_, rfl⟩
  have hcommand : Command.normalize (.text (word ++ " " ++ phrase)) l.articles =
      .ok (word :: ws) := by
    refine Command.normalize_text_eq_ok_iff.mpr ⟨articles, harticles, ?_⟩
    rw [Command.wordsOf_append_space, hwords, hws, List.singleton_append]
  have hmem : phrase ∈ ss := by simpa using hphrase
  obtain ⟨number, hnumber, hinterpret⟩ := interpret_of_lone world hverb hrule
  rw [htokens] at hinterpret
  obtain ⟨verdict, hrun⟩ := Match.exists_verdict_lone_phrase (word :: ws) 1 hsymbol world
  refine ⟨ss, articles, ws, number, verdict, rfl, Document.texts_eq_ok_iff.mp harticles,
    Command.normalize_text_eq_ok_iff.mpr ⟨articles, harticles, hws⟩, hnumber,
    hinterpret _ ws _ hcommand hrun, ?_⟩
  -- the verdict is the one on the words of the phrase but for the articles
  have hiff := Match.tokens_lone_phrase_iff (word :: ws) 1 hsymbol world
    [.document (.text (Phrase.canonical phrase))]
  rw [hrun, Except.ok.injEq, List.drop_one, List.tail_cons] at hiff
  rw [Phrase.wordsOf_command] at hws
  have hkept : Text.spaced (Phrase.wordsOf phrase) = Phrase.canonical phrase := rfl
  rw [hkept, hiff, ← Command.filter_isArticle_eq_self_iff, hws]
  constructor
  · rintro ⟨p, hp, hopens⟩
    obtain rfl : Phrase.canonical phrase = p := by simpa using hp
    have hall : ws = Phrase.wordsOf phrase := hopens.words.trans (Phrase.words_canonical phrase)
    rw [hall] at hopens
    exact ⟨hall, (Phrase.exists_opens_iff hmem).mp hopens⟩
  · rintro ⟨hall, hfree⟩
    refine ⟨_, rfl, ?_⟩
    rw [hall]
    exact (Phrase.exists_opens_iff hmem).mpr hfree

end Listener

namespace Ballroom

/-- Styles of dancing, as an author lists them. -/
def styles : List Document :=
  [.text "Funky", .text "Waltz", .text "funky  Chicken", .text "The twist"]

/-- The styles as they are kept. -/
def known : List String := ["funky", "waltz", "funky chicken", "the twist"]

/-- Dancing in a style. -/
def danceStyle : Rule :=
  ⟨"style", [.symbol "style"], Action.danceWithStyle, .text "dance_with_style"⟩

/-- Somebody to dance with, to whom an article means nothing. -/
def partner : Listener where
  grammar := ⟨[⟨["dance"], [danceStyle]⟩], [(.text "style", .phrases known)]⟩
  articles := [.text "The"]
  notUnderstood := .text ""

end Ballroom

open Ballroom in
/-- Of the four styles the waltz can be danced. The funky chicken is hidden by another style, and
the twist has an article in its name. -/
theorem Listener.interpret_dance_styles :
    Phrase.ofDocuments styles = .ok known ∧
      Command.normalize (.text "dance") partner.articles = .ok ["dance"] ∧
      (partner.grammar.verbs.filter fun v => "dance" ∈ v.words) = [⟨["dance"], [danceStyle]⟩] ∧
      Table.get? (.text "style") partner.grammar.registry = some (.phrases known) ∧
      partner.interpret none (.text "dance Waltz") = .ok ⟨.text "dance Waltz", ["dance", "waltz"],
        [⟨danceStyle, .matched [.document (.text "waltz")]⟩],
        .matched ⟨0, danceStyle, [.document (.text "waltz")]⟩
          (Action.say "You dance the waltz very well.")⟩ ∧
      (∃ verdict, verdict ≠ .matched [.document (.text "funky chicken")] ∧
        partner.interpret none (.text "dance funky  Chicken") =
          (concludeWith Action.run (verdict.choice 0 danceStyle)).map
            (⟨.text "dance funky  Chicken", ["dance", "funky", "chicken"],
              [⟨danceStyle, verdict⟩], ·⟩)) ∧
      ∃ verdict, verdict ≠ .matched [.document (.text "the twist")] ∧
        partner.interpret none (.text "dance The twist") =
          (concludeWith Action.run (verdict.choice 0 danceStyle)).map
            (⟨.text "dance The twist", ["dance", "twist"], [⟨danceStyle, verdict⟩], ·⟩) := by
  have hphrases : Phrase.ofDocuments styles = .ok known := rfl
  have hword : Command.normalize (.text "dance") partner.articles = .ok ["dance"] := rfl
  have hverb : (partner.grammar.verbs.filter fun v => "dance" ∈ v.words) =
      [⟨["dance"], [danceStyle]⟩] := rfl
  have hsymbol : Table.get? (.text "style") partner.grammar.registry = some (.phrases known) := rfl
  have hsay : ∀ phrase, .text phrase ∈ styles → ∃ ws verdict,
      Command.normalize (.text phrase) partner.articles = .ok ws ∧
      partner.interpret none (.text ("dance" ++ " " ++ phrase)) =
        (concludeWith Action.run (verdict.choice 0 danceStyle)).map
          (⟨.text ("dance" ++ " " ++ phrase), "dance" :: ws, [⟨danceStyle, verdict⟩], ·⟩) ∧
      (verdict = .matched [.document (.text (Text.spaced (Phrase.wordsOf phrase)))] ↔
        (∀ w ∈ Phrase.wordsOf phrase, ∀ article ∈ ["The"], Text.lower article ≠ w) ∧
          ∀ s ∈ Phrase.declaredBefore phrase ["Funky", "Waltz", "funky  Chicken", "The twist"],
            ¬Phrase.Hides s phrase) := by
    intro phrase hphrase
    obtain ⟨ss, articles, ws, number, verdict, hss, harticles, hws, hnumber, hinterpret, hiff⟩ :=
      interpret_phrase partner none hphrases hphrase hword hverb rfl rfl hsymbol
    have hinj : Function.Injective (List.map Document.text) :=
      List.map_injective_iff.mpr fun _ _ h => Document.text.inj h
    obtain rfl : ["Funky", "Waltz", "funky  Chicken", "The twist"] = ss := hinj hss
    obtain rfl : ["The"] = articles := hinj harticles
    cases number with
    | zero => exact ⟨ws, verdict, hws, hinterpret, hiff⟩
    | succ number => simp [partner] at hnumber
  refine ⟨hphrases, hword, hverb, hsymbol, ?_, ?_, ?_⟩
  · obtain ⟨ws, verdict, hws, hinterpret, hiff⟩ := hsay "Waltz" (by simp [styles])
    obtain rfl : ["waltz"] = ws := Except.ok.inj hws
    obtain rfl := hiff.mpr (by decide +kernel)
    exact hinterpret
  · obtain ⟨ws, verdict, hws, hinterpret, hiff⟩ := hsay "funky  Chicken" (by simp [styles])
    obtain rfl : ["funky", "chicken"] = ws := Except.ok.inj hws
    refine ⟨verdict, fun h => ?_, hinterpret⟩
    exact (hiff.mp h).2 "Funky" (by decide +kernel) (by decide +kernel)
  · obtain ⟨ws, verdict, hws, hinterpret, hiff⟩ := hsay "The twist" (by simp [styles])
    obtain rfl : ["twist"] = ws := Except.ok.inj hws
    refine ⟨verdict, fun h => ?_, hinterpret⟩
    exact (hiff.mp h).1 "the" (by decide +kernel) "The" (by decide) (by decide +kernel)

end TextAdventure
