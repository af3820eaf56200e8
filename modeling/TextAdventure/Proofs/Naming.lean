import TextAdventure.Proofs.Locality
import TextAdventure.Proofs.Reporting

/-!
# Calling things by their full names

A game shows its objects by their names, so a player will try a name in full. This file says what
comes of it. An object that was read from a document is called by all the words of its name
(`TextAdventure.World.NamesWords.of_ofDocument`), and a command that ends in the name ends in these
words, whatever the name looks like and wherever articles stand in it: names and commands are put in
lower case and cut at their blanks, and both may be done word by word
(`TextAdventure.GameObject.NamesWords.mem_words`).

A reference to words that are all among those of some place of the scope, with nothing behind them,
is never resolved to another place: the place is meant, unless a second one has all the words too,
and then the reference is ambiguous (`TextAdventure.Reference.outcome_of_shared`). The main
statement, `TextAdventure.Listener.interpret_full_name`, is what this comes to for a verb whose only
rule is a symbol for the objects at hand.
-/

namespace TextAdventure

/-! ### The words of an object -/

namespace GameObject

section WordsOf

variable {ws more : List String} {w w' name : String} {aliases : List String}

theorem mem_addWord : w ∈ addWord ws w' ↔ w ∈ ws ∨ w = w' := by
  rw [addWord]
  split_ifs with h
  · -- the word is there
    refine ⟨Or.inl, ?_⟩
    rintro (hw | rfl)
    · exact hw
    · exact List.contains_iff_mem.mp h
  · rw [List.mem_append, List.mem_singleton]

theorem mem_foldl_addWord : w ∈ more.foldl addWord ws ↔ w ∈ ws ∨ w ∈ more := by
  induction more generalizing ws with
  | nil => simp
  | cons w' more ih => rw [List.foldl_cons, ih, mem_addWord, List.mem_cons, or_assoc]

/-- An object is called by the words of its name and of its aliases, and by no others. -/
theorem mem_wordsOf : w ∈ wordsOf name aliases ↔
    w ∈ nameWords name ∨ ∃ other ∈ aliases, w ∈ nameWords other := by
  rw [wordsOf, mem_foldl_addWord, List.mem_flatMap]

end WordsOf

/-- **Objects that go by their names**: their words are those of the name and the aliases. -/
def NamesWords (o : GameObject) : Prop := o.words = wordsOf o.name o.aliases

/-- What a command makes of the name of an object is among the object's words. -/
theorem NamesWords.mem_words {o : GameObject} (h : o.NamesWords) {articles : List String} :
    ∀ w ∈ Command.wordsOf o.name articles, w ∈ o.words := by
  intro w hw
  rw [Command.wordsOf_eq, ← Text.words_lower] at hw
  rw [h, mem_wordsOf]
  exact Or.inl (List.mem_of_mem_filter hw)

theorem NamesWords.of_ofDocument {id data : Document} {o : GameObject}
    (h : ofDocument id data = .ok o) : o.NamesWords := by
  rw [ofDocument, bind_eq_ok_iff] at h
  obtain ⟨fields, -, h⟩ := h
  obtain ⟨ds, -, h⟩ := bind_eq_ok_iff.mp h
  split at h
  · obtain ⟨aliases, -, h⟩ := bind_eq_ok_iff.mp h
    obtain rfl := Except.ok.inj h
    rfl
  · simp at h

end GameObject

namespace Scene

theorem namesWords_of_objectOf {scene d : Document} {number : ℕ} {o : GameObject}
    (h : objectOf scene number d = .ok o) : o.NamesWords := by
  cases d with
  | text s => exact .of_ofDocument h
  | mapping fields => exact .of_ofDocument h
  | _ => simp [objectOf] at h

theorem namesWords_of_objectsOf {scene : Document} {number : ℕ} {ds : List Document}
    {os : List GameObject} (h : objectsOf scene number ds = .ok os) : ∀ o ∈ os, o.NamesWords :=
  forall_of_readAll (objectsOf scene) (fun _ => rfl) (fun _ _ _ => rfl)
    (fun _ _ _ => namesWords_of_objectOf) number h

theorem namesWords_of_ofDocument {id data : Document} {s : Scene}
    (h : ofDocument id data = .ok s) : ∀ o ∈ s.objects, o.NamesWords := by
  rw [ofDocument, bind_eq_ok_iff] at h
  obtain ⟨fields, -, h⟩ := h
  obtain ⟨entries, -, h⟩ := bind_eq_ok_iff.mp h
  obtain ⟨os, hos, h⟩ := bind_eq_ok_iff.mp h
  obtain rfl := Except.ok.inj h
  exact namesWords_of_objectsOf hos

end Scene

namespace World

/-- **Worlds whose objects go by their names**, in all scenes. -/
def NamesWords (w : World) : Prop := ∀ e ∈ w.scenes, ∀ o ∈ e.2.objects, o.NamesWords

theorem namesWords_of_addScenes {table table' : Table Document Scene} {ds : List Document}
    (h : addScenes table ds = .ok table') (hbefore : ∀ e ∈ table, ∀ o ∈ e.2.objects, o.NamesWords) :
    ∀ e ∈ table', ∀ o ∈ e.2.objects, o.NamesWords := by
  have hread : ∀ d (e : Document × Scene), sceneEntry d = .ok e →
      ∀ o ∈ e.2.objects, o.NamesWords := by
    intro d e hentry
    obtain ⟨id, -, hrest⟩ := bind_eq_ok_iff.mp hentry
    obtain ⟨scene, hscene, hkeyed⟩ := bind_eq_ok_iff.mp hrest
    split_ifs at hkeyed
    obtain rfl := Except.ok.inj hkeyed
    exact Scene.namesWords_of_ofDocument hscene
  exact forall_value_of_enterAll addScenes (fun _ => rfl) addScenes_cons
    (fun s => ∀ o ∈ s.objects, o.NamesWords) hread h hbefore

/-- **The objects of a world that was read go by their names.** -/
theorem NamesWords.of_ofDocument {data : Document} {w : World} (h : ofDocument data = .ok w) :
    w.NamesWords := by
  rw [ofDocument, bind_eq_ok_iff] at h
  obtain ⟨fields, -, h⟩ := h
  obtain ⟨entries, -, h⟩ := bind_eq_ok_iff.mp h
  obtain ⟨scenes, hscenes, h⟩ := bind_eq_ok_iff.mp h
  have hall := namesWords_of_addScenes hscenes (by simp)
  cases scenes with
  | nil => simp at h
  | cons first rest =>
    obtain ⟨found, -, h⟩ := bind_eq_ok_iff.mp h
    cases found with
    | none => simp at h
    | some scene =>
      obtain rfl := Except.ok.inj h
      exact hall

/-- The objects at hand are those of one of the scenes. -/
theorem exists_scene_of_objectsInScope {w : World} {os : List GameObject}
    (h : w.objectsInScope = .ok os) : ∃ e ∈ w.scenes, e.2.objects = os := by
  rw [objectsInScope] at h
  cases hscene : w.scene with
  | error f => simp [hscene, Except.map] at h
  | ok s =>
    rw [hscene] at h
    rw [World.scene, bind_eq_ok_iff] at hscene
    obtain ⟨found, hfound, hs⟩ := hscene
    cases found with
    | none => simp at hs
    | some s' =>
      obtain rfl := Except.ok.inj hs
      rw [Document.lookUp] at hfound
      split_ifs at hfound
      obtain ⟨k, hk⟩ := Table.mem_of_get? (Except.ok.inj hfound)
      exact ⟨_, hk, Except.ok.inj h⟩

/-- Wherever the player has gone in such a world, the objects at hand go by their names. -/
theorem NamesWords.of_mem_objectsInScope {w : World} (h : w.NamesWords) {here : Document}
    {os : List GameObject} (hos : (w.goTo here).objectsInScope = .ok os) :
    ∀ o ∈ os, o.NamesWords := by
  obtain ⟨e, he, rfl⟩ := exists_scene_of_objectsInScope hos
  exact h e he

end World

/-! ### References with nothing behind them -/

namespace Reference

section Ahead

variable {scope : List Entity} {ws : List String} {n : ℕ} (hplain : ∀ e ∈ scope, e.isPlain)

include hplain

/-- Where no words are ahead, a reference names nothing. -/
theorem outcome_of_drop_eq_nil (hahead : ws.drop n = []) :
    outcome scope (ws.map .text) n = .refused (.noReference []) := by
  have hholders : holders scope (ws.map .text) n = [] := by
    refine List.filter_eq_nil_iff.mpr fun e he => ?_
    simp [score_words (hplain e he), hahead]
  refine outcome_eq_noReference_iff_holders.mpr ⟨hholders, ?_⟩
  rw [itemsFrom_words, hahead, List.map_nil]

/-- The score of a plain entity is the number of the words ahead exactly if it is called by all of
them. -/
theorem score_eq_length_drop_iff {e : Entity} (he : e ∈ scope) :
    score e (ws.map .text) n = (ws.drop n).length ↔ ∀ w ∈ ws.drop n, w ∈ e.words := by
  have hahead : ws.drop n = ws.drop n ++ [] := (List.append_nil _).symm
  constructor
  · intro h
    exact (length_le_score_iff (hplain e he) hahead).mp h.ge
  · intro h
    exact score_eq_length (hplain e he) hahead h (by simp)

/-- If some entity is called by all the words ahead, their number is the highest score. -/
theorem top_eq_length_drop (h : ∃ e ∈ scope, ∀ w ∈ ws.drop n, w ∈ e.words) :
    top scope (ws.map .text) n = (ws.drop n).length := by
  obtain ⟨e, he, hcalled⟩ := h
  have hscore := (score_eq_length_drop_iff hplain he).mpr hcalled
  exact le_antisymm (top_le_length_drop hplain) (hscore ▸ score_le_top he)

/-- If some entity is called by all the words ahead, then the holders are the entities that are. -/
theorem holders_eq_filter_called (hne : ws.drop n ≠ [])
    (h : ∃ e ∈ scope, ∀ w ∈ ws.drop n, w ∈ e.words) :
    holders scope (ws.map .text) n = scope.filter fun e => ∀ w ∈ ws.drop n, w ∈ e.words :=
  holders_eq_filter_taken hplain (List.append_nil _).symm (top_eq_length_drop hplain h) hne

end Ahead

/-- **Two places that are called by all the words ahead** make the reference ambiguous, and each of
them is a candidate. -/
theorem outcome_of_shared {before after : List Entity} {e : Entity} {ws : List String} {n : ℕ}
    (hplain : ∀ e' ∈ before ++ e :: after, e'.isPlain) (hne : ws.drop n ≠ [])
    (hcalled : ∀ w ∈ ws.drop n, w ∈ e.words)
    (hshared : ∃ e' ∈ before ++ after, ∀ w ∈ ws.drop n, w ∈ e'.words) :
    ∃ candidates, outcome (before ++ e :: after) (ws.map .text) n =
        .refused (.ambiguous candidates (ws.drop n).length) ∧
      Text.spaced e.words ∈ candidates := by
  have hsome : ∃ e' ∈ before ++ e :: after, ∀ w ∈ ws.drop n, w ∈ e'.words := ⟨e, by simp, hcalled⟩
  have hholders := holders_eq_filter_called hplain hne hsome
  have hmem : e ∈ holders (before ++ e :: after) (ws.map .text) n := by
    rw [hholders]
    exact List.mem_filter.mpr ⟨by simp, decide_eq_true hcalled⟩
  have htwo : 2 ≤ (holders (before ++ e :: after) (ws.map .text) n).length := by
    -- the other place is on one side of the entity
    have hother :
        0 < ((before ++ after).filter fun e' => ∀ w ∈ ws.drop n, w ∈ e'.words).length := by
      obtain ⟨e', he', hall⟩ := hshared
      exact List.length_pos_of_mem (List.mem_filter.mpr ⟨he', decide_eq_true hall⟩)
    rw [List.filter_append, List.length_append] at hother
    rw [hholders, List.filter_append, List.filter_cons, if_pos (decide_eq_true hcalled),
      List.length_append, List.length_cons]
    omega
  refine ⟨_, outcome_eq_ambiguous_iff_holders.mpr ⟨htwo, rfl, ?_⟩,
    List.mem_map.mpr ⟨e, hmem, rfl⟩⟩
  rw [top_eq_length_drop hplain hsome]

end Reference

/-! ### A symbol on its own -/

namespace Match

section Lone

variable {registry : Registry} {w : World} {name : String} {before after : List GameObject}
  {o : GameObject} {ws : List String} {n : ℕ}

/-- A symbol that is refused ends the attempt, and the words ahead are left over. -/
theorem tokens_of_refused {resolves : String → Option Resolve} {s : Sense} {cause : Refusal}
    (hres : resolves name = some s.resolve) (hout : s.outcome (ws.map .text) n = .refused cause)
    (rest : List Token) :
    Match.tokens resolves (ws.map .text) (.symbol name :: rest) n =
      .ok (.failed (.refused name cause) ((ws.drop n).map .text)) := by
  rw [Match.tokens, hres]
  simp only [s.resolve_words ws n, hout, itemsFrom_words]

/-- **A lone symbol for the objects at hand**, with words ahead by all of which a certain object is
called: there are none, or a second object is called by all of them, or the object is meant. -/
theorem tokens_lone_symbol (hsymbol : Table.get? (.text name) registry = some (.reference .scene))
    (hscope : w.objectsInScope = .ok (before ++ o :: after))
    (hcalled : ∀ u ∈ ws.drop n, u ∈ o.words) :
    (ws.drop n = [] ∧ Match.tokens (registry.resolves (some w)) (ws.map .text) [.symbol name] n =
        .ok (.failed (.refused name (.noReference [])) [])) ∨
      (ws.drop n ≠ [] ∧ (∃ o' ∈ before ++ after, ∀ u ∈ ws.drop n, u ∈ o'.words) ∧
        ∃ candidates, Text.spaced o.words ∈ candidates ∧
          Match.tokens (registry.resolves (some w)) (ws.map .text) [.symbol name] n =
            .ok (.failed (.refused name (.ambiguous candidates (ws.drop n).length))
              ((ws.drop n).map .text))) ∨
      (ws.drop n ≠ [] ∧ (∀ o' ∈ before ++ after, ∃ u ∈ ws.drop n, u ∉ o'.words) ∧
        Match.tokens (registry.resolves (some w)) (ws.map .text) [.symbol name] n =
          .ok (.matched [.entity (.object o)])) := by
  have hsense := Registry.sense?_scene hsymbol hscope
  simp only [List.map_append, List.map_cons] at hsense
  have hres := Registry.resolves_of_sense? hsense
  have hplain : ∀ e ∈ before.map Entity.object ++ .object o :: after.map .object, e.isPlain := by
    rw [← List.map_cons, ← List.map_append]
    exact Entity.isPlain_of_mem_map_object
  rcases eq_or_ne (ws.drop n) [] with hnil | hne
  · refine Or.inl ⟨hnil, ?_⟩
    rw [tokens_of_refused hres (Reference.outcome_of_drop_eq_nil hplain hnil), hnil, List.map_nil]
  right
  by_cases hshared : ∃ o' ∈ before ++ after, ∀ u ∈ ws.drop n, u ∈ o'.words
  · obtain ⟨o', ho', hall⟩ := hshared
    have hother : ∃ e ∈ before.map Entity.object ++ after.map .object,
        ∀ u ∈ ws.drop n, u ∈ e.words := by
      rw [← List.map_append]
      exact ⟨_, List.mem_map_of_mem ho', hall⟩
    obtain ⟨candidates, hout, hmem⟩ := Reference.outcome_of_shared hplain hne hcalled hother
    exact Or.inl ⟨hne, ⟨o', ho', hall⟩, candidates, hmem, tokens_of_refused hres hout []⟩
  · push Not at hshared
    have halone : ∀ e ∈ before.map Entity.object ++ after.map .object,
        ∃ u ∈ ws.drop n, u ∉ e.words := by
      rw [← List.map_append]
      exact List.forall_mem_map.mpr hshared
    have hnames : Reference.Names (before.map .object ++ .object o :: after.map .object)
        (.object o) (ws.drop n) [] := ⟨hne, hcalled, by simp, _, _, rfl, halone⟩
    have hreads : Reads (registry.sense? (some w)) [.symbol name] (ws.drop n)
        [.entity (.object o)] :=
      (Reads.symbol_iff hsense).mpr ⟨_, [], _, [], (List.append_nil _).symm, rfl,
        ⟨_, rfl, hnames⟩, .done⟩
    refine Or.inr ⟨hne, hshared, (tokens_eq_matched_iff _ ws n _ fun name' hname' => ?_).mpr hreads⟩
    obtain rfl := List.mem_singleton.mp hname'
    exact ⟨_, hsense, hres⟩

end Lone

end Match

/-! ### A verb with a lone rule -/

/-- A verb that alone has a word is the only one with rules for it. -/
theorem Grammar.rulesCalled_of_lone {g : Grammar} {word : String} {verb : Verb}
    (h : (g.verbs.filter fun v => word ∈ v.words) = [verb]) :
    ∃ number : ℕ, g.verbs[number]? = some verb ∧
      g.rulesCalled word = verb.rules.map (number, ·) := by
  have hfst : (g.verbs.zipIdx.filter fun v => word ∈ v.1.words).map Prod.fst = [verb] := by
    rw [← h, ← List.zipIdx_map_fst 0 g.verbs, List.filter_map, List.zipIdx_map_fst]
    rfl
  obtain ⟨⟨v, number⟩, hpair, rfl⟩ := List.map_eq_singleton_iff.mp hfst
  have hmem : (v, number) ∈ g.verbs.zipIdx := by
    refine List.mem_of_mem_filter (p := fun v => decide (word ∈ v.1.words)) ?_
    rw [hpair]
    exact List.mem_singleton_self _
  refine ⟨number, List.mk_mem_zipIdx_iff_getElem?.mp hmem, ?_⟩
  rw [rulesCalled, hpair, List.flatMap_singleton]

/-- What the verdict on the only rule for some words makes of them. -/
def Verdict.choice (number : ℕ) (r : Rule) : Verdict → Except NoChoice Choice
  | .matched params => .ok ⟨number, r, params⟩
  | .failed _ _ => .error .noRuleMatched

namespace Listener

variable {l : Listener} {world : Option World} {word : String} {verb : Verb} {r : Rule}

variable (world) in
/-- **A verb with a lone rule**: if no other verb has its word, the choice hangs on the verdict on
that rule. -/
theorem choose_of_lone (hverb : (l.grammar.verbs.filter fun v => word ∈ v.words) = [verb])
    (hrule : verb.rules = [r]) :
    ∃ number : ℕ, l.grammar.verbs[number]? = some verb ∧ ∀ rest verdict,
      l.tried world (word :: rest) r = .ok ⟨r, verdict⟩ →
      l.choose world (word :: rest) = .ok ([⟨r, verdict⟩], verdict.choice number r) := by
  obtain ⟨number, hnumber, hcalled⟩ := Grammar.rulesCalled_of_lone hverb
  have hmem : verb ∈ l.grammar.verbs.filter fun v => word ∈ v.words := by
    rw [hverb]
    exact List.mem_singleton_self verb
  obtain ⟨hin, hword⟩ := List.mem_filter.mp hmem
  have hknown : ∃ v ∈ l.grammar.verbs, word ∈ v.words := ⟨verb, hin, of_decide_eq_true hword⟩
  refine ⟨number, hnumber, fun rest verdict htried => ?_⟩
  rw [tried] at htried
  rw [choose_eq, candidates, hcalled, hrule, List.map_singleton, tryRules, htried]
  cases verdict with
  | matched params => rfl
  | failed cause leftover =>
    rw [Grammar.excuse, if_pos hknown]
    rfl

variable (world) in
/-- The interpretation of words for which there is a lone rule. -/
theorem interpret_of_lone (hverb : (l.grammar.verbs.filter fun v => word ∈ v.words) = [verb])
    (hrule : verb.rules = [r]) :
    ∃ number : ℕ, l.grammar.verbs[number]? = some verb ∧ ∀ command rest verdict,
      Command.normalize command l.articles = .ok (word :: rest) →
      Match.tokens (l.grammar.registry.resolves world) ((word :: rest).map .text) r.tokens 1 =
        .ok verdict →
      l.interpret world command = (concludeWith Action.run (verdict.choice number r)).map
        (⟨command, word :: rest, [⟨r, verdict⟩], ·⟩) := by
  obtain ⟨number, hnumber, hchoose⟩ := choose_of_lone world hverb hrule
  refine ⟨number, hnumber, fun command rest verdict hcommand hrun => ?_⟩
  have htried : l.tried world (word :: rest) r = .ok ⟨r, verdict⟩ := by
    simp only [tried, Rule.attempt, hrun]
  rw [interpret, interpretWith_of_choose _ hcommand (hchoose rest verdict htried)]
  cases concludeWith (m := Except Fault) Action.run (verdict.choice number r) <;> rfl

/-- **Every object can be named, and its full name never means something else.** Let the player be
anywhere in a world that was read, with some object at hand, and say a word followed by the name of
the object. If the word calls a single verb, and the verb's only rule is a symbol for the objects at
hand, then that rule is tried and nothing else. It matches with no other object than the one whose
name was said, and it does match unless the name consists of articles or some second object at hand
is called by all the other words of the name. In the latter case the name is ambiguous, with the
object among the candidates, and otherwise it names nothing. -/
theorem interpret_full_name (l : Listener) (before after : List GameObject) (o : GameObject)
    {data here : Document} {w : World} {name : String}
    (hworld : World.ofDocument data = .ok w)
    (hscope : (w.goTo here).objectsInScope = .ok (before ++ o :: after))
    (hword : Command.normalize (.text word) l.articles = .ok [word])
    (hverb : (l.grammar.verbs.filter fun v => word ∈ v.words) = [verb])
    (hrule : verb.rules = [r]) (htokens : r.tokens = [.symbol name])
    (hsymbol : Table.get? (.text name) l.grammar.registry = some (.reference .scene)) :
    ∃ (ns : List String) (number : ℕ) (verdict : Verdict),
      Command.normalize (.text o.name) l.articles = .ok ns ∧
      l.grammar.verbs[number]? = some verb ∧
      l.interpret (some (w.goTo here)) (.text (word ++ " " ++ o.name)) =
        (concludeWith Action.run (verdict.choice number r)).map
          (⟨.text (word ++ " " ++ o.name), word :: ns, [⟨r, verdict⟩], ·⟩) ∧
      (verdict = .matched [.entity (.object o)] ↔
        ns ≠ [] ∧ ¬∃ o' ∈ before ++ after, ∀ u ∈ ns, u ∈ o'.words) ∧
      (∀ params, verdict = .matched params → params = [.entity (.object o)]) ∧
      (ns ≠ [] → (∃ o' ∈ before ++ after, ∀ u ∈ ns, u ∈ o'.words) →
        ∃ candidates, Text.spaced o.words ∈ candidates ∧
          verdict = .failed (.refused name (.ambiguous candidates ns.length)) (ns.map .text)) ∧
      (ns = [] → verdict = .failed (.refused name (.noReference [])) []) := by
  obtain ⟨articles, harticles, hwords⟩ := Command.normalize_text_eq_ok_iff.mp hword
  obtain ⟨ns, hns⟩ : ∃ ns, Command.wordsOf o.name articles = ns := ⟨_, rfl⟩
  have hcommand : Command.normalize (.text (word ++ " " ++ o.name)) l.articles =
      .ok (word :: ns) := by
    refine Command.normalize_text_eq_ok_iff.mpr ⟨articles, harticles, ?_⟩
    rw [Command.wordsOf_append_space, hwords, hns, List.singleton_append]
  have ho : o ∈ before ++ o :: after := List.mem_append_right _ (List.mem_cons_self ..)
  have hnames : o.NamesWords :=
    (World.NamesWords.of_ofDocument hworld).of_mem_objectsInScope hscope o ho
  have hcalled : ∀ u ∈ ns, u ∈ o.words := by
    rw [← hns]
    exact hnames.mem_words
  obtain ⟨number, hnumber, hinterpret⟩ := interpret_of_lone (some (w.goTo here)) hverb hrule
  rw [htokens] at hinterpret
  refine ⟨ns, number, ?_⟩
  have hname : Command.normalize (.text o.name) l.articles = .ok ns :=
    Command.normalize_text_eq_ok_iff.mpr ⟨articles, harticles, hns⟩
  -- what is ahead behind the verb are the words of the name
  have hahead : (word :: ns).drop 1 = ns := rfl
  have hcases := Match.tokens_lone_symbol (n := 1) hsymbol hscope (hahead.symm ▸ hcalled)
  rw [hahead, Int.natCast_one] at hcases
  rcases hcases with
    ⟨hnil, hrun⟩ | ⟨hne, hshared, candidates, hmem, hrun⟩ | ⟨hne, halone, hrun⟩
  · refine ⟨_, hname, hnumber, hinterpret _ ns _ hcommand hrun, ?_, ?_, ?_, fun _ => rfl⟩
    · exact iff_of_false (by simp) fun h => h.1 hnil
    · simp
    · exact fun hne => absurd hnil hne
  · refine ⟨_, hname, hnumber, hinterpret _ ns _ hcommand hrun, ?_, ?_, ?_, ?_⟩
    · exact iff_of_false (by simp) fun h => h.2 hshared
    · simp
    · exact fun _ _ => ⟨candidates, hmem, rfl⟩
    · exact fun hnil => absurd hnil hne
  · have hnone : ¬∃ o' ∈ before ++ after, ∀ u ∈ ns, u ∈ o'.words := by
      push Not
      exact halone
    refine ⟨_, hname, hnumber, hinterpret _ ns _ hcommand hrun, ?_, ?_, ?_, ?_⟩
    · exact iff_of_true rfl ⟨hne, hnone⟩
    · exact fun params hparams => (Verdict.matched.inj hparams).symm
    · exact fun _ hshared => absurd hshared hnone
    · exact fun hnil => absurd hnil hne

end Listener

namespace Attic

/-- The lamp that goes by an article and a word that is not its own. -/
def lamp : GameObject :=
  ⟨.text "The Lamp", "The Lamp", [], .text "", ["the", "lamp"]⟩

/-- The lamp that goes by a word of its own. -/
def oldLamp : GameObject :=
  ⟨.text "Old lamp", "Old lamp", ["antique"], .text "", ["old", "lamp", "antique"]⟩

/-- An attic with two lamps, as an author writes it. -/
def sheet : Document :=
  .mapping [(.text "scenes", .list [.mapping [(.text "id", .text "attic"),
    (.text "objects", .list [.text "The Lamp",
      .mapping [(.text "name", .text "Old lamp"), (.text "aliases", .text "antique")]])]])]

/-- The world of the attic. -/
def world : World where
  title := .text "Untitled"
  scenes := [(.text "attic", ⟨.text "attic", .text "attic", .text "", [lamp, oldLamp]⟩)]
  current := .text "attic"

end Attic

open Attic Parlour in
/-- Of the two lamps in the attic, the old one can be named, and the other cannot. -/
theorem Listener.interpret_drop_lamps :
    World.ofDocument sheet = .ok world ∧
      (world.goTo (.text "attic")).objectsInScope = .ok [lamp, oldLamp] ∧
      Command.normalize (.text "drop") host.articles = .ok ["drop"] ∧
      (host.grammar.verbs.filter fun v => "drop" ∈ v.words) = [⟨["drop"], [giveAway]⟩] ∧
      Table.get? (.text "single") host.grammar.registry = some (.reference .scene) ∧
      host.interpret (some world) (.text "drop Old lamp") = .ok ⟨.text "drop Old lamp",
        ["drop", "old", "lamp"], [⟨giveAway, .matched [.entity (.object oldLamp)]⟩],
        .matched ⟨1, giveAway, [.entity (.object oldLamp)]⟩
          (.values [.entity (.object oldLamp)])⟩ ∧
      ∃ candidates, "the lamp" ∈ candidates ∧
        host.interpret (some world) (.text "drop The Lamp") = .ok ⟨.text "drop The Lamp",
          ["drop", "lamp"],
          [⟨giveAway, .failed (.refused "single" (.ambiguous candidates 1)) [.text "lamp"]⟩],
          .unmatched .noRuleMatched⟩ := by
  have hworld : World.ofDocument sheet = .ok world := rfl
  have hverb : (host.grammar.verbs.filter fun v => "drop" ∈ v.words) =
      [⟨["drop"], [giveAway]⟩] := rfl
  have hscope : (world.goTo (.text "attic")).objectsInScope = .ok [lamp, oldLamp] := rfl
  have hword : Command.normalize (.text "drop") host.articles = .ok ["drop"] := rfl
  have hsymbol : Table.get? (.text "single") host.grammar.registry = some (.reference .scene) := rfl
  refine ⟨hworld, hscope, hword, hverb, hsymbol, ?_, ?_⟩
  · obtain ⟨ns, number, verdict, hns, hnumber, hinterpret, hiff, -⟩ :=
      interpret_full_name host [lamp] [] oldLamp hworld hscope hword hverb rfl rfl hsymbol
    have hname : Command.normalize (.text "Old lamp") host.articles = .ok ["old", "lamp"] := rfl
    obtain rfl := Except.ok.inj (hns.symm.trans hname)
    obtain rfl := hiff.mpr ⟨by simp, by decide⟩
    have hone : number = 1 := by
      rcases number with _ | _ | number
      · simp [host] at hnumber
      · rfl
      · simp [host] at hnumber
    subst hone
    exact hinterpret
  · obtain ⟨ns, number, verdict, hns, -, hinterpret, -, -, hambiguous, -⟩ :=
      interpret_full_name host [] [oldLamp] lamp hworld hscope hword hverb rfl rfl hsymbol
    have hname : Command.normalize (.text "The Lamp") host.articles = .ok ["lamp"] := rfl
    obtain rfl := Except.ok.inj (hns.symm.trans hname)
    obtain ⟨candidates, hmem, rfl⟩ := hambiguous (by simp) (by decide)
    exact ⟨candidates, hmem, hinterpret⟩

end TextAdventure
