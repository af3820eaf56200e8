import TextAdventure.Proofs.Dispatch
import TextAdventure.Proofs.Loops

/-!
# What a loaded grammar promises

Loading refuses whatever is wrong with a grammar, so that nothing can go wrong in the middle of a
game. What is left when loading succeeds is `TextAdventure.Grammar.Loaded`: every resolver looks for
objects of the world's current scene or knows a list of phrases, every symbol of every rule has a
resolver, and every action with a signature takes one value per symbol of its rule.

From this it follows that every symbol of every rule has a sense in a world whose current scene
exists, so that each rule can be tried on any words; and a rule that matches has one value per
symbol, which is what the signature of its action was checked for. The main statement,
`TextAdventure.Listener.logged_of_loaded`, puts these together: before the action of the chosen rule
is called nothing fails, and the call is one that the action accepts.
-/

namespace TextAdventure

/-- Results that are all there are the results of a list. -/
theorem exists_eq_map_ok {ε α : Type} {results : List (Except ε α)}
    (h : ∀ x ∈ results, ∃ a, x = .ok a) : ∃ as : List α, results = as.map .ok := by
  induction results with
  | nil => exact ⟨[], rfl⟩
  | cons x rest ih =>
    obtain ⟨⟨a, rfl⟩, hrest⟩ := List.forall_mem_cons.mp h
    obtain ⟨as, rfl⟩ := ih hrest
    exact ⟨a :: as, rfl⟩

/-! ### Resolvers of a loaded grammar -/

/-- The resolvers that a grammar document can ask for: references to the objects of the current
scene, if there is a world, and phrases. -/
def Resolver.IsLoaded (world : Option World) (r : Resolver) : Prop :=
  (r = .reference .scene ∧ world.isSome) ∨ ∃ known, r = .phrases known

namespace Registry

variable {world : Option World}

theorem isLoaded_of_resolverOf {name definition : Document} {r : Resolver}
    (h : resolverOf world name definition = .ok r) : r.IsLoaded world := by
  rw [resolverOf, bind_eq_ok_iff] at h
  obtain ⟨fields, -, h⟩ := h
  dsimp only at h
  split_ifs at h with hentity hworld hphrases
  · -- a reference is refused where there is no world
    obtain rfl := Except.ok.inj h
    exact Or.inl ⟨rfl, Option.isSome_iff_ne_none.mpr (by simpa using hworld)⟩
  · obtain ⟨ds, -, h⟩ := bind_eq_ok_iff.mp h
    obtain ⟨known, -, h⟩ := bind_eq_ok_iff.mp h
    obtain rfl := Except.ok.inj h
    exact Or.inr ⟨known, rfl⟩

/-- The name and the resolver of an entry among the symbols. -/
def symbolEntry (world : Option World) (symbol : Document × Document) :
    Except Fault (Document × Resolver) := do
  let r ← resolverOf world symbol.1 symbol.2
  return (symbol.1, r)

theorem addSymbols_cons (registry : Registry) (symbol : Document × Document)
    (rest : List (Document × Document)) : addSymbols world registry (symbol :: rest) =
      symbolEntry world symbol >>= fun e => addSymbols world (registry.insert e.1 e.2) rest := by
  rw [symbolEntry, bind_assoc]
  rfl

theorem isLoaded_of_addSymbols {registry registry' : Registry}
    {symbols : List (Document × Document)} (h : addSymbols world registry symbols = .ok registry')
    (hbefore : ∀ e ∈ registry, e.2.IsLoaded world) : ∀ e ∈ registry', e.2.IsLoaded world := by
  refine forall_value_of_enterAll (addSymbols world) (fun _ => rfl) addSymbols_cons
    (Resolver.IsLoaded world) ?_ h hbefore
  intro symbol e he
  obtain ⟨r, hr, hentry⟩ := bind_eq_ok_iff.mp he
  obtain rfl := Except.ok.inj hentry
  exact isLoaded_of_resolverOf hr

theorem isLoaded_of_ofDocument {symbols : Document} {registry : Registry}
    (h : ofDocument symbols world = .ok registry) : ∀ e ∈ registry, e.2.IsLoaded world := by
  rw [ofDocument] at h
  split_ifs at h
  · obtain rfl := Except.ok.inj h
    simp
  · cases hentries : symbols.entries with
    | error f => simp [hentries] at h
    | ok fields =>
      rw [hentries] at h
      exact isLoaded_of_addSymbols h (by simp)

end Registry

/-! ### Rules of a loaded grammar -/

/-- Whether the action of a rule, if it has a signature, takes one value per symbol of the rule. -/
def Rule.IsFitting (r : Rule) : Prop :=
  ∀ signature, r.action.signature = some signature → signature.accepts r.symbols.length

/-- **When a rule can be made**: if the pattern is one, and the action can be called and takes one
value per symbol. -/
theorem Rule.make_eq_ok_iff {pattern : Document} {binding : Binding} {name : Document} {r : Rule} :
    make pattern binding name = .ok r ↔ ∃ text a, Pattern.ofDocument pattern = .ok text ∧
      binding = .action a ∧ r = ⟨text, Pattern.compile text, a, name.orElse binding.label⟩ ∧
      r.IsFitting := by
  rw [make, bind_eq_ok_iff]
  constructor
  · rintro ⟨text, hpattern, h⟩
    cases binding with
    | other d => simp at h
    | action a =>
      refine ⟨text, a, hpattern, rfl, ?_⟩
      dsimp only at h
      split at h
      · -- nothing to check without a signature
        rename_i hnone
        obtain rfl := Except.ok.inj h
        exact ⟨rfl, fun signature hsignature => by simp [hnone] at hsignature⟩
      · rename_i signature hsome
        split_ifs at h with haccepts
        obtain rfl := Except.ok.inj h
        refine ⟨rfl, fun signature' hsignature' => ?_⟩
        obtain rfl := Option.some.inj (hsome.symm.trans hsignature')
        exact haccepts
  · rintro ⟨text, a, hpattern, rfl, rfl, hfitting⟩
    refine ⟨text, hpattern, ?_⟩
    dsimp only
    split
    · rfl
    · rename_i signature hsome
      rw [if_pos (hfitting signature hsome)]
      rfl

theorem Rule.isFitting_of_make {pattern : Document} {binding : Binding} {name : Document} {r : Rule}
    (h : make pattern binding name = .ok r) : r.IsFitting := by
  obtain ⟨-, -, -, -, -, hfitting⟩ := make_eq_ok_iff.mp h
  exact hfitting

/-- The tokens of a rule are those of its pattern. -/
theorem Rule.tokens_of_make {pattern : Document} {binding : Binding} {name : Document} {r : Rule}
    (h : make pattern binding name = .ok r) : r.tokens = Pattern.compile r.pattern := by
  obtain ⟨text, a, -, -, rfl, -⟩ := make_eq_ok_iff.mp h
  rfl

namespace Grammar

variable {actions : Actions}

theorem isFitting_of_ruleOf {number : ℕ} {words d : Document} {r : Rule}
    (h : ruleOf actions number words d = .ok r) : r.IsFitting := by
  unfold ruleOf at h
  cases d with
  | mapping fields =>
    dsimp only at h
    obtain ⟨binding, -, h⟩ := bind_eq_ok_iff.mp h
    cases binding with
    | none => simp at h
    | some binding => exact Rule.isFitting_of_make h
  | _ => simp at h

theorem isFitting_of_rulesOf {number : ℕ} {words : Document} {ds : List Document}
    {rules : List Rule} (h : rulesOf actions number words ds = .ok rules) :
    ∀ r ∈ rules, r.IsFitting := by
  have hread : ∀ (_ : ℕ) d r, ruleOf actions number words d = .ok r → r.IsFitting :=
    fun _ _ _ => isFitting_of_ruleOf
  exact forall_of_readAll (fun _ => rulesOf actions number words) (fun _ => rfl) (fun _ _ _ => rfl)
    hread 0 h

theorem isFitting_of_verbOf {number : ℕ} {d : Document} {v : Verb}
    (h : verbOf actions number d = .ok v) : ∀ r ∈ v.rules, r.IsFitting := by
  unfold verbOf at h
  cases d with
  | mapping fields =>
    dsimp only at h
    obtain ⟨words, -, h⟩ := bind_eq_ok_iff.mp h
    obtain ⟨entries, -, h⟩ := bind_eq_ok_iff.mp h
    obtain ⟨rules, hrules, h⟩ := bind_eq_ok_iff.mp h
    rw [Verb.ofWords, bind_eq_ok_iff] at h
    obtain ⟨ws, -, h⟩ := h
    cases ws with
    | nil => simp at h
    | cons w ws =>
      obtain rfl := Except.ok.inj h
      exact isFitting_of_rulesOf hrules
  | _ => simp at h

theorem isFitting_of_verbsOf {number : ℕ} {ds : List Document} {verbs : List Verb}
    (h : verbsOf actions number ds = .ok verbs) : ∀ v ∈ verbs, ∀ r ∈ v.rules, r.IsFitting :=
  forall_of_readAll (verbsOf actions) (fun _ => rfl) (fun _ _ _ => rfl)
    (fun _ _ _ => isFitting_of_verbOf) number h

/-! ### Symbols of a loaded grammar -/

variable {registry : Registry} {missing : List String}

theorem mem_addMissing {name name' : String} :
    name' ∈ addMissing registry missing name ↔
      name' ∈ missing ∨ name' = name ∧ registry.knows name = false := by
  rw [addMissing]
  by_cases hknows : registry.knows name
  · simp [hknows]
  by_cases hlisted : name ∈ missing
  · simp only [hknows, List.contains_iff_mem.mpr hlisted, Bool.or_true, ↓reduceIte]
    constructor
    · exact Or.inl
    · rintro (h | ⟨rfl, -⟩)
      · exact h
      · exact hlisted
  · simp [hknows, hlisted]

theorem mem_foldl_addMissing {names : List String} {name : String} :
    name ∈ names.foldl (addMissing registry) missing ↔
      name ∈ missing ∨ name ∈ names ∧ registry.knows name = false := by
  induction names generalizing missing with
  | nil => simp
  | cons first rest ih =>
    rw [List.foldl_cons, ih, mem_addMissing, List.mem_cons]
    constructor
    · rintro ((h | ⟨rfl, h⟩) | ⟨hmem, h⟩)
      · exact Or.inl h
      · exact Or.inr ⟨Or.inl rfl, h⟩
      · exact Or.inr ⟨Or.inr hmem, h⟩
    · rintro (h | ⟨rfl | hmem, h⟩)
      · exact Or.inl (Or.inl h)
      · exact Or.inl (Or.inr ⟨rfl, h⟩)
      · exact Or.inr ⟨hmem, h⟩

/-- The pass over verbs, rules and patterns is one pass over the symbols they use. -/
theorem missing_eq (verbs : List Verb) (registry : Registry) :
    Grammar.missing verbs registry = (symbolsUsed verbs).foldl (addMissing registry) [] := by
  rw [Grammar.missing, symbolsUsed, List.foldl_flatMap]
  congr 1
  funext missing v
  rw [missingIn, List.foldl_flatMap]

/-- No symbol is missing if and only if all that are used are known. -/
theorem missing_eq_nil_iff {verbs : List Verb} :
    Grammar.missing verbs registry = [] ↔ ∀ name ∈ symbolsUsed verbs, registry.knows name := by
  rw [List.eq_nil_iff_forall_not_mem]
  simp only [missing_eq, mem_foldl_addMissing, List.not_mem_nil, false_or, not_and,
    Bool.not_eq_false]

/-! ### The promise -/

/-- **What loading leaves standing** of a grammar, for the world that it was loaded with. -/
structure Loaded (g : Grammar) (world : Option World) : Prop where
  /-- The resolvers are such as a grammar document can ask for. -/
  resolvers : ∀ e ∈ g.registry, e.2.IsLoaded world
  /-- The symbols of all rules have resolvers. -/
  symbols : ∀ name ∈ symbolsUsed g.verbs, g.registry.knows name
  /-- The actions of all rules take one value per symbol. -/
  fitting : ∀ v ∈ g.verbs, ∀ r ∈ v.rules, r.IsFitting

theorem loaded_of_ofDocument {data : Document} {world : Option World} {g : Grammar}
    (h : ofDocument data actions world = .ok g) : g.Loaded world := by
  unfold ofDocument at h
  cases data with
  | mapping fields =>
    dsimp only at h
    obtain ⟨registry, hregistry, h⟩ := bind_eq_ok_iff.mp h
    obtain ⟨entries, -, h⟩ := bind_eq_ok_iff.mp h
    obtain ⟨verbs, hverbs, h⟩ := bind_eq_ok_iff.mp h
    rw [make] at h
    split at h
    · rename_i hmissing
      obtain rfl := Except.ok.inj h
      exact ⟨Registry.isLoaded_of_ofDocument hregistry, missing_eq_nil_iff.mp hmissing,
        isFitting_of_verbsOf hverbs⟩
    · simp at h
  | _ => simp at h

end Grammar

/-! ### Loaded symbols have senses -/

/-- A world that has been read has a current scene. -/
theorem World.exists_objectsInScope {data : Document} {w : World} (h : ofDocument data = .ok w) :
    ∃ os, w.objectsInScope = .ok os := by
  rw [ofDocument, bind_eq_ok_iff] at h
  obtain ⟨fields, -, h⟩ := h
  obtain ⟨entries, -, h⟩ := bind_eq_ok_iff.mp h
  obtain ⟨scenes, -, h⟩ := bind_eq_ok_iff.mp h
  cases scenes with
  | nil => simp at h
  | cons first rest =>
    obtain ⟨found, hfound, h⟩ := bind_eq_ok_iff.mp h
    cases found with
    | none => simp at h
    | some scene =>
      obtain rfl := Except.ok.inj h
      exact ⟨scene.objects, by rw [objectsInScope, World.scene, hfound]; rfl⟩

/-- In a world with a current scene, a symbol that a loaded grammar knows has a sense. -/
theorem Grammar.Loaded.isSome_sense? {g : Grammar} {world : Option World} (hg : g.Loaded world)
    (hworld : ∀ w, world = some w → ∃ os, w.objectsInScope = .ok os) {name : String}
    (hname : g.registry.knows name) : (g.registry.sense? world name).isSome := by
  obtain ⟨r, hget⟩ := Option.isSome_iff_exists.mp hname
  obtain ⟨key, hmem⟩ := Table.mem_of_get? hget
  rcases hg.resolvers _ hmem with ⟨hr, hsome⟩ | ⟨known, hr⟩
  · obtain ⟨w, rfl⟩ := Option.isSome_iff_exists.mp hsome
    obtain ⟨os, hos⟩ := hworld w rfl
    rw [Registry.sense?_scene (hget.trans (congrArg some hr)) hos, Option.isSome_some]
  · rw [Registry.sense?, hget.trans (congrArg some hr), Option.isSome_some]

/-! ### Listening with a loaded grammar -/

/-- A text has words whenever the articles are texts. -/
theorem Command.exists_normalize (s : String) {articles : List Document}
    (h : ∀ d ∈ articles, ∃ t, d = .text t) :
    ∃ ws, normalize (.text s) articles = .ok ws := by
  have htexts : ∃ ts, Document.texts (fun _ => .lacking) articles = .ok ts := by
    induction articles with
    | nil => exact ⟨[], rfl⟩
    | cons d ds ih =>
      obtain ⟨⟨t, rfl⟩, hds⟩ := List.forall_mem_cons.mp h
      obtain ⟨ts, hts⟩ := ih hds
      exact ⟨t :: ts, by rw [Document.texts, hts]⟩
  obtain ⟨ts, hts⟩ := htexts
  exact ⟨wordsOf s ts, by simp only [normalize, joined, hts]⟩

namespace Listener

variable {l : Listener} {world : Option World} {ws : List String}

/-- A candidate is tried without fail: its attempt has a verdict that blames no symbol for lacking a
resolver. -/
theorem exists_tried (hg : l.grammar.Loaded world)
    (hworld : ∀ w, world = some w → ∃ os, w.objectsInScope = .ok os) {c : ℕ × Rule}
    (hc : c ∈ l.candidates ws) :
    ∃ verdict, l.tried world ws c.2 = .ok ⟨c.2, verdict⟩ ∧
      verdict.reason? ≠ some (.text "unregistered_symbol") := by
  have hsense : ∀ name ∈ Pattern.symbolsOf c.2.tokens,
      ∃ s, l.grammar.registry.sense? world name = some s ∧
        l.grammar.registry.resolves world name = some s.resolve := by
    intro name hname
    have hknows := hg.symbols name (mem_symbolsUsed hc hname)
    exact Registry.exists_sense_of_isSome (hg.isSome_sense? hworld hknows)
  obtain ⟨verdict, hrun, hreason⟩ := Match.exists_verdict c.2.tokens ws 1 hsense
  rw [Int.natCast_one] at hrun
  exact ⟨verdict, by simp only [tried, Rule.attempt, hrun], hreason⟩

/-- A rule that matches has one value per symbol. -/
theorem length_of_tried {r : Rule} {params : List Value}
    (h : l.tried world ws r = .ok ⟨r, .matched params⟩) : params.length = r.symbols.length := by
  rw [tried, Rule.attempt] at h
  split at h
  · rename_i verdict hrun
    rw [Except.ok.injEq, Attempt.mk.injEq] at h
    exact Match.length_of_matched (h.2 ▸ hrun)
  · simp at h

/-- If every candidate can be tried, there is a trace, and it consists of attempts at candidates. -/
theorem exists_trace (h : ∀ c ∈ l.candidates ws, ∃ a, l.tried world ws c.2 = .ok a) :
    ∃ trace : List Attempt, cutAfter isFailure (l.tries world ws) = trace.map .ok ∧
      ∀ a ∈ trace, ∃ c ∈ l.candidates ws, l.tried world ws c.2 = .ok a := by
  have hok : ∀ x ∈ cutAfter isFailure (l.tries world ws), ∃ a, x = .ok a := by
    intro x hx
    obtain ⟨c, hc, rfl⟩ := List.mem_map.mp (mem_of_mem_cutAfter hx)
    exact h c hc
  obtain ⟨trace, htrace⟩ := exists_eq_map_ok hok
  refine ⟨trace, htrace, fun a ha => ?_⟩
  have hmem : Except.ok a ∈ cutAfter isFailure (l.tries world ws) := by
    rw [htrace]
    exact List.mem_map_of_mem ha
  exact List.mem_map.mp (mem_of_mem_cutAfter hmem)

/-- With a loaded grammar, a rule is chosen or not, but never without a trace; and a rule that is
chosen has one value per symbol. -/
theorem exists_choose (hg : l.grammar.Loaded world)
    (hworld : ∀ w, world = some w → ∃ os, w.objectsInScope = .ok os) (ws : List String) :
    ∃ trace choice, l.choose world ws = .ok (trace, choice) ∧
      (∀ a ∈ trace, ∃ c ∈ l.candidates ws, l.tried world ws c.2 = .ok a) ∧
      ∀ c, choice = .ok c → (∃ v ∈ l.grammar.verbs, c.rule ∈ v.rules) ∧
        c.params.length = c.rule.symbols.length := by
  have htried : ∀ c ∈ l.candidates ws, ∃ a, l.tried world ws c.2 = .ok a := by
    intro c hc
    obtain ⟨verdict, htried, -⟩ := exists_tried hg hworld hc
    exact ⟨_, htried⟩
  obtain ⟨trace, htrace, hentries⟩ := exists_trace htried
  rcases tryRules_eq_ok htrace with ⟨-, hsearch⟩ | ⟨c, hfirst, hattempt, hsearch⟩
  · exact ⟨trace, _, by rw [choose_eq, hsearch], hentries, by simp⟩
  · refine ⟨trace, .ok c, by rw [choose_eq, hsearch], hentries, fun c' hc' => ?_⟩
    obtain rfl := Except.ok.inj hc'
    exact ⟨mem_candidates (List.mem_of_find?_eq_some hfirst), length_of_tried hattempt⟩

/-- **A grammar that loads cannot fail in the middle of a game.** With a grammar loaded for a world
as it was read, articles that are texts and any text as a command, the listener has a trace; no
entry of it blames a symbol for lacking a resolver, and an entry that matches has one value per
symbol. If the interpretation fails, then because the one action that was called fails on its own;
and whatever action is called, its signature takes the values of the call. -/
theorem logged_of_loaded {data : Document} {actions : Actions}
    (hgrammar : Grammar.ofDocument data actions world = .ok l.grammar)
    (hworld : ∀ w, world = some w → ∃ d, World.ofDocument d = .ok w)
    (harticles : ∀ d ∈ l.articles, ∃ t, d = .text t) (s : String) :
    ∃ ws trace choice, Command.normalize (.text s) l.articles = .ok ws ∧
      l.choose world ws = .ok (trace, choice) ∧
      (∀ a ∈ trace, ∀ cause leftover, a.verdict = .failed cause leftover →
        cause.reason ≠ .text "unregistered_symbol") ∧
      (∀ a ∈ trace, ∀ params, a.verdict = .matched params →
        params.length = a.rule.symbols.length) ∧
      (∀ i, (l.logged world (.text s)).1 = .ok i → i.trace = trace) ∧
      (∀ f, (l.logged world (.text s)).1 = .error f →
        ∃ call, (l.logged world (.text s)).2 = [call] ∧ call.action.run call.params = .error f) ∧
      ∀ call ∈ (l.logged world (.text s)).2, ∀ signature,
        call.action.signature = some signature → signature.accepts call.params.length := by
  have hg := Grammar.loaded_of_ofDocument hgrammar
  have hscope : ∀ w, world = some w → ∃ os, w.objectsInScope = .ok os := by
    intro w hw
    obtain ⟨d, hd⟩ := hworld w hw
    exact World.exists_objectsInScope hd
  obtain ⟨ws, hws⟩ := Command.exists_normalize s harticles
  obtain ⟨trace, choice, hchoose, hentries, hchosen⟩ := exists_choose hg hscope ws
  refine ⟨ws, trace, choice, hws, hchoose, ?_, ?_, ?_⟩
  · -- an entry of the trace is the attempt at a candidate, and candidates have resolvers
    intro a ha cause leftover hfailed
    obtain ⟨c, hc, hac⟩ := hentries a ha
    obtain ⟨verdict, htried, hreason⟩ := exists_tried hg hscope hc
    obtain rfl := Except.ok.inj (hac.symm.trans htried)
    obtain rfl : verdict = .failed cause leftover := hfailed
    exact fun hbad => hreason (congrArg some hbad)
  · intro a ha params hmatched
    obtain ⟨c, hc, hac⟩ := hentries a ha
    have hrule := rule_of_attempt hac
    obtain ⟨r, verdict⟩ := a
    obtain rfl : r = c.2 := hrule
    obtain rfl : verdict = .matched params := hmatched
    exact length_of_tried hac
  · -- nothing but the action of the chosen rule can still fail
    cases choice with
    | error cause =>
      rw [logged_of_unmatched hws hchoose]
      refine ⟨fun i hi => ?_, fun f hf => by simp at hf, by simp⟩
      rw [← Except.ok.inj hi]
    | ok c =>
      rw [logged_of_matched hws hchoose]
      refine ⟨fun i hi => ?_, fun f hf => ⟨_, rfl, ?_⟩, fun call hcall signature hsignature => ?_⟩
      · cases hrun : c.rule.action.run c.params with
        | error f => simp [hrun, Except.map] at hi
        | ok reply =>
          rw [hrun] at hi
          rw [← Except.ok.inj hi]
      · cases hrun : c.rule.action.run c.params with
        | error f' =>
          rw [hrun] at hf
          rw [show f' = f from Except.error.inj hf]
        | ok reply => simp [hrun, Except.map] at hf
      · obtain rfl := List.mem_singleton.mp hcall
        obtain ⟨⟨v, hv, hr⟩, hlength⟩ := hchosen c rfl
        rw [hlength]
        exact hg.fitting v hv c.rule hr signature hsignature

end Listener

namespace Parlour

/-- The world of the parlour, as an author writes it. -/
def worldSheet : Document :=
  .mapping [(.text "scenes", .list [.mapping [(.text "id", .text "room"),
    (.text "objects", .list [.text "old rusty key", .text "old man"])]])]

/-- The grammar of the parlour, as an author writes it. -/
def grammarSheet : Document :=
  .mapping [
    (.text "symbols", .mapping [
      (.text "single", .text "entity"),
      (.text "style", .mapping [(.text "phrases", .list [.text "Waltz", .text "funky chicken"])])]),
    (.text "verbs", .list [
      .mapping [(.text "words", .text "give"), (.text "rules", .list [
        .mapping [(.text "pattern", .text "single"), (.text "action", .text "drop")]])],
      .mapping [(.text "words", .list [.text "hand", .text "Give"]), (.text "rules", .list [
        .mapping [(.text "pattern", .text "single \"to\" single"),
          (.text "action", .text "give")]])]])]

/-- The actions that the grammar of the parlour may name. -/
def actions : Actions := [("drop", .action drop), ("give", .action give)]

/-- The sheet of the grammar holds the grammar of the parlour. It is read step by step. -/
theorem ofDocument_grammarSheet :
    Grammar.ofDocument grammarSheet actions (some (.ofObjects [key, man])) =
      .ok listener.grammar := by
  refine bind_eq_ok_iff.mpr ⟨registry, rfl, bind_eq_ok_iff.mpr ⟨_, rfl, ?_⟩⟩
  refine bind_eq_ok_iff.mpr ⟨listener.grammar.verbs, ?_, rfl⟩
  exact bind_eq_ok_iff.mpr ⟨_, rfl, bind_eq_ok_iff.mpr ⟨_, rfl, rfl⟩⟩

end Parlour

open Parlour in
/-- Whatever is called in the parlour as it is loaded, for handing the key over to the man, is
called with values that it takes. -/
theorem Listener.accepts_give_key_to_man :
    Grammar.ofDocument grammarSheet actions (some (.ofObjects [key, man])) =
        .ok listener.grammar ∧
      World.ofDocument worldSheet = .ok (.ofObjects [key, man]) ∧
      (∀ d ∈ listener.articles, ∃ t, d = .text t) ∧
      ∀ call ∈ (listener.logged (some (.ofObjects [key, man])) (.text "Hand the key to man")).2,
        ∀ signature, call.action.signature = some signature →
          signature.accepts call.params.length := by
  have hworld : World.ofDocument worldSheet = .ok (.ofObjects [key, man]) := rfl
  have harticles : ∀ d ∈ listener.articles, ∃ t, d = .text t := by
    intro d hd
    exact ⟨"the", List.mem_singleton.mp hd⟩
  obtain ⟨ws, trace, choice, -, -, -, -, -, -, haccepts⟩ :=
    logged_of_loaded ofDocument_grammarSheet
      (fun w hw => ⟨worldSheet, Option.some.inj hw ▸ hworld⟩) harticles "Hand the key to man"
  exact ⟨ofDocument_grammarSheet, hworld, harticles, haccepts⟩

end TextAdventure
