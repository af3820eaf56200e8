import TextAdventure.Proofs.Keys
import TextAdventure.Proofs.Phrasing
import TextAdventure.Proofs.Sayable
import TextAdventure.Proofs.Sheets

/-!
# Which grammar sheets are accepted

A sheet for a grammar is read by nested loops: through the symbols, the verbs, and the rules of each
verb, and at the end once more through the symbols of all rules. Each of them can stop at a misfit.
Here is what they come to, said without an order of steps: a sheet is *sound*
(`TextAdventure.Grammar.Sound`) if

* each symbol is defined, as a reference in a world that is there or by phrases
  (`TextAdventure.Registry.Defines`);
* each verb has words;
* each rule names an action that takes one value per symbol of its pattern; and
* each symbol of each pattern is among the symbols of the sheet.

And a grammar is what a sheet *declares* if its verbs and rules are those of the sheet in the order
in which they stand there, and its resolvers are those of the symbols
(`TextAdventure.Grammar.Declared`). Where the fields of a sheet are of the kinds that they should be
(`TextAdventure.Grammar.Regular`), the sound sheets are those that are accepted, with the grammar
that they declare, and all others are refused with a misfit
(`TextAdventure.Grammar.ofDocument_iff_sound`).

For every part of a sheet there is one equivalence, between what its reader results in and what the
part declares. They are put together by the lemmas on readers that go through lists.
-/

namespace TextAdventure

/-! ### Symbols -/

namespace Registry

/-- **What defines a symbol.** References are asked for by the name of their type and need a world.
Phrases have to be there, and the type need not be named then. -/
inductive Defines (world : Option World) : Document → Resolver → Prop
  | entityShort (hworld : world.isSome) : Defines world (.text "entity") (.reference .scene)
  | entity {d : Document} (hworld : world.isSome)
    (htype : d.under? "type" = some (.text "entity")) :
    Defines world d (.reference .scene)
  | phrases {d : Document} {ss : List String}
    (htype : (d.under? "type").getD (.text "phrases") = .text "phrases")
    (hphrases : (d.under "phrases").StandsFor ss) :
    Defines world d (.phrases (ss.map Phrase.canonical))

variable {world : Option World} {name : Document}

theorem typeOf_eq_entity_iff {fields : Table Document Document} :
    typeOf fields = .text "entity" ↔ Document.field? "type" fields = some (.text "entity") := by
  rw [typeOf]
  cases Document.field? "type" fields with
  | some type => simp
  | none =>
    split_ifs <;> simp

/-- Where there are phrases, the type is that of phrases unless another one is named. -/
theorem typeOf_of_phrases {fields : Table Document Document}
    (h : (Document.field "phrases" fields).isEmpty = false) :
    typeOf fields = (Document.field? "type" fields).getD (.text "phrases") := by
  have hsome : (Document.field? "phrases" fields).isSome := by
    rw [Document.field] at h
    cases hphrases : Document.field? "phrases" fields with
    | none => simp [hphrases, Document.isEmpty] at h
    | some phrases => rfl
  rw [typeOf, if_pos hsome]

/-- Phrases can be read from the fields that stand for them. -/
theorem exists_phrasesOf_iff {field : Document} {known : List String} :
    (∃ ds, phrasesOf name field = .ok ds ∧ Phrase.ofDocuments ds = .ok known) ↔
      ∃ ss, field.StandsFor ss ∧ known = ss.map Phrase.canonical := by
  have heq : phrasesOf name field =
      if field.isEmpty then .error (.misfit (.noPhrases name))
      else Document.listOf (fun d => .misfit (.phrasesShape name d)) field := by
    unfold phrasesOf Document.listOf
    split_ifs <;> rfl
  have hread : ∀ ds, phrasesOf name field = .ok ds ↔ field.isEmpty = false ∧ field.Lists ds := by
    intro ds
    rw [heq]
    split_ifs with hempty
    · simp [hempty]
    · simp [hempty, Document.listOf_eq_ok_iff]
  simp only [hread, Phrase.ofDocuments_eq_ok_iff]
  constructor
  · rintro ⟨-, ⟨hempty, hlists⟩, ss, rfl, rfl⟩
    rcases Document.lists_texts_iff.mp hlists with ⟨hempty', -⟩ | hss
    · exact absurd (hempty.symm.trans hempty') Bool.false_ne_true
    · exact ⟨ss, hss, rfl⟩
  · rintro ⟨ss, hss, rfl⟩
    exact ⟨ss.map .text, ⟨hss.isEmpty_eq_false, Document.lists_texts_iff.mpr (Or.inr hss)⟩, ss, rfl,
      rfl⟩

/-- What a mapping defines. -/
theorem resolverOf_mapping_eq_ok_iff {fields : Table Document Document} {r : Resolver} :
    resolverOf world name (.mapping fields) = .ok r ↔
      (world.isSome ∧ Document.field? "type" fields = some (.text "entity") ∧
          r = .reference .scene) ∨
        ((Document.field? "type" fields).getD (.text "phrases") = .text "phrases" ∧
          ∃ ss, (Document.field "phrases" fields).StandsFor ss ∧
            r = .phrases (ss.map Phrase.canonical)) := by
  rw [resolverOf, bind_eq_ok_iff]
  simp only [definitionOf, Except.ok.injEq, exists_eq_left']
  by_cases hentity : typeOf fields = .text "entity"
  · rw [if_pos (Document.isText_iff.mpr hentity)]
    have htype := typeOf_eq_entity_iff.mp hentity
    cases world with
    | none => simp [htype]
    | some w => simp [htype, pure, Except.pure, eq_comm]
  rw [if_neg (mt Document.isText_iff.mp hentity)]
  rw [typeOf_eq_entity_iff] at hentity
  by_cases hphrases : typeOf fields = .text "phrases"
  · rw [if_pos (Document.isText_iff.mpr hphrases), bind_eq_ok_iff]
    constructor
    · rintro ⟨ds, hds, h⟩
      obtain ⟨known, hknown, h⟩ := bind_eq_ok_iff.mp h
      obtain ⟨ss, hss, rfl⟩ := exists_phrasesOf_iff.mp ⟨ds, hds, hknown⟩
      exact Or.inr ⟨typeOf_of_phrases hss.isEmpty_eq_false ▸ hphrases, ss, hss,
        (Except.ok.inj h).symm⟩
    · rintro (⟨-, htype, -⟩ | ⟨-, ss, hss, rfl⟩)
      · exact absurd htype hentity
      · obtain ⟨ds, hds, hknown⟩ := exists_phrasesOf_iff.mpr ⟨ss, hss, rfl⟩
        exact ⟨ds, hds, bind_eq_ok_iff.mpr ⟨_, hknown, rfl⟩⟩
  · rw [if_neg (mt Document.isText_iff.mp hphrases)]
    refine iff_of_false (by simp) ?_
    rintro (⟨-, htype, -⟩ | ⟨htype, ss, hss, -⟩)
    · exact hentity htype
    · exact hphrases (typeOf_of_phrases hss.isEmpty_eq_false ▸ htype)

/-- **A symbol has the resolver by which it is defined.** -/
theorem resolverOf_eq_ok_iff {d : Document} {r : Resolver} :
    resolverOf world name d = .ok r ↔ Defines world d r := by
  constructor
  · intro h
    cases d with
    | text s =>
      -- a text is short for a mapping that has a type and nothing else
      rcases resolverOf_mapping_eq_ok_iff.mp h with ⟨hworld, htype, rfl⟩ | ⟨-, ss, hss, -⟩
      · obtain rfl : s = "entity" := Document.text.inj (Option.some.inj htype)
        exact .entityShort hworld
      · exact Bool.noConfusion hss.isEmpty_eq_false
    | mapping fields =>
      rcases resolverOf_mapping_eq_ok_iff.mp h with ⟨hworld, htype, rfl⟩ | ⟨htype, ss, hss, rfl⟩
      · exact .entity hworld htype
      · exact .phrases htype hss
    | _ =>
      obtain ⟨fields, hfields, -⟩ := bind_eq_ok_iff.mp h
      simp [definitionOf] at hfields
  · intro h
    cases h with
    | entityShort hworld =>
      have hread : resolverOf world name (.text "entity") =
          resolverOf world name (.mapping [(.text "type", .text "entity")]) := rfl
      rw [hread]
      exact resolverOf_mapping_eq_ok_iff.mpr (Or.inl ⟨hworld, rfl, rfl⟩)
    | entity hworld htype =>
      obtain ⟨fields, rfl⟩ := Document.isMapping_of_under? htype
      exact resolverOf_mapping_eq_ok_iff.mpr (Or.inl ⟨hworld, htype, rfl⟩)
    | phrases htype hss =>
      obtain ⟨fields, rfl⟩ := hss.isMapping
      exact resolverOf_mapping_eq_ok_iff.mpr (Or.inr ⟨htype, _, hss, rfl⟩)

/-- **What an entry among the symbols declares**: the name with the resolver by which it is
defined. -/
def Declares (world : Option World) (symbol : Document × Document) (e : Document × Resolver) :
    Prop :=
  e.1 = symbol.1 ∧ Defines world symbol.2 e.2

theorem symbolEntry_eq_ok_iff {symbol : Document × Document} {e : Document × Resolver} :
    symbolEntry world symbol = .ok e ↔ Declares world symbol e := by
  obtain ⟨name, r⟩ := e
  rw [symbolEntry, bind_eq_ok_iff, Declares]
  constructor
  · rintro ⟨r', hr, h⟩
    obtain ⟨rfl, rfl⟩ := Prod.mk.inj (Except.ok.inj h)
    exact ⟨rfl, resolverOf_eq_ok_iff.mp hr⟩
  · rintro ⟨rfl, hr⟩
    exact ⟨r, resolverOf_eq_ok_iff.mpr hr, rfl⟩

/-- The resolvers of some symbols are entered one after the other. -/
theorem addSymbols_eq_ok_iff {registry registry' : Registry}
    {symbols : List (Document × Document)} :
    addSymbols world registry symbols = .ok registry' ↔
      ∃ entries, List.Forall₂ (Declares world) symbols entries ∧
        registry' = registry.update entries :=
  enterAll_eq_ok_iff (addSymbols world) (fun _ => rfl) addSymbols_cons
    (fun _ _ _ => symbolEntry_eq_ok_iff) registry registry'

/-- **The registry of a sheet** holds what its symbols declare. -/
theorem ofDocument_eq_ok_iff {symbols : Document} (h : symbols.isEmpty ∨ symbols.IsMapping)
    {registry : Registry} : ofDocument symbols world = .ok registry ↔
      ∃ entries, List.Forall₂ (Declares world) symbols.entriesIn entries ∧
        registry = Table.ofList entries := by
  have hread : ofDocument symbols world = addSymbols world [] symbols.entriesIn := by
    rw [ofDocument]
    by_cases hempty : symbols.isEmpty
    · rw [if_pos hempty, Document.entriesIn_of_isEmpty hempty]
      rfl
    · obtain ⟨entries, rfl⟩ := h.resolve_left hempty
      rw [if_neg hempty]
      rfl
  rw [hread]
  exact addSymbols_eq_ok_iff

/-- What is declared has the names of the symbols. -/
theorem keys_eq_of_declares {symbols : List (Document × Document)}
    {entries : List (Document × Resolver)} (h : List.Forall₂ (Declares world) symbols entries) :
    Table.keys entries = Table.keys symbols := by
  induction h with
  | nil => rfl
  | cons hdeclares _ ih => exact congrArg₂ List.cons hdeclares.1 ih

/-- The symbols that a registry knows are those of its sheet. -/
theorem knows_ofList_iff {symbols : List (Document × Document)}
    {entries : List (Document × Resolver)} (h : List.Forall₂ (Declares world) symbols entries)
    {s : String} : knows (Table.ofList entries) s ↔ .text s ∈ Table.keys symbols := by
  have hexact := Document.isExact_text s
  have hhas : Table.has (.text s) (Table.ofList entries) = _ := Table.has_update hexact [] entries
  rw [knows, hhas, ← keys_eq_of_declares h, ← Table.has_iff_mem_keys hexact]
  rfl

end Registry

/-! ### Rules -/

/-- The pattern that stands in a field, if it is a text or empty. -/
theorem Pattern.ofDocument_eq_ok {d : Document} (h : d.isEmpty ∨ ∃ s, d = .text s) :
    ofDocument d = .ok (d.text?.getD "") := by
  unfold ofDocument
  split_ifs with hempty
  · cases d with
    | text s =>
      obtain rfl : s = "" := by simpa [Document.isEmpty] using hempty
      rfl
    | _ => rfl
  · obtain ⟨s, rfl⟩ := h.resolve_left hempty
    rfl

/-- Only a text names an action. -/
theorem Actions.find_eq_some_iff {actions : Actions} {name : Document} {binding : Binding} :
    actions.find name = .ok (some binding) ↔
      ∃ s, name = .text s ∧ Table.get? s actions = some binding := by
  cases name with
  | text s =>
    have hfind : actions.find (.text s) = .ok (Table.get? s actions) := rfl
    simp [hfind]
  | _ => simp [find, Document.canBeKey]

namespace Rule

/-- The pattern in an entry among the rules of a verb: a text, or the blank pattern if there is
none. -/
def patternIn (d : Document) : String := (d.under "pattern").text?.getD ""

/-- The symbols of the pattern in an entry among the rules of a verb. -/
def symbolsIn (d : Document) : List String := Pattern.symbolsOf (Pattern.compile (patternIn d))

/-- Whether the fields of an entry among the rules of a verb are of the right kinds. -/
structure Regular (d : Document) : Prop where
  pattern : (d.under "pattern").isEmpty ∨ ∃ s, d.under "pattern" = .text s
  action : (d.under "action").canBeKey

/-- **The rule that an entry declares**: its pattern, with the action that stands under the name
that is given. The rule is called by this name, or by that of the action if it is empty. -/
structure Declares (actions : Actions) (d : Document) (r : Rule) : Prop where
  action : ∃ name, d.under "action" = .text name ∧
    Table.get? name actions = some (.action r.action) ∧
    r.label = (Document.text name).orElse (.text r.action.name)
  pattern : r.pattern = patternIn d
  tokens : r.tokens = Pattern.compile (patternIn d)
  fitting : r.IsFitting

variable {actions : Actions} {d : Document} {r : Rule}

theorem Declares.isMapping (h : Declares actions d r) : d.IsMapping := by
  obtain ⟨name, hname, -⟩ := h.action
  have hne : d.under "action" ≠ .null := by simp [hname]
  exact Document.isMapping_of_under hne

/-- The symbols of a rule are those of its entry. -/
theorem Declares.symbols_eq (h : Declares actions d r) : symbolsIn d = r.symbols := by
  rw [symbols, h.tokens, symbolsIn]

theorem exists_declares_iff : (∃ r, Declares actions d r) ↔
    ∃ name a, d.under "action" = .text name ∧ Table.get? name actions = some (.action a) ∧
      ∀ signature, a.signature = some signature → signature.accepts (symbolsIn d).length := by
  constructor
  · rintro ⟨r, h⟩
    obtain ⟨name, hname, ha, -⟩ := h.action
    exact ⟨name, r.action, hname, ha, h.symbols_eq ▸ h.fitting⟩
  · rintro ⟨name, a, hname, ha, hfitting⟩
    refine ⟨⟨patternIn d, Pattern.compile (patternIn d), a,
        (Document.text name).orElse (.text a.name)⟩,
      ⟨name, hname, ha, rfl⟩, rfl, rfl, hfitting⟩

/-- The pattern of an entry is the one that is read. -/
theorem ofDocument_pattern (h : Regular d) :
    Pattern.ofDocument ((d.under? "pattern").getD (.text "")) = .ok (patternIn d) := by
  have hpattern := h.pattern
  rw [patternIn]
  rw [Document.under] at hpattern ⊢
  cases hunder : d.under? "pattern" with
  | none => rfl
  | some pattern =>
    rw [hunder] at hpattern
    exact Pattern.ofDocument_eq_ok hpattern

/-- **An entry among the rules of a verb** is read as the rule that it declares. -/
theorem ruleOf_eq_ok_iff (h : Regular d) (number : ℕ) (words : Document) :
    Grammar.ruleOf actions number words d = .ok r ↔ Declares actions d r := by
  cases d with
  | mapping fields =>
    have hpattern := ofDocument_pattern h
    rw [Grammar.ruleOf, bind_eq_ok_iff]
    constructor
    · rintro ⟨found, hfind, hmake⟩
      cases found with
      | none => simp at hmake
      | some binding =>
        obtain ⟨text, a, htext, rfl, rfl, hfitting⟩ := make_eq_ok_iff.mp hmake
        obtain rfl := Except.ok.inj (hpattern.symm.trans htext)
        obtain ⟨name, hname, ha⟩ := Actions.find_eq_some_iff.mp hfind
        exact ⟨⟨name, hname, ha, congrArg (Document.orElse · (.text a.name)) hname⟩, rfl, rfl,
          hfitting⟩
    · rintro ⟨⟨name, hname, ha, hlabel⟩, htext, htokens, hfitting⟩
      refine ⟨_, Actions.find_eq_some_iff.mpr ⟨name, hname, ha⟩, ?_⟩
      refine make_eq_ok_iff.mpr ⟨_, _, hpattern, rfl, ?_, hfitting⟩
      obtain ⟨pattern, tokens, a, label⟩ := r
      have hlabel' : label = (Document.field "action" fields).orElse (.text a.name) :=
        hlabel.trans (congrArg (Document.orElse · (.text a.name)) hname.symm)
      obtain rfl : pattern = patternIn _ := htext
      obtain rfl : tokens = Pattern.compile _ := htokens
      rw [hlabel']
      rfl
  | _ =>
    refine iff_of_false (by simp [Grammar.ruleOf]) fun hd => ?_
    obtain ⟨entries, hentries⟩ := hd.isMapping
    exact Document.noConfusion hentries

end Rule

/-! ### Verbs -/

namespace Verb

/-- The entries among the rules of a verb. -/
def rulesIn (d : Document) : List Document := (d.under "rules").itemsIn

/-- Whether the fields of an entry among the verbs of a grammar are of the right kinds. -/
structure Regular (d : Document) : Prop where
  listed : (d.under "rules").IsListed
  rules : ∀ e ∈ rulesIn d, Rule.Regular e

/-- **The verb that an entry declares**: its words in lower case, and its rules in order. -/
structure Declares (actions : Actions) (d : Document) (v : Verb) : Prop where
  words : ∃ ss, (d.under "words").StandsFor ss ∧ v.words = ss.map Text.lower
  rules : List.Forall₂ (Rule.Declares actions) (rulesIn d) v.rules

variable {actions : Actions} {d : Document} {v : Verb}

theorem Declares.isMapping (h : Declares actions d v) : d.IsMapping := by
  obtain ⟨ss, hss, -⟩ := h.words
  exact hss.isMapping

/-- The symbols of a verb's rules are those of its entry. -/
theorem Declares.symbols_eq (h : Declares actions d v) :
    (rulesIn d).flatMap Rule.symbolsIn = v.rules.flatMap Rule.symbols :=
  flatMap_eq_of_forall₂ (h.rules.imp fun _ _ hr => hr.symbols_eq)

theorem exists_declares_iff : (∃ v, Declares actions d v) ↔
    (∃ ss, (d.under "words").StandsFor ss) ∧ ∀ e ∈ rulesIn d, ∃ r, Rule.Declares actions e r := by
  constructor
  · rintro ⟨v, ⟨ss, hss, -⟩, hrules⟩
    exact ⟨⟨ss, hss⟩, exists_forall₂_iff.mp ⟨v.rules, hrules⟩⟩
  · rintro ⟨⟨ss, hss⟩, hrules⟩
    obtain ⟨rules, hrules⟩ := exists_forall₂_iff.mpr hrules
    exact ⟨⟨ss.map Text.lower, rules⟩, ⟨ss, hss, rfl⟩, hrules⟩

/-- The rules of a verb are read one after the other. -/
theorem rulesOf_eq_ok_iff {ds : List Document} (h : ∀ e ∈ ds, Rule.Regular e) (number : ℕ)
    (words : Document) {rules : List Rule} :
    Grammar.rulesOf actions number words ds = .ok rules ↔
      List.Forall₂ (Rule.Declares actions) ds rules := by
  have hread : ∀ e ∈ ds, ∀ (_ : ℕ) (r : Rule),
      Grammar.ruleOf actions number words e = .ok r ↔ Rule.Declares actions e r :=
    fun e he _ _ => Rule.ruleOf_eq_ok_iff (h e he) number words
  rw [← forall₂_zipIdx_iff]
  exact readAll_eq_ok_iff (fun _ => Grammar.rulesOf actions number words) (fun _ => rfl)
    (fun _ _ _ => rfl) hread 0 rules

/-- The words of a verb are read from a field that stands for them. -/
theorem exists_wordsIn_iff {number : ℕ} {field : Document} {rules : List Rule} :
    (∃ words, Grammar.wordsIn number field = .ok words ∧ ofWords words rules = .ok v) ↔
      ∃ ss, field.StandsFor ss ∧ v = ⟨ss.map Text.lower, rules⟩ := by
  have hread : ∀ words, Grammar.wordsIn number field = .ok words ↔ field.Lists words :=
    fun words => Document.listOf_eq_ok_iff fun d => .misfit (.verbWordsShape number d)
  simp only [hread, ofWords_eq_ok_iff]
  constructor
  · rintro ⟨-, hlists, ss, rfl, hne, rfl⟩
    rcases Document.lists_texts_iff.mp hlists with ⟨-, hnil⟩ | hss
    · exact absurd hnil hne
    · exact ⟨ss, hss, rfl⟩
  · rintro ⟨ss, hss, rfl⟩
    exact ⟨ss.map .text, Document.lists_texts_iff.mpr (Or.inr hss), ss, rfl, hss.ne_nil, rfl⟩

/-- **An entry among the verbs of a grammar** is read as the verb that it declares. -/
theorem verbOf_eq_ok_iff (h : Regular d) (number : ℕ) :
    Grammar.verbOf actions number d = .ok v ↔ Declares actions d v := by
  cases d with
  | mapping fields =>
    rw [Grammar.verbOf, bind_eq_ok_iff]
    constructor
    · rintro ⟨words, hwords, hread⟩
      obtain ⟨entries, hentries, hrest⟩ := bind_eq_ok_iff.mp hread
      obtain ⟨rules, hrules, hverb⟩ := bind_eq_ok_iff.mp hrest
      obtain rfl := h.listed.hasEntries_iff.mp hentries
      obtain ⟨ss, hss, rfl⟩ := exists_wordsIn_iff.mp ⟨words, hwords, hverb⟩
      exact ⟨⟨ss, hss, rfl⟩, (rulesOf_eq_ok_iff h.rules number _).mp hrules⟩
    · rintro ⟨⟨ss, hss, hwords⟩, hrules⟩
      obtain ⟨lowered, rules⟩ := v
      obtain rfl : lowered = ss.map Text.lower := hwords
      obtain ⟨words, hwords, hread⟩ := exists_wordsIn_iff.mpr ⟨ss, hss, rfl⟩
      refine ⟨words, hwords, bind_eq_ok_iff.mpr ⟨_, h.listed.hasEntries_iff.mpr rfl, ?_⟩⟩
      exact bind_eq_ok_iff.mpr ⟨rules, (rulesOf_eq_ok_iff h.rules number _).mpr hrules, hread⟩
  | _ =>
    refine iff_of_false (by simp [Grammar.verbOf]) fun hd => ?_
    obtain ⟨entries, hentries⟩ := hd.isMapping
    exact Document.noConfusion hentries

end Verb

/-! ### Grammars -/

namespace Grammar

/-- The entries among the symbols of a grammar. -/
def symbolsIn (sheet : Document) : List (Document × Document) := (sheet.under "symbols").entriesIn

/-- The entries among the verbs of a grammar. -/
def verbsIn (sheet : Document) : List Document := (sheet.under "verbs").itemsIn

/-- **A regular grammar sheet** is a mapping whose fields are of the right kinds: the symbols are a
mapping or left empty, verbs and rules are lists or left empty, patterns are texts or left empty,
and the names of actions can be looked up. -/
structure Regular (sheet : Document) : Prop where
  mapping : sheet.IsMapping
  symbols : (sheet.under "symbols").isEmpty ∨ (sheet.under "symbols").IsMapping
  listed : (sheet.under "verbs").IsListed
  verbs : ∀ d ∈ verbsIn sheet, Verb.Regular d

/-- **A sound grammar sheet** has nothing in it that would be refused. -/
structure Sound (actions : Actions) (world : Option World) (sheet : Document) : Prop where
  /-- Each symbol is defined. -/
  symbols : ∀ symbol ∈ symbolsIn sheet, ∃ r, Registry.Defines world symbol.2 r
  /-- Each verb has words. -/
  words : ∀ d ∈ verbsIn sheet, ∃ ss, (d.under "words").StandsFor ss
  /-- Each rule names an action that takes one value per symbol of its pattern. -/
  rules : ∀ d ∈ verbsIn sheet, ∀ e ∈ Verb.rulesIn d, ∃ name a, e.under "action" = .text name ∧
    Table.get? name actions = some (.action a) ∧
    ∀ signature, a.signature = some signature → signature.accepts (Rule.symbolsIn e).length
  /-- Each symbol of a pattern is a symbol of the grammar. -/
  known : ∀ d ∈ verbsIn sheet, ∀ e ∈ Verb.rulesIn d, ∀ name ∈ Rule.symbolsIn e,
    .text name ∈ Table.keys (symbolsIn sheet)

/-- **The grammar that a sheet declares**: its verbs in order, with the resolvers of its symbols
entered one after the other. -/
structure Declares (actions : Actions) (world : Option World) (sheet : Document) (g : Grammar) :
    Prop where
  verbs : List.Forall₂ (Verb.Declares actions) (verbsIn sheet) g.verbs
  registry : ∃ entries, List.Forall₂ (Registry.Declares world) (symbolsIn sheet) entries ∧
    g.registry = Table.ofList entries

variable {actions : Actions} {world : Option World} {sheet : Document} {g : Grammar}

/-- The verbs of a grammar are read one after the other. -/
theorem verbsOf_eq_ok_iff {ds : List Document} (h : ∀ d ∈ ds, Verb.Regular d) {verbs : List Verb} :
    verbsOf actions 1 ds = .ok verbs ↔ List.Forall₂ (Verb.Declares actions) ds verbs := by
  rw [← forall₂_zipIdx_iff]
  exact readAll_eq_ok_iff (verbsOf actions) (fun _ => rfl) (fun _ _ _ => rfl)
    (fun d hd number _ => Verb.verbOf_eq_ok_iff (h d hd) number) 1 verbs

/-- A grammar can be made if its symbols are all known. -/
theorem make_eq_ok_iff {verbs : List Verb} {registry : Registry} :
    make verbs registry = .ok g ↔
      (∀ name ∈ symbolsUsed verbs, registry.knows name) ∧ g = ⟨verbs, registry⟩ := by
  rw [make, ← missing_eq_nil_iff]
  cases missing verbs registry with
  | nil => simp [eq_comm]
  | cons name names => simp

/-- The symbols that a grammar uses are those of the patterns in its sheet. -/
theorem Declares.symbolsUsed_eq (h : Declares actions world sheet g) :
    (verbsIn sheet).flatMap (fun d => (Verb.rulesIn d).flatMap Rule.symbolsIn) =
      symbolsUsed g.verbs :=
  flatMap_eq_of_forall₂ (h.verbs.imp fun _ _ hv => hv.symbols_eq)

/-- Whether all symbols are known can be seen from the sheet. -/
theorem Declares.knows_iff (h : Declares actions world sheet g) :
    (∀ name ∈ symbolsUsed g.verbs, g.registry.knows name) ↔
      ∀ d ∈ verbsIn sheet, ∀ e ∈ Verb.rulesIn d, ∀ name ∈ Rule.symbolsIn e,
        .text name ∈ Table.keys (symbolsIn sheet) := by
  obtain ⟨entries, hentries, hregistry⟩ := h.registry
  rw [← h.symbolsUsed_eq, hregistry]
  simp only [Registry.knows_ofList_iff hentries, List.forall_mem_flatMap]

/-- **A regular sheet is read as a grammar** if this is the one that it declares, and all symbols
are known. -/
theorem ofDocument_eq_ok_iff (h : Regular sheet) :
    ofDocument sheet actions world = .ok g ↔ Declares actions world sheet g ∧
      ∀ name ∈ symbolsUsed g.verbs, g.registry.knows name := by
  obtain ⟨fields, rfl⟩ := h.mapping
  rw [ofDocument, bind_eq_ok_iff]
  constructor
  · rintro ⟨registry, hregistry, hread⟩
    obtain ⟨entries, hentries, hrest⟩ := bind_eq_ok_iff.mp hread
    obtain ⟨verbs, hverbs, hmake⟩ := bind_eq_ok_iff.mp hrest
    obtain rfl := h.listed.hasEntries_iff.mp hentries
    obtain ⟨hknown, rfl⟩ := make_eq_ok_iff.mp hmake
    exact ⟨⟨(verbsOf_eq_ok_iff h.verbs).mp hverbs,
      (Registry.ofDocument_eq_ok_iff h.symbols).mp hregistry⟩, hknown⟩
  · rintro ⟨⟨hverbs, hregistry⟩, hknown⟩
    refine ⟨g.registry, (Registry.ofDocument_eq_ok_iff h.symbols).mpr hregistry, ?_⟩
    refine bind_eq_ok_iff.mpr ⟨_, h.listed.hasEntries_iff.mpr rfl, ?_⟩
    exact bind_eq_ok_iff.mpr
      ⟨g.verbs, (verbsOf_eq_ok_iff h.verbs).mpr hverbs, make_eq_ok_iff.mpr ⟨hknown, rfl⟩⟩

/-- Sound are the sheets that declare a grammar whose symbols are all known. -/
theorem exists_declares_iff : (∃ g, Declares actions world sheet g ∧
      ∀ name ∈ symbolsUsed g.verbs, g.registry.knows name) ↔ Sound actions world sheet := by
  constructor
  · rintro ⟨g, hg, hknown⟩
    have hverbs : ∀ d ∈ verbsIn sheet, ∃ v, Verb.Declares actions d v :=
      exists_forall₂_iff.mp ⟨g.verbs, hg.verbs⟩
    obtain ⟨entries, hentries, -⟩ := hg.registry
    have hsymbols : ∀ symbol ∈ symbolsIn sheet, ∃ e, Registry.Declares world symbol e :=
      exists_forall₂_iff.mp ⟨entries, hentries⟩
    refine ⟨fun symbol hsymbol => ?_, fun d hd => ?_, fun d hd e he => ?_, hg.knows_iff.mp hknown⟩
    · obtain ⟨⟨name, r⟩, -, hr⟩ := hsymbols symbol hsymbol
      exact ⟨r, hr⟩
    · exact (Verb.exists_declares_iff.mp (hverbs d hd)).1
    · exact Rule.exists_declares_iff.mp ((Verb.exists_declares_iff.mp (hverbs d hd)).2 e he)
  · intro h
    have hverbs : ∀ d ∈ verbsIn sheet, ∃ v, Verb.Declares actions d v := fun d hd =>
      Verb.exists_declares_iff.mpr
        ⟨h.words d hd, fun e he => Rule.exists_declares_iff.mpr (h.rules d hd e he)⟩
    have hsymbols : ∀ symbol ∈ symbolsIn sheet, ∃ e, Registry.Declares world symbol e := by
      intro symbol hsymbol
      obtain ⟨r, hr⟩ := h.symbols symbol hsymbol
      exact ⟨(symbol.1, r), rfl, hr⟩
    obtain ⟨verbs, hverbs⟩ := exists_forall₂_iff.mpr hverbs
    obtain ⟨entries, hentries⟩ := exists_forall₂_iff.mpr hsymbols
    have hg : Declares actions world sheet ⟨verbs, Table.ofList entries⟩ :=
      ⟨hverbs, entries, hentries, rfl⟩
    exact ⟨_, hg, hg.knows_iff.mpr h.known⟩

/-- Nothing in a regular sheet is taken for what it is not. -/
theorem Regular.wellShaped (h : Regular sheet) : WellShaped actions world sheet := by
  obtain ⟨fields, rfl⟩ := h.mapping
  refine ⟨h.symbols, fun registry _ => ⟨h.listed.isSequence, fun entries hentries => ?_⟩⟩
  obtain rfl := h.listed.hasEntries_iff.mp hentries
  refine asFarAsRead_of_forall (fun d hd number => ?_) 1
  have hverb := h.verbs d hd
  cases d with
  | mapping fields =>
    intro words _
    refine ⟨hverb.listed.isSequence, fun entries hentries => ?_⟩
    obtain rfl := hverb.listed.hasEntries_iff.mp hentries
    refine asFarAsRead_of_forall (fun e he _ => ?_) 0
    have hrule := hverb.rules e he
    cases e with
    | mapping fields =>
      refine ⟨hrule.action, fun _ _ pattern hpattern => ?_⟩
      have hunder : (Document.mapping fields).under "pattern" = pattern :=
        Document.under_of_under? hpattern
      exact hunder ▸ hrule.pattern
    | _ => trivial
  | _ => trivial

end Grammar

namespace Parlour

/-- A sheet in which the type of a symbol is nothing, which is not the same as leaving it out. -/
def typelessSheet : Document :=
  .mapping [(.text "symbols", .mapping [
    (.text "style", .mapping [(.text "type", .null), (.text "phrases", .list [.text "Waltz"])])])]

theorem regular_verb (words : Document) (pattern action : String) :
    Verb.Regular (.mapping [(.text "words", words), (.text "rules", .list [
      .mapping [(.text "pattern", .text pattern), (.text "action", .text action)]])]) := by
  refine ⟨Or.inr ⟨_, rfl⟩, fun e he => ?_⟩
  obtain rfl := List.mem_singleton.mp he
  exact ⟨Or.inr ⟨pattern, rfl⟩, rfl⟩

theorem regular_grammarSheet : Grammar.Regular grammarSheet where
  mapping := ⟨_, rfl⟩
  symbols := Or.inr ⟨_, rfl⟩
  listed := Or.inr ⟨_, rfl⟩
  verbs := by
    intro d hd
    rcases List.mem_cons.mp hd with rfl | hd
    · exact regular_verb ..
    · obtain rfl := List.mem_singleton.mp hd
      exact regular_verb ..

theorem regular_typelessSheet : Grammar.Regular typelessSheet where
  mapping := ⟨_, rfl⟩
  symbols := Or.inr ⟨_, rfl⟩
  listed := Or.inl rfl
  verbs := fun _ hd => absurd hd List.not_mem_nil

theorem not_sound_typelessSheet (actions : Actions) (world : Option World) :
    ¬Grammar.Sound actions world typelessSheet := by
  intro h
  obtain ⟨r, hr⟩ := h.symbols _ (List.mem_singleton_self _)
  cases hr with
  | entity _ htype => exact Document.noConfusion (Option.some.inj htype)
  | phrases htype _ => exact Document.noConfusion htype

end Parlour

end TextAdventure
