import TextAdventure.Proofs.Loading

/-!
# What a reader reports

A file that people write may hold anything anywhere, and whoever wrote it should be told what is
wrong with it. A reader *reports* if it gives a result or a misfit, and never ends by a fault that
was meant for programs (`TextAdventure.Reported`). This file says for exactly which documents the
readers of grammars and worlds report.

They do not for all. Most places of a document are looked at before they are used, but some are
taken for granted: fields that are gone through as lists, the symbols as a mapping, patterns as
texts, and names and ids as something that can be looked up. A document is *well shaped* if these
places are what they are taken for (`TextAdventure.Grammar.WellShaped`,
`TextAdventure.World.WellShaped`), and that only as far as it is read: behind the first misfit
nothing is looked at any more.

A sequence of steps reports exactly if its first step does and the others do from whatever it
results in (`TextAdventure.reported_bind_iff`). So the conditions follow the readers step by step,
and the main statement, `TextAdventure.Document.reported_iff_wellShaped`, is put together from one
equivalence for each of them.
-/

namespace TextAdventure

/-- **A reader reports** if it has a result or a misfit to show. -/
def Reported {α : Type} (r : Except Fault α) : Prop :=
  (∃ a, r = .ok a) ∨ ∃ cause, r = .error (.misfit cause)

section Steps

variable {α β : Type}

theorem reported_ok (a : α) : Reported (.ok a) := Or.inl ⟨a, rfl⟩

theorem reported_misfit (cause : Misfit) : Reported (.error (.misfit cause) : Except Fault α) :=
  Or.inr ⟨cause, rfl⟩

theorem reported_error_iff {f : Fault} :
    Reported (.error f : Except Fault α) ↔ ∃ cause, f = .misfit cause := by
  simp [Reported]

/-- **Two steps in a row report** exactly if the first does and the second does from its result. -/
theorem reported_bind_iff {first : Except Fault α} {next : α → Except Fault β} :
    Reported (first >>= next) ↔ Reported first ∧ ∀ a, first = .ok a → Reported (next a) := by
  cases first with
  | error f =>
    have hbind : (.error f >>= next : Except Fault β) = .error f := rfl
    rw [hbind, reported_error_iff, reported_error_iff]
    simp
  | ok a =>
    have hbind : (.ok a >>= next : Except Fault β) = next a := rfl
    rw [hbind]
    refine ⟨fun h => ⟨reported_ok a, fun a' ha' => Except.ok.inj ha' ▸ h⟩, fun h => h.2 a rfl⟩

/-- A step after which nothing can go wrong. -/
theorem reported_bind_of_forall {first : Except Fault α} {next : α → Except Fault β}
    (h : ∀ a, Reported (next a)) : Reported (first >>= next) ↔ Reported first := by
  rw [reported_bind_iff]
  exact and_iff_left fun a _ => h a

/-- What holds of the items of a list **as far as it is read**: of its first item, and of the others
if the first one has a result. The items are numbered. -/
def AsFarAsRead (read : ℕ → Document → Except Fault α) (good : ℕ → Document → Prop)
    (number : ℕ) : List Document → Prop
  | [] => True
  | d :: ds =>
    good number d ∧ ((∃ a, read number d = .ok a) → AsFarAsRead read good (number + 1) ds)

/-- A reader that goes through a list, item by item, reports exactly if the items do as far as they
are read. -/
theorem reported_list_iff {read : ℕ → Document → Except Fault α} {good : ℕ → Document → Prop}
    (readAll : ℕ → List Document → Except Fault (List α))
    (hnil : ∀ number, readAll number [] = .ok [])
    (hcons : ∀ number d ds, readAll number (d :: ds) = (do
      let a ← read number d
      let as ← readAll (number + 1) ds
      return a :: as))
    (hread : ∀ number d, Reported (read number d) ↔ good number d)
    (number : ℕ) (ds : List Document) :
    Reported (readAll number ds) ↔ AsFarAsRead read good number ds := by
  induction ds generalizing number with
  | nil => exact iff_of_true (hnil number ▸ reported_ok []) trivial
  | cons d ds ih =>
    rw [hcons, reported_bind_iff, hread, AsFarAsRead, forall_exists_index]
    refine and_congr_right fun _ => forall_congr' fun a => imp_congr_right fun _ => ?_
    have hrest : ∀ as, Reported (pure (a :: as) : Except Fault (List α)) := fun as => reported_ok _
    rw [reported_bind_of_forall hrest, ih]

end Steps

/-! ### Taking documents apart -/

namespace Document

/-- Whether a document has parts to go through. -/
def IsSequence : Document → Prop
  | .text _ | .list _ | .mapping _ => True
  | _ => False

/-- The entries that a field is gone through by, an empty field having none. -/
def HasEntries (field : Document) (entries : List Document) : Prop :=
  (field.orElse (.list [])).parts = .ok entries

theorem reported_parts_iff {d : Document} : Reported d.parts ↔ d.IsSequence := by
  cases d with
  | text s => exact iff_of_true (reported_ok _) trivial
  | list items => exact iff_of_true (reported_ok _) trivial
  | mapping entries => exact iff_of_true (reported_ok _) trivial
  | _ => simp [parts, IsSequence, reported_error_iff]

/-- Going through a field and on from its entries. -/
theorem reported_entries_iff {α : Type} {field : Document} {next : List Document → Except Fault α} :
    Reported ((field.orElse (.list [])).parts >>= next) ↔ (field.isEmpty ∨ field.IsSequence) ∧
      ∀ entries, field.HasEntries entries → Reported (next entries) := by
  rw [reported_bind_iff, reported_parts_iff, orElse]
  refine and_congr_left fun _ => ?_
  by_cases hempty : field.isEmpty
  · rw [if_pos hempty]
    exact iff_of_true trivial (Or.inl hempty)
  · simp [hempty]

/-- Documents that have to be texts are reported if they are not. -/
theorem reported_texts {fault : Document → Fault} (h : ∀ d, ∃ cause, fault d = .misfit cause)
    (ds : List Document) : Reported (texts fault ds) := by
  induction ds with
  | nil => exact reported_ok []
  | cons d ds ih =>
    cases d with
    | text s =>
      rw [texts]
      rcases ih with ⟨ss, hss⟩ | ⟨cause, hcause⟩
      · rw [hss]
        exact reported_ok _
      · rw [hcause]
        exact reported_misfit cause
    | _ =>
      simp only [texts, reported_error_iff]
      exact h _

end Document

/-! ### Grammars -/

namespace Registry

variable {world : Option World}

theorem reported_definitionOf (name d : Document) : Reported (definitionOf name d) := by
  cases d with
  | text s => exact reported_ok _
  | mapping fields => exact reported_ok _
  | _ => exact reported_misfit _

theorem reported_phrasesOf (name field : Document) : Reported (phrasesOf name field) := by
  unfold phrasesOf
  split_ifs
  · exact reported_misfit _
  · cases field with
    | text s => exact reported_ok _
    | list items => exact reported_ok _
    | _ => exact reported_misfit _

theorem reported_ofDocuments (ds : List Document) : Reported (Phrase.ofDocuments ds) := by
  rw [Phrase.ofDocuments]
  rcases Document.reported_texts (fun d => ⟨.phraseText d, rfl⟩) ds with ⟨ss, hss⟩ | ⟨cause, hcause⟩
  · rw [hss]
    exact reported_ok _
  · rw [hcause]
    exact reported_misfit cause

/-- A symbol's definition may be anything. -/
theorem reported_resolverOf (name definition : Document) :
    Reported (resolverOf world name definition) := by
  refine reported_bind_iff.mpr ⟨reported_definitionOf name definition, fun fields _ => ?_⟩
  dsimp only
  split_ifs
  · exact reported_misfit _
  · exact reported_ok _
  · refine reported_bind_iff.mpr ⟨reported_phrasesOf name _, fun ds _ => ?_⟩
    exact reported_bind_iff.mpr ⟨reported_ofDocuments ds, fun known _ => reported_ok _⟩
  · exact reported_misfit _

theorem reported_addSymbols (registry : Registry) (symbols : List (Document × Document)) :
    Reported (addSymbols world registry symbols) := by
  induction symbols generalizing registry with
  | nil => exact reported_ok registry
  | cons first rest ih =>
    obtain ⟨name, definition⟩ := first
    rw [addSymbols]
    exact reported_bind_iff.mpr ⟨reported_resolverOf name definition, fun r _ => ih _⟩

/-- Symbols are taken for a mapping unless the field is empty. -/
theorem reported_ofDocument_iff {symbols : Document} : Reported (ofDocument symbols world) ↔
    symbols.isEmpty ∨ ∃ entries, symbols = .mapping entries := by
  rw [ofDocument]
  by_cases hempty : symbols.isEmpty
  · rw [if_pos hempty]
    exact iff_of_true (reported_ok _) (Or.inl hempty)
  rw [if_neg hempty]
  cases symbols with
  | mapping entries => exact iff_of_true (reported_addSymbols [] entries) (Or.inr ⟨entries, rfl⟩)
  | _ => simp [Document.entries, reported_error_iff, hempty]

end Registry

/-- A pattern is taken for a text unless it is empty. -/
theorem Pattern.reported_ofDocument_iff {d : Document} :
    Reported (ofDocument d) ↔ d.isEmpty ∨ ∃ s, d = .text s := by
  unfold ofDocument
  by_cases hempty : d.isEmpty
  · rw [if_pos hempty]
    exact iff_of_true (reported_ok _) (Or.inl hempty)
  rw [if_neg hempty]
  cases d with
  | text s => exact iff_of_true (reported_ok s) (Or.inr ⟨s, rfl⟩)
  | _ => simp [reported_error_iff, hempty]

/-- Whatever else is wrong with a rule is reported. -/
theorem Rule.reported_make_iff {pattern : Document} {binding : Binding} {name : Document} :
    Reported (make pattern binding name) ↔ pattern.isEmpty ∨ ∃ s, pattern = .text s := by
  rw [make, reported_bind_of_forall, Pattern.reported_ofDocument_iff]
  intro text
  cases binding with
  | other d => exact reported_misfit _
  | action a =>
    dsimp only
    cases a.signature with
    | none => exact reported_ok _
    | some signature =>
      dsimp only
      split_ifs
      · exact reported_ok _
      · exact reported_misfit _

theorem Verb.reported_ofWords (words : List Document) (rules : List Rule) :
    Reported (ofWords words rules) := by
  refine reported_bind_iff.mpr
    ⟨Document.reported_texts (fun d => ⟨.verbWord d, rfl⟩) words, fun ws _ => ?_⟩
  cases ws with
  | nil => exact reported_misfit _
  | cons w ws => exact reported_ok _

namespace Grammar

/-- Whether an entry among the rules of a verb is what it is taken for: if it is a mapping, the name
of the action can be looked up; and if there is such an action, the pattern is a text unless it is
empty. -/
def RuleShaped (actions : Actions) : Document → Prop
  | .mapping fields =>
    (Document.field "action" fields).canBeKey ∧
      ∀ binding, actions.find (Document.field "action" fields) = .ok (some binding) →
        ∀ pattern, Document.field? "pattern" fields = some pattern →
          pattern.isEmpty ∨ ∃ s, pattern = .text s
  | _ => True

/-- Whether an entry among the verbs of a grammar is what it is taken for: if it is a mapping whose
words are in order, then its rules can be gone through and are what they are taken for as far as
they are read. -/
def VerbShaped (actions : Actions) (number : ℕ) : Document → Prop
  | .mapping fields =>
    ∀ words, wordsIn number (Document.field "words" fields) = .ok words →
      ((Document.field "rules" fields).isEmpty ∨ (Document.field "rules" fields).IsSequence) ∧
        ∀ entries, (Document.field "rules" fields).HasEntries entries →
          AsFarAsRead (fun _ => ruleOf actions number (.list words)) (fun _ => RuleShaped actions)
            0 entries
  | _ => True

/-- **A well shaped grammar document** is what it is taken for as far as it is read: if it is a
mapping, then its symbols are a mapping unless they are empty; and if these can be read, the verbs
can be gone through and are what they are taken for. -/
def WellShaped (actions : Actions) (world : Option World) : Document → Prop
  | .mapping fields =>
    ((Document.field "symbols" fields).isEmpty ∨
        ∃ entries, Document.field "symbols" fields = .mapping entries) ∧
      ∀ registry, Registry.ofDocument (Document.field "symbols" fields) world = .ok registry →
        ((Document.field "verbs" fields).isEmpty ∨ (Document.field "verbs" fields).IsSequence) ∧
          ∀ entries, (Document.field "verbs" fields).HasEntries entries →
            AsFarAsRead (verbOf actions) (VerbShaped actions) 1 entries
  | _ => True

variable {actions : Actions} {world : Option World}

theorem reported_find_iff {name : Document} : Reported (actions.find name) ↔ name.canBeKey := by
  unfold Actions.find
  cases hname : name.canBeKey with
  | false => simp [reported_error_iff]
  | true =>
    refine iff_of_true ?_ rfl
    cases name with
    | text s => exact reported_ok _
    | _ => exact reported_ok _

theorem reported_ruleOf_iff {number : ℕ} {words d : Document} :
    Reported (ruleOf actions number words d) ↔ RuleShaped actions d := by
  cases d with
  | mapping fields =>
    rw [ruleOf, RuleShaped, reported_bind_iff, reported_find_iff]
    refine and_congr_right fun _ =>
      ⟨fun h binding hfind pattern hpattern => ?_, fun h found hfind => ?_⟩
    · have hmake := h (some binding) hfind
      dsimp only at hmake
      rwa [hpattern, Option.getD_some, Rule.reported_make_iff] at hmake
    · cases found with
      | none => exact reported_misfit _
      | some binding =>
        refine Rule.reported_make_iff.mpr ?_
        cases hpattern : Document.field? "pattern" fields with
        | none => exact Or.inr ⟨"", rfl⟩
        | some pattern => exact h binding hfind pattern hpattern
  | _ => exact iff_of_true (reported_misfit _) trivial

theorem reported_wordsIn (number : ℕ) (field : Document) : Reported (wordsIn number field) := by
  unfold wordsIn
  split_ifs
  · exact reported_ok _
  · cases field with
    | text s => exact reported_ok _
    | list items => exact reported_ok _
    | _ => exact reported_misfit _

theorem reported_rulesOf_iff {number : ℕ} {words : Document} {ds : List Document} :
    Reported (rulesOf actions number words ds) ↔
      AsFarAsRead (fun _ => ruleOf actions number words) (fun _ => RuleShaped actions) 0 ds :=
  reported_list_iff (fun _ => rulesOf actions number words) (fun _ => rfl) (fun _ _ _ => rfl)
    (fun _ _ => reported_ruleOf_iff) 0 ds

theorem reported_verbOf_iff {number : ℕ} {d : Document} :
    Reported (verbOf actions number d) ↔ VerbShaped actions number d := by
  cases d with
  | mapping fields =>
    rw [verbOf, VerbShaped, reported_bind_iff]
    refine (and_iff_right (reported_wordsIn number _)).trans
      (forall_congr' fun words => imp_congr_right fun _ => ?_)
    rw [Document.reported_entries_iff]
    refine and_congr_right fun _ => forall_congr' fun entries => imp_congr_right fun _ => ?_
    rw [reported_bind_of_forall fun rules => Verb.reported_ofWords words rules,
      reported_rulesOf_iff]
  | _ => exact iff_of_true (reported_misfit _) trivial

theorem reported_make (verbs : List Verb) (registry : Registry) :
    Reported (make verbs registry) := by
  rw [make]
  split
  · exact reported_ok _
  · exact reported_misfit _

/-- **The reader of grammars reports** exactly on the well shaped documents. -/
theorem reported_ofDocument_iff {d : Document} :
    Reported (ofDocument d actions world) ↔ WellShaped actions world d := by
  cases d with
  | mapping fields =>
    rw [ofDocument, WellShaped, reported_bind_iff, Registry.reported_ofDocument_iff]
    refine and_congr_right fun _ => forall_congr' fun registry => imp_congr_right fun _ => ?_
    rw [Document.reported_entries_iff]
    refine and_congr_right fun _ => forall_congr' fun entries => imp_congr_right fun _ => ?_
    rw [reported_bind_of_forall fun verbs => reported_make verbs registry]
    exact reported_list_iff (verbsOf actions) (fun _ => rfl) (fun _ _ _ => rfl)
      (fun _ _ => reported_verbOf_iff) 1 entries
  | _ => exact iff_of_true (reported_misfit _) trivial

end Grammar

/-! ### Worlds -/

theorem GameObject.reported_aliasesIn (id field : Document) : Reported (aliasesIn id field) := by
  unfold aliasesIn
  split_ifs
  · exact reported_ok _
  · cases field with
    | text s => exact reported_ok _
    | list items => exact reported_ok _
    | _ => exact reported_misfit _

/-- An object's mapping may hold anything. -/
theorem GameObject.reported_ofDocument (id : Document) (fields : Table Document Document) :
    Reported (ofDocument id (.mapping fields)) := by
  rw [ofDocument, reported_bind_iff]
  refine ⟨reported_ok fields, fun fields' hfields => ?_⟩
  obtain rfl := Except.ok.inj hfields
  refine reported_bind_iff.mpr ⟨reported_aliasesIn id _, fun aliases _ => ?_⟩
  cases (Document.field? "name" fields).getD id with
  | text name =>
    refine reported_bind_iff.mpr ⟨?_, fun aliases _ => reported_ok _⟩
    exact Document.reported_texts (fun d => ⟨.aliasText name d, rfl⟩) aliases
  | _ => exact reported_misfit _

namespace Scene

theorem reported_objectOf (scene : Document) (number : ℕ) (d : Document) :
    Reported (objectOf scene number d) := by
  cases d with
  | text s => exact GameObject.reported_ofDocument _ _
  | mapping fields => exact GameObject.reported_ofDocument _ _
  | _ => exact reported_misfit _

theorem reported_objectsOf (scene : Document) (number : ℕ) (ds : List Document) :
    Reported (objectsOf scene number ds) := by
  induction ds generalizing number with
  | nil => exact reported_ok []
  | cons d ds ih =>
    refine reported_bind_iff.mpr ⟨reported_objectOf scene number d, fun o _ => ?_⟩
    exact reported_bind_iff.mpr ⟨ih (number + 1), fun os _ => reported_ok _⟩

/-- The objects of a scene are gone through, and whatever they are is reported. -/
theorem reported_ofDocument_iff {id : Document} {fields : Table Document Document} :
    Reported (ofDocument id (.mapping fields)) ↔
      (Document.field "objects" fields).isEmpty ∨ (Document.field "objects" fields).IsSequence := by
  rw [ofDocument, reported_bind_iff]
  refine (and_iff_right (reported_ok fields)).trans ?_
  constructor
  · intro h
    exact (Document.reported_entries_iff.mp (h fields rfl)).1
  · intro h fields' hfields
    obtain rfl := Except.ok.inj hfields
    refine Document.reported_entries_iff.mpr ⟨h, fun entries _ => ?_⟩
    exact reported_bind_iff.mpr ⟨reported_objectsOf id 0 entries, fun os _ => reported_ok _⟩

end Scene

namespace World

/-- The id and the scene of an entry among the scenes of a world. -/
def sceneEntry (d : Document) : Except Fault (Document × Scene) := do
  let id ← sceneId d
  let scene ← Scene.ofDocument id d
  if id.canBeKey then return (id, scene) else .error .wrongKind

/-- Whether an entry among the scenes of a world is what it is taken for. It has to be something
that an id can be looked for in, and only a mapping may seem to have one. The objects of a scene
with an id can be gone through, and the id can be looked up. -/
def SceneShaped : Document → Prop
  | .text s => Document.occursIn "id".toList s.toList = false
  | .list items => ∀ d ∈ items, d ≠ .text "id"
  | .mapping fields =>
    (∃ e ∈ fields, e.1 = .text "id") →
      ((Document.field "objects" fields).isEmpty ∨ (Document.field "objects" fields).IsSequence) ∧
        ((∃ scene, Scene.ofDocument (Document.field "id" fields) (.mapping fields) = .ok scene) →
          (Document.field "id" fields).canBeKey)
  | _ => False

/-- **A well shaped world document** is what it is taken for as far as it is read: if it is a
mapping, then its scenes can be gone through and are what they are taken for; and if they can be
read and there are some, then the scene to start in can be looked up. -/
def WellShaped : Document → Prop
  | .mapping fields =>
    ((Document.field "scenes" fields).isEmpty ∨ (Document.field "scenes" fields).IsSequence) ∧
      ∀ entries, (Document.field "scenes" fields).HasEntries entries →
        AsFarAsRead (fun _ => sceneEntry) (fun _ => SceneShaped) 0 entries ∧
          ∀ scenes, addScenes [] entries = .ok scenes → scenes ≠ [] →
            ∀ start, Document.field? "start_scene" fields = some start → start.canBeKey
  | _ => True

/-- Where no id is found, this is reported. -/
theorem sceneId_of_lacks {d : Document} (h : d.contains "id" = .ok false) :
    sceneId d = .error (.misfit .sceneWithoutId) := by
  unfold sceneId
  rw [h]
  rfl

theorem sceneId_mapping {fields : Table Document Document}
    (h : (Document.mapping fields).contains "id" = .ok true) :
    sceneId (.mapping fields) = .ok (Document.field "id" fields) := by
  rw [sceneId, h]
  rfl

/-- Something other than a mapping can seem to have an id. -/
theorem sceneId_of_seems {d : Document} (h : d.contains "id" = .ok true)
    (hd : ∀ fields, d ≠ .mapping fields) : sceneId d = .error .wrongKind := by
  unfold sceneId
  rw [h]
  cases d with
  | mapping fields => exact absurd rfl (hd fields)
  | _ => rfl

/-- An entry in which no id is found is reported, and one that only seems to have an id is not. -/
theorem reported_sceneEntry_of_contains {d : Document} {found : Bool}
    (h : d.contains "id" = .ok found) (hd : ∀ fields, d ≠ .mapping fields) :
    Reported (sceneEntry d) ↔ found = false := by
  cases found with
  | false =>
    refine iff_of_true ?_ rfl
    rw [sceneEntry, sceneId_of_lacks h]
    exact reported_misfit _
  | true =>
    refine iff_of_false ?_ (by simp)
    rw [sceneEntry, sceneId_of_seems h hd, reported_bind_iff]
    exact fun hreported => by simpa using reported_error_iff.mp hreported.1

theorem reported_sceneEntry_iff {d : Document} : Reported (sceneEntry d) ↔ SceneShaped d := by
  cases d with
  | text s => exact reported_sceneEntry_of_contains rfl (by simp)
  | list items =>
    rw [reported_sceneEntry_of_contains (d := .list items) rfl (by simp), SceneShaped,
      List.any_eq_false]
    exact forall₂_congr fun d _ => Document.isText_iff.not
  | mapping fields =>
    rw [SceneShaped]
    by_cases hid : ∃ e ∈ fields, e.1 = .text "id"
    · have hcontains : (Document.mapping fields).contains "id" = .ok true := by
        obtain ⟨e, he, hkey⟩ := hid
        exact congrArg Except.ok (List.any_eq_true.mpr ⟨e, he, Document.isText_iff.mpr hkey⟩)
      rw [sceneEntry, sceneId_mapping hcontains, reported_bind_iff]
      constructor
      · rintro ⟨-, h⟩ -
        obtain ⟨hobjects, hscene⟩ := reported_bind_iff.mp (h _ rfl)
        refine ⟨Scene.reported_ofDocument_iff.mp hobjects, fun ⟨scene, hread⟩ => ?_⟩
        by_contra hkey
        have hentry := hscene scene hread
        rw [if_neg hkey] at hentry
        simpa using reported_error_iff.mp hentry
      · intro h
        obtain ⟨hobjects, hkey⟩ := h hid
        refine ⟨reported_ok _, fun id hid => ?_⟩
        obtain rfl := Except.ok.inj hid
        refine reported_bind_iff.mpr
          ⟨Scene.reported_ofDocument_iff.mpr hobjects, fun scene hread => ?_⟩
        rw [if_pos (hkey ⟨scene, hread⟩)]
        exact reported_ok _
    · refine iff_of_true ?_ fun h => absurd h hid
      have hcontains : (Document.mapping fields).contains "id" = .ok false := by
        refine congrArg Except.ok (List.any_eq_false.mpr fun e he hkey => ?_)
        exact hid ⟨e, he, Document.isText_iff.mp hkey⟩
      rw [sceneEntry, sceneId_of_lacks hcontains]
      exact reported_misfit _
  | _ =>
    refine iff_of_false (fun h => ?_) id
    have hid := (reported_bind_iff.mp h).1
    have hcontains := (reported_bind_iff.mp hid).1
    simpa using reported_error_iff.mp hcontains

theorem addScenes_cons (table : Table Document Scene) (d : Document) (ds : List Document) :
    addScenes table (d :: ds) = sceneEntry d >>= fun e => addScenes (table.insert e.1 e.2) ds := by
  rw [addScenes, sceneEntry]
  cases sceneId d with
  | error f => rfl
  | ok id =>
    cases hscene : Scene.ofDocument id d with
    | error f => simp [hscene, bind, Except.bind]
    | ok scene =>
      simp only [hscene, bind, Except.bind]
      split_ifs <;> rfl

theorem reported_addScenes_iff {table : Table Document Scene} (number : ℕ) {ds : List Document} :
    Reported (addScenes table ds) ↔
      AsFarAsRead (fun _ => sceneEntry) (fun _ => SceneShaped) number ds := by
  induction ds generalizing table number with
  | nil => exact iff_of_true (reported_ok table) trivial
  | cons d ds ih =>
    rw [addScenes_cons, reported_bind_iff, reported_sceneEntry_iff, AsFarAsRead,
      forall_exists_index]
    exact and_congr_right fun _ => forall_congr' fun e => imp_congr_right fun _ => ih _

/-- The ids under which scenes are entered can all be looked up. -/
theorem canBeKey_of_addScenes {table table' : Table Document Scene} {ds : List Document}
    (h : addScenes table ds = .ok table') (hbefore : ∀ id ∈ table.keys, id.canBeKey) :
    ∀ id ∈ table'.keys, id.canBeKey := by
  refine forall_key_of_enterAll addScenes (fun _ => rfl) addScenes_cons (·.canBeKey) ?_ h hbefore
  rintro d ⟨id, scene⟩ hentry
  obtain ⟨id', -, hread⟩ := bind_eq_ok_iff.mp hentry
  obtain ⟨scene', -, hkeyed⟩ := bind_eq_ok_iff.mp hread
  split_ifs at hkeyed with hkey
  obtain ⟨rfl, rfl⟩ := Prod.mk.inj (Except.ok.inj hkeyed)
  exact hkey

/-- Looking up the scene to start in. -/
theorem reported_lookUp_iff {α : Type} {key : Document} {table : Table Document α} :
    Reported (Document.lookUp key table) ↔ key.canBeKey := by
  rw [Document.lookUp]
  split_ifs with hkey
  · exact iff_of_true (reported_ok _) hkey
  · refine iff_of_false (fun h => ?_) hkey
    simpa using reported_error_iff.mp h

/-- **The reader of worlds reports** exactly on the well shaped documents. -/
theorem reported_ofFile_iff {d : Document} : Reported (ofFile d) ↔ WellShaped d := by
  cases d with
  | mapping fields =>
    rw [ofFile, ofDocument, WellShaped, reported_bind_iff]
    refine (and_iff_right (reported_ok fields)).trans ?_
    simp only [Document.entries, Except.ok.injEq, forall_eq']
    rw [Document.reported_entries_iff]
    refine and_congr_right fun _ => forall_congr' fun entries => imp_congr_right fun _ => ?_
    rw [reported_bind_iff, reported_addScenes_iff 0]
    refine and_congr_right fun _ => forall_congr' fun scenes => imp_congr_right fun hscenes => ?_
    cases scenes with
    | nil => exact iff_of_true (reported_misfit _) fun h => absurd rfl h
    | cons first rest =>
      have hfirst : first.1.canBeKey :=
        canBeKey_of_addScenes hscenes (by simp [Table.keys]) first.1 (List.mem_cons_self ..)
      refine (reported_bind_of_forall fun found => ?_).trans ?_
      · cases found with
        | none => exact reported_misfit _
        | some scene => exact reported_ok _
      · rw [reported_lookUp_iff]
        cases hstart : Document.field? "start_scene" fields with
        | none => simp [hfirst]
        | some start => simp
  | _ => exact iff_of_true (reported_misfit _) trivial

end World

end TextAdventure
