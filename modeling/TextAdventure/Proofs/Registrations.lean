import TextAdventure.Action.Storeroom
import TextAdventure.Proofs.Keys
import TextAdventure.Proofs.Loading

/-!
# Registrations, and what is missing after them

The resolvers of a grammar are registered one after the other, and once all are there the grammar is
checked against them. Both are loops over a list that grows: the registry, which is searched for a
name before the name is entered, and the list of missing symbols, which is searched for repetitions.
This file says what stands in the two lists without the loops.

* **The registry.** A registration is refused if it brings no resolver, or if its name cannot be a
  key, and then the registry is the former one. All others enter what they bring
  (`TextAdventure.Registration.entered?`). So after any registrations, refused ones in between, the
  registry lists the names that came in, each once and where it came in first, and holds what came
  in last under a name (`TextAdventure.Registry.records_after`).
* **What is missing.** A grammar is refused if and only if some rule uses a symbol without a
  resolver, and the refusal lists these symbols in order of first use
  (`TextAdventure.Grammar.make_lists_missing`).

The step of the first loop is entering a table that has one entry or none, so that its run is
entering a table of all entries. The step of the second one puts a symbol behind all that were used
before it; the order of first use is the order of the places where a search finds the symbols
(`TextAdventure.Grammar.ListsMissing`).
-/

namespace TextAdventure

/-! ### Registrations -/

/-- A registration for a symbol. What it brings may be no resolver. -/
structure Registration where
  name : Document
  candidate : Option Resolver

/-- What a registration enters, if it is not refused. -/
def Registration.entered? (c : Registration) : Option (Document × Resolver) :=
  if c.name.canBeKey then c.candidate.map (c.name, ·) else none

theorem Registration.canBeKey_of_entered? {c : Registration} {e : Document × Resolver}
    (h : c.entered? = some e) : e.1.canBeKey := by
  rw [entered?] at h
  split_ifs at h with hkey
  obtain ⟨r, -, rfl⟩ := Option.map_eq_some_iff.mp h
  exact hkey

namespace Registry

/-- A registration with how it ends: the registry that is there afterwards, and the fault if it was
refused. -/
def call (registry : Registry) (c : Registration) : Registry × Option Fault :=
  match registry.register c.name c.candidate with
  | .ok registry => (registry, none)
  | .error f => (registry, some f)

/-- The registry after some registrations. -/
def after (registry : Registry) (calls : List Registration) : Registry :=
  calls.foldl (fun registry c => (registry.call c).1) registry

/-- **A step**: a registration enters what it brings, unless it is refused. -/
theorem call_fst (registry : Registry) (c : Registration) :
    (registry.call c).1 = Table.update registry c.entered?.toList := by
  obtain ⟨name, candidate⟩ := c
  cases candidate with
  | none =>
    have hnone : Registration.entered? ⟨name, none⟩ = none := ite_self none
    rw [hnone]
    rfl
  | some r =>
    rw [call, register, Registration.entered?]
    split_ifs <;> rfl

/-- **A run** enters the entries of all its registrations. -/
theorem after_eq (registry : Registry) (calls : List Registration) :
    registry.after calls = Table.update registry (calls.filterMap Registration.entered?) := by
  induction calls generalizing registry with
  | nil => rfl
  | cons c rest ih =>
    have hstep : registry.after (c :: rest) = (registry.call c).1.after rest := rfl
    rw [hstep, ih, call_fst]
    cases h : c.entered? with
    | none =>
      rw [List.filterMap_cons_none h]
      rfl
    | some e =>
      rw [List.filterMap_cons_some h]
      rfl

/-- **What a registry records** of some registrations. -/
structure Records (registry : Registry) (calls : List Registration) : Prop where
  /-- The names that came in are listed once each, in the order in which they first came in. -/
  names : registry.keys = (Table.keys (calls.filterMap Registration.entered?)).eraseDups
  /-- Under a name there is what came in last for it; what cannot be a key cannot be asked for. -/
  get : ∀ name, registry.get name =
    if name.canBeKey then
      .ok (((calls.filterMap Registration.entered?).filter (·.1 == name)).getLast?.map Prod.snd)
    else .error .wrongKind
  /-- The names that are there are those with a resolver. -/
  has : ∀ name, registry.has name ↔ ∃ r, registry.get name = .ok (some r)

/-- A name that comes in again keeps its place, and what is no resolver is not entered. -/
example : after [] [⟨.text "who", some .undefined⟩, ⟨.text "what", some (.phrases ["it"])⟩,
    ⟨.text "where", none⟩, ⟨.text "who", some (.phrases ["me"])⟩] =
      [(.text "who", .phrases ["me"]), (.text "what", .phrases ["it"])] := rfl

end Registry

/-! ### Missing symbols -/

namespace Grammar

/-- **A list of what is missing**: of some symbols that are used it has those without a resolver, in
order of first use. The place where a search finds a symbol is that of its first use, so that none
is listed twice. -/
structure ListsMissing (registry : Registry) (used names : List String) : Prop where
  mem_iff : ∀ name, name ∈ names ↔ name ∈ used ∧ registry.knows name = false
  order : names.Pairwise fun name name' => used.idxOf name < used.idxOf name'

variable {registry : Registry} {used names : List String}

theorem ListsMissing.nodup (h : ListsMissing registry used names) : names.Nodup := by
  refine h.order.imp fun hlt heq => ?_
  rw [heq] at hlt
  exact lt_irrefl _ hlt

/-- **A step**: one more symbol is used, and is listed if it is missing and was not used before. -/
theorem ListsMissing.concat (h : ListsMissing registry used names) (name : String) :
    ListsMissing registry (used ++ [name]) (addMissing registry names name) := by
  have hmem : ∀ name', name' ∈ addMissing registry names name ↔
      name' ∈ used ++ [name] ∧ registry.knows name' = false := by
    intro name'
    rw [mem_addMissing, h.mem_iff, List.mem_append, List.mem_singleton]
    constructor
    · rintro (⟨hused, hknows⟩ | ⟨rfl, hknows⟩)
      · exact ⟨Or.inl hused, hknows⟩
      · exact ⟨Or.inr rfl, hknows⟩
    · rintro ⟨hused | rfl, hknows⟩
      · exact Or.inl ⟨hused, hknows⟩
      · exact Or.inr ⟨rfl, hknows⟩
  -- what was used before keeps its place
  have hplace : ∀ name' ∈ names, (used ++ [name]).idxOf name' = used.idxOf name' :=
    fun name' hname' => List.idxOf_append_of_mem ((h.mem_iff name').mp hname').1
  have hbefore : names.Pairwise fun a b =>
      (used ++ [name]).idxOf a < (used ++ [name]).idxOf b := by
    refine h.order.imp_of_mem fun ha hb hlt => ?_
    rwa [hplace _ ha, hplace _ hb]
  refine ⟨hmem, ?_⟩
  rw [addMissing]
  split_ifs with hskip
  · exact hbefore
  · simp only [Bool.or_eq_true, List.contains_iff_mem, not_or, Bool.not_eq_true] at hskip
    obtain ⟨hknows, hnew⟩ := hskip
    have hfresh : name ∉ used := fun hused => hnew ((h.mem_iff name).mpr ⟨hused, hknows⟩)
    refine List.pairwise_append.mpr ⟨hbefore, List.pairwise_singleton _ _, fun a ha b hb => ?_⟩
    obtain rfl := List.mem_singleton.mp hb
    rw [hplace a ha, List.idxOf_append_of_notMem hfresh]
    exact Nat.lt_add_right _ (List.idxOf_lt_length_of_mem ((h.mem_iff a).mp ha).1)

/-- **A run** over the symbols that are used. -/
theorem listsMissing_foldl (registry : Registry) (used : List String) :
    ListsMissing registry used (used.foldl (addMissing registry) []) := by
  -- the induction takes the symbols from behind, where the loop stands when it looks at one
  induction used using List.reverseRecOn with
  | nil => exact ⟨by simp, .nil⟩
  | append_singleton used name ih =>
    rw [List.foldl_append]
    exact ih.concat name

/-- **Missing symbols are reported.** The making of a grammar is refused with a misfit if and only
if some rule uses a symbol for which nothing is registered. The misfit lists these symbols, each
once and in order of first use over the verbs, their rules and the rules' patterns, and its message
ends in the list, with commas between the names. If there is none, the grammar is made of the verbs
and the registry. -/
theorem make_lists_missing (verbs : List Verb) (registry : Registry) :
    ((∃ cause, make verbs registry = .error (.misfit cause)) ↔
      ∃ v ∈ verbs, ∃ r ∈ v.rules, ∃ name ∈ r.symbols, registry.knows name = false) ∧
    ∃ names, ListsMissing registry (symbolsUsed verbs) names ∧ names.Nodup ∧
      make verbs registry =
        (if names = [] then .ok ⟨verbs, registry⟩
          else .error (.misfit (.missingSymbols names))) ∧
      (Misfit.missingSymbols names).message =
        "No resolver registered for symbol(s): " ++ ", ".intercalate names := by
  have hlists : ListsMissing registry (symbolsUsed verbs) (missing verbs registry) :=
    missing_eq verbs registry ▸ listsMissing_foldl registry (symbolsUsed verbs)
  have hmake : make verbs registry =
      (if missing verbs registry = [] then .ok ⟨verbs, registry⟩
        else .error (.misfit (.missingSymbols (missing verbs registry)))) := by
    rw [make]
    split
    · rename_i hnil
      rw [if_pos hnil]
    · rename_i names hnames
      rw [if_neg hnames]
  have hsome : missing verbs registry ≠ [] ↔
      ∃ v ∈ verbs, ∃ r ∈ v.rules, ∃ name ∈ r.symbols, registry.knows name = false := by
    simp only [Ne, missing_eq_nil_iff, not_forall, Bool.not_eq_true, symbolsUsed, List.mem_flatMap]
    constructor
    · rintro ⟨name, ⟨v, hv, r, hr, hname⟩, hknows⟩
      exact ⟨v, hv, r, hr, name, hname, hknows⟩
    · rintro ⟨v, hv, r, hr, name, hname, hknows⟩
      exact ⟨name, ⟨v, hv, r, hr, hname⟩, hknows⟩
  refine ⟨?_, missing verbs registry, hlists, hlists.nodup, hmake, ?_⟩
  · rw [← hsome, hmake]
    split_ifs with hnil
    · simp [hnil]
    · exact iff_of_true ⟨_, rfl⟩ hnil
  · have hlisted : Document.listed (missing verbs registry) =
        ", ".intercalate (missing verbs registry) := Text.join_eq_intercalate ..
    rw [← hlisted]
    rfl

/-- A rule for dancing that uses some symbols. -/
def dancing (symbols : List String) : Rule :=
  ⟨"", symbols.map Token.symbol, Action.dance, .text "dance"⟩

/-- Verbs whose rules use symbols more than once. -/
def dancingVerbs : List Verb :=
  [⟨["dance"], [dancing ["style", "who"], dancing ["where", "style"]]⟩,
    ⟨["sway"], [dancing ["where", "who"]]⟩]

/-- With one of the three symbols registered, the other two are reported. -/
theorem make_dancing_missing :
    ∃ cause, make dancingVerbs [(.text "who", .reference .scene)] = .error (.misfit cause) ∧
      cause.message = "No resolver registered for symbol(s): style, where" := by
  have hcause : make dancingVerbs [(.text "who", .reference .scene)] =
      .error (.misfit (.missingSymbols ["style", "where"])) := rfl
  obtain ⟨-, names, -, -, hmake, hmessage⟩ :=
    make_lists_missing dancingVerbs [(.text "who", .reference .scene)]
  refine ⟨_, hcause, ?_⟩
  rw [hcause] at hmake
  split_ifs at hmake
  obtain rfl : ["style", "where"] = names := by simpa using hmake
  rw [hmessage]
  rfl

end Grammar

end TextAdventure
