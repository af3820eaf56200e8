import Mathlib.Data.List.TakeWhile
import TextAdventure.Proofs.Leaders
import TextAdventure.Proofs.Words

/-!
# What a symbol may stand for

Two kinds of symbols depend on the words of the input alone: those that stand for an entity of a
scope in which all entities go by their words, and those that stand for one of a list of phrases.
Such a symbol has a *sense*, and for a sense it can be said without any search which segment of the
input it takes and what the segment means:

* a segment names an entity of a scope if it is a full run of the entity's words – not empty, and
  not followed by another of them – that no other place of the scope could cover
  (`TextAdventure.Reference.Names`);
* a segment opens with a phrase if it is the phrase word by word, and no phrase declared before is
  the beginning of what is ahead (`TextAdventure.Phrase.Opens`).

The main statements are that on words a resolver never fails to give an outcome
(`TextAdventure.Sense.resolve_words`), and that it resolves exactly these segments
(`TextAdventure.Sense.outcome_eq_resolved_iff`).
-/

namespace TextAdventure

/-- Whether an entity goes by its words alone. -/
def Entity.isPlain : Entity → Bool
  | .object _ => true
  | .figure f => f.claim.isNone

theorem Entity.claimed?_of_isPlain {e : Entity} (h : e.isPlain) (input : List Document)
    (start : Int) : e.claimed? input start = none := by
  cases e with
  | object o => rfl
  | figure f =>
    have hclaim : f.claim = none := Option.isNone_iff_eq_none.mp h
    rw [claimed?, hclaim]

/-! ### References to plain entities -/

namespace Reference

/-- **A segment names an entity** of a scope, given the words after it. -/
structure Names (scope : List Entity) (e : Entity) (segment rest : List String) : Prop where
  nonempty : segment ≠ []
  /-- The segment consists of the entity's words. -/
  called : ∀ w ∈ segment, w ∈ e.words
  /-- The word after it is none of them. -/
  ended : ∀ w ∈ rest.head?, w ∉ e.words
  /-- Every other place of the scope lacks some word of the segment. -/
  alone : ∃ before after, scope = before ++ e :: after ∧
    ∀ e' ∈ before ++ after, ∃ w ∈ segment, w ∉ e'.words

variable {ws segment rest : List String} {n : ℕ}

/-- The score of a plain entity is the length of its run. -/
theorem score_words {e : Entity} (h : e.isPlain) :
    score e (ws.map .text) n = ((ws.drop n).takeWhile (· ∈ e.words)).length := by
  simp only [score, Entity.claimed?_of_isPlain h, run_words, List.length_map]

/-- The highest score of plain entities is at most the number of words ahead. -/
theorem top_le_length_drop {scope : List Entity} (hplain : ∀ e ∈ scope, e.isPlain) :
    top scope (ws.map .text) n ≤ (ws.drop n).length := by
  refine (top_le_iff scope (ws.map .text) n).mpr ⟨Int.natCast_nonneg _, fun e he => ?_⟩
  rw [score_words (hplain e he), Int.ofNat_le]
  exact (List.takeWhile_prefix _).length_le

/-- A plain entity covers at least a segment that is ahead if all its words are among its own. -/
theorem length_le_score_iff {e : Entity} (h : e.isPlain) (hahead : ws.drop n = segment ++ rest) :
    (segment.length : Int) ≤ score e (ws.map .text) n ↔ ∀ w ∈ segment, w ∈ e.words := by
  rw [score_words h, hahead, Int.ofNat_le]
  constructor
  · intro hle w hw
    -- the segment is a prefix of the run, both being prefixes of what is ahead
    have hpre : segment <+: (segment ++ rest).takeWhile (· ∈ e.words) :=
      List.prefix_of_prefix_length_le (List.prefix_append _ _) (List.takeWhile_prefix _) hle
    simpa using List.mem_takeWhile_imp (hpre.subset hw)
  · intro hall
    rw [List.takeWhile_append_of_pos fun w hw => decide_eq_true_iff.mpr (hall w hw),
      List.length_append]
    omega

/-- A full run of an entity's words is its whole score. -/
theorem score_eq_length {e : Entity} (h : e.isPlain) (hahead : ws.drop n = segment ++ rest)
    (hcalled : ∀ w ∈ segment, w ∈ e.words) (hended : ∀ w ∈ rest.head?, w ∉ e.words) :
    score e (ws.map .text) n = segment.length := by
  rw [score_words h, hahead,
    List.takeWhile_append_of_pos fun w hw => decide_eq_true_iff.mpr (hcalled w hw)]
  cases rest with
  | nil => simp
  | cons w ws' => simp [hended w rfl]

section Taken

/-! The words that a reference takes are a segment that is ahead and as long as the highest
score. -/

variable {scope : List Entity} (hplain : ∀ e ∈ scope, e.isPlain)
  (hahead : ws.drop n = segment ++ rest) (htop : top scope (ws.map .text) n = segment.length)

include hplain hahead htop

/-- The entities with the highest score are those that are called by all the words taken. -/
theorem score_eq_length_iff {e : Entity} (he : e ∈ scope) :
    score e (ws.map .text) n = segment.length ↔ ∀ w ∈ segment, w ∈ e.words := by
  rw [← length_le_score_iff (hplain e he) hahead]
  have hle : score e (ws.map .text) n ≤ top scope (ws.map .text) n := score_le_top he
  omega

theorem holders_eq_filter_taken (hne : segment ≠ []) :
    holders scope (ws.map .text) n = scope.filter fun e => ∀ w ∈ segment, w ∈ e.words := by
  have hpos : 0 < segment.length := List.length_pos_iff.mpr hne
  rw [holders_eq_filter (by omega)]
  refine List.filter_congr fun e he => ?_
  rw [decide_eq_decide, htop, score_eq_length_iff hplain hahead htop he]

end Taken

/-- **What a reference to plain entities means**: the entity that a segment ahead names. -/
theorem outcome_words_eq_resolved_iff {scope : List Entity} (hplain : ∀ e ∈ scope, e.isPlain)
    {v : Value} {place : Int} :
    outcome scope (ws.map .text) n = .resolved v place ↔
      ∃ e segment rest, v = .entity e ∧ ws.drop n = segment ++ rest ∧
        Names scope e segment rest ∧ place = n + segment.length := by
  rw [outcome_eq_resolved_iff]
  constructor
  · rintro ⟨before, e, after, rfl, rfl, hpos, hlt, rfl⟩
    have he := hplain e (by simp)
    -- the segment is the whole run of the entity with the highest score
    have hahead := (List.takeWhile_append_dropWhile (p := (· ∈ e.words)) (l := ws.drop n)).symm
    have hscore : score e (ws.map .text) n = ((ws.drop n).takeWhile (· ∈ e.words)).length :=
      score_words he
    refine ⟨e, _, _, rfl, hahead, ⟨fun hnil => ?_, fun w hw => ?_, fun w hw => ?_,
      before, after, rfl, fun e' he' => ?_⟩, by rw [hscore]⟩
    · rw [hscore, hnil] at hpos
      exact absurd hpos (by simp)
    · simpa using List.mem_takeWhile_imp hw
    · have hnot := List.head?_dropWhile_not (fun w => decide (w ∈ e.words)) (ws.drop n)
      rw [Option.mem_def.mp hw] at hnot
      exact decide_eq_false_iff_not.mp hnot
    · have he'lt := hlt e' he'
      by_contra! hall
      have hle := (length_le_score_iff (hplain e' (mem_of_mem_others he')) hahead).mpr hall
      rw [hscore] at he'lt
      omega
  · rintro ⟨e, segment, rest, rfl, hahead, ⟨hne, hcalled, hended, before, after, rfl, halone⟩, rfl⟩
    have hscore := score_eq_length (hplain e (by simp)) hahead hcalled hended
    refine ⟨before, e, after, rfl, rfl, ?_, fun e' he' => ?_, by rw [hscore]⟩
    · rw [hscore]
      exact Int.natCast_pos.mpr (List.length_pos_iff.mpr hne)
    · rw [hscore]
      obtain ⟨w, hw, hout⟩ := halone e' he'
      by_contra! hle
      exact hout ((length_le_score_iff (hplain e' (mem_of_mem_others he')) hahead).mp hle w hw)

end Reference

/-! ### Phrases -/

namespace Phrase

/-- **A segment opens with a phrase** of a list, given the words after it. -/
structure Opens (known : List String) (phrase : String) (segment rest : List String) : Prop where
  /-- The segment is the phrase word by word. -/
  words : segment = Text.words phrase
  /-- No phrase declared before fits what is ahead. -/
  first : ∃ before after, known = before ++ phrase :: after ∧
    ∀ q ∈ before, ¬Text.words q <+: segment ++ rest

variable {ws : List String} {n : ℕ}

/-- **What a phrase symbol means**: the first phrase whose words are ahead. -/
theorem outcome_words_eq_resolved_iff {known : List String} {v : Value} {place : Int} :
    outcome known (ws.map .text) n = .resolved v place ↔
      ∃ p segment rest, v = .document (.text p) ∧ ws.drop n = segment ++ rest ∧
        Opens known p segment rest ∧ place = n + segment.length := by
  constructor
  · intro h
    rw [outcome] at h
    cases hfind : known.find? fun phrase => fits phrase (ws.map .text) n with
    | none =>
      rw [hfind] at h
      exact absurd h (by simp)
    | some p =>
      rw [hfind] at h
      obtain ⟨rfl, rfl⟩ := Outcome.resolved.inj h
      obtain ⟨hp, before, after, hknown, hbefore⟩ := List.find?_eq_some_iff_append.mp hfind
      obtain ⟨rest, hrest⟩ := (fits_words_iff ws n p).mp hp
      refine ⟨p, _, rest, rfl, hrest.symm, ⟨rfl, before, after, hknown, fun q hq hpre => ?_⟩, rfl⟩
      rw [hrest] at hpre
      have hfits := (fits_words_iff ws n q).mpr hpre
      exact absurd (hbefore q hq) (by simp [hfits])
  · rintro ⟨p, segment, rest, rfl, hahead, ⟨rfl, before, after, rfl, hfirst⟩, rfl⟩
    have hfind : (before ++ p :: after).find? (fun phrase => fits phrase (ws.map .text) n) =
        some p := by
      refine List.find?_eq_some_iff_append.mpr
        ⟨(fits_words_iff ws n p).mpr ⟨rest, hahead.symm⟩, before, after, rfl, fun q hq => ?_⟩
      rw [Bool.not_eq_true', Bool.eq_false_iff, Ne, fits_words_iff, hahead]
      exact hfirst q hq
    rw [outcome, hfind]

end Phrase

/-! ### Senses -/

/-- What a symbol may stand for, where that depends on the words of the input alone. -/
inductive Sense where
  /-- An entity of a scope of plain entities. -/
  | entities (scope : List Entity) (plain : ∀ e ∈ scope, e.isPlain)
  /-- One of a list of phrases. -/
  | phrases (known : List String)

namespace Sense

/-- How a symbol with a sense is resolved. -/
def resolve : Sense → Resolve
  | .entities scope _ => Reference.resolve scope
  | .phrases known => Phrase.resolve known

/-- **What a segment means to a symbol**, given the words after it. -/
def Takes : Sense → List String → List String → Value → Prop
  | .entities scope _, segment, rest, v => ∃ e, v = .entity e ∧ Reference.Names scope e segment rest
  | .phrases known, segment, rest, v =>
    ∃ p, v = .document (.text p) ∧ Phrase.Opens known p segment rest

/-- What resolving a symbol with a sense comes to. -/
def outcome : Sense → List Document → Int → Outcome
  | .entities scope _ => Reference.outcome scope
  | .phrases known => Phrase.outcome known

section Words

variable (s : Sense) (ws : List String) (n : ℕ)

/-- **On words, a symbol with a sense always has an outcome**; the resolver's cursor follows it. -/
theorem resolve_words : s.resolve (ws.map .text) n =
    .ok ⟨s.outcome (ws.map .text) n, Reference.cursorAfter n (s.outcome (ws.map .text) n)⟩ := by
  cases s with
  | entities scope plain => exact Reference.resolve_words ws n scope
  | phrases known =>
    rw [resolve, Phrase.resolve, outcome]
    cases Phrase.outcome known (ws.map .text) n <;> rfl

variable {s ws n} in
/-- **What a symbol with a sense stands for**: the segment ahead that the sense takes. -/
theorem outcome_eq_resolved_iff {v : Value} {place : Int} :
    s.outcome (ws.map .text) n = .resolved v place ↔ ∃ segment rest,
      ws.drop n = segment ++ rest ∧ s.Takes segment rest v ∧ place = n + segment.length := by
  cases s with
  | entities scope plain =>
    rw [outcome, Reference.outcome_words_eq_resolved_iff plain]
    constructor
    · rintro ⟨e, segment, rest, hv, hahead, hnames, hplace⟩
      exact ⟨segment, rest, hahead, ⟨e, hv, hnames⟩, hplace⟩
    · rintro ⟨segment, rest, hahead, ⟨e, hv, hnames⟩, hplace⟩
      exact ⟨e, segment, rest, hv, hahead, hnames, hplace⟩
  | phrases known =>
    rw [outcome, Phrase.outcome_words_eq_resolved_iff]
    constructor
    · rintro ⟨p, segment, rest, hv, hahead, hopens, hplace⟩
      exact ⟨segment, rest, hahead, ⟨p, hv, hopens⟩, hplace⟩
    · rintro ⟨segment, rest, hahead, ⟨p, hv, hopens⟩, hplace⟩
      exact ⟨p, segment, rest, hv, hahead, hopens, hplace⟩

end Words

/-- The causes for which a symbol with a sense can be refused. -/
theorem reason_of_outcome {s : Sense} {input : List Document} {place : Int} {cause : Refusal}
    (h : s.outcome input place = .refused cause) :
    cause.reason ∈ [.text "no_matching_reference", .text "ambiguous_reference",
      .text "unknown_phrase"] := by
  cases s with
  | entities scope plain =>
    rw [outcome, Reference.outcome] at h
    split at h
    · obtain rfl := Outcome.refused.inj h
      simp [Refusal.reason]
    · simp at h
    · obtain rfl := Outcome.refused.inj h
      simp [Refusal.reason]
  | phrases known =>
    rw [outcome, Phrase.outcome] at h
    split at h
    · simp at h
    · obtain rfl := Outcome.refused.inj h
      simp [Refusal.reason]

end Sense

/-- The sense of a symbol, if its resolver has one: a reference whose scope holds plain entities
only, or a list of phrases. -/
def Registry.sense? (registry : Registry) (world : Option World) (name : String) : Option Sense :=
  match Table.get? (.text name) registry with
  | some (.reference scope) =>
    match Resolver.entitiesIn world scope with
    | .ok es => if h : ∀ e ∈ es, e.isPlain then some (.entities es h) else none
    | .error _ => none
  | some (.phrases known) => some (.phrases known)
  | _ => none

theorem Entity.isPlain_of_mem_map_object {os : List GameObject} :
    ∀ e ∈ os.map object, e.isPlain := by
  intro e he
  obtain ⟨o, -, rfl⟩ := List.mem_map.mp he
  rfl

/-- A symbol that refers to the scene where the player is has its objects for a sense. -/
theorem Registry.sense?_scene {registry : Registry} {w : World} {name : String}
    {os : List GameObject} (hget : Table.get? (.text name) registry = some (.reference .scene))
    (hos : w.objectsInScope = .ok os) : registry.sense? (some w) name =
      some (.entities (os.map .object) Entity.isPlain_of_mem_map_object) := by
  have hes : Resolver.entitiesIn (some w) .scene = .ok (os.map .object) := by
    rw [Resolver.entitiesIn, hos]
    rfl
  rw [sense?, hget]
  simp only [hes, dif_pos Entity.isPlain_of_mem_map_object]

/-- A symbol with a sense is resolved according to it. -/
theorem Registry.resolves_of_sense? {registry : Registry} {world : Option World} {name : String}
    {s : Sense} (h : registry.sense? world name = some s) :
    registry.resolves world name = some s.resolve := by
  rw [sense?] at h
  rw [resolves]
  cases hget : Table.get? (Document.text name) registry with
  | none => simp [hget] at h
  | some r =>
    rw [hget] at h
    cases r with
    | reference scope =>
      cases hes : Resolver.entitiesIn world scope with
      | error f => simp [hes] at h
      | ok es =>
        simp only [hes] at h
        obtain ⟨hplain, hs⟩ := (dite_eq_iff.mp h).resolve_right (by simp)
        obtain rfl := Option.some.inj hs
        rw [Option.map_some, Option.some_inj]
        funext input start
        simp only [Resolver.resolve, hes, Sense.resolve]
    | phrases known =>
      obtain rfl := Option.some.inj h
      rfl
    | custom way => simp at h
    | undefined => simp at h

theorem Registry.exists_sense_of_isSome {registry : Registry} {world : Option World} {name : String}
    (h : (registry.sense? world name).isSome) :
    ∃ s, registry.sense? world name = some s ∧ registry.resolves world name = some s.resolve := by
  obtain ⟨s, hs⟩ := Option.isSome_iff_exists.mp h
  exact ⟨s, hs, resolves_of_sense? hs⟩

end TextAdventure
