import TextAdventure.Proofs.Reading

/-!
# A reference is a set of words

*Rusty old key* names what *old rusty key* names, and so does *key, rusty old key*: where all
entities go by their words, neither the order nor the number of the words in a reference matters,
only which words there are. The main statement, `TextAdventure.Reference.resolve_same_words`, says
this of the words that the resolver has taken, as a statement about two runs: if they are replaced
by any others with the same set, the same entity is meant, or the same ones are candidates.

Each entity's own run may become longer or shorter in the exchange, and so may each score. What
stays is who covers all the words taken: these are the entities with the highest score
(`TextAdventure.Reference.score_eq_length_iff`). An entity that lacks one of the words still lacks
it and stops inside the new words; one that has them all covers the new words, and then stops,
because the word behind is the one at which it stopped before. So the highest score is the number of
the new words, and its holders are the same (`TextAdventure.Reference.top_of_same_words`,
`TextAdventure.Reference.holders_of_same_words`).
-/

namespace TextAdventure.Reference

section Taken

variable {scope : List Entity} {ws segment rest : List String} {n : ℕ}
  (hplain : ∀ e ∈ scope, e.isPlain) (hahead : ws.drop n = segment ++ rest)
  (htop : top scope (ws.map .text) n = segment.length)

include hplain hahead htop

/-- An entity that is called by all the words taken is not called by the word behind them. -/
theorem not_mem_of_head?_rest {e : Entity} (he : e ∈ scope) (hcalled : ∀ w ∈ segment, w ∈ e.words) :
    ∀ w ∈ rest.head?, w ∉ e.words := by
  intro w hw hmem
  obtain ⟨more, rfl⟩ : ∃ more, rest = w :: more := by
    cases rest with
    | nil => simp at hw
    | cons first more => exact ⟨more, by rw [Option.mem_some.mp hw]⟩
  -- the entity would cover one word more than the highest score allows
  have hlonger : ws.drop n = (segment ++ [w]) ++ more := by rw [hahead, List.append_cons]
  have hall : ∀ u ∈ segment ++ [w], u ∈ e.words := by
    intro u hu
    rcases List.mem_append.mp hu with hu | hu
    · exact hcalled u hu
    · rwa [List.mem_singleton.mp hu]
  have hcovers := (length_le_score_iff (hplain e he) hlonger).mpr hall
  have hle : score e (ws.map .text) n ≤ top scope (ws.map .text) n := score_le_top he
  rw [List.length_append, List.length_singleton] at hcovers
  omega

end Taken

section Exchange

variable {scope : List Entity} {ws ws' segment segment' rest : List String} {n n' : ℕ}
  (hplain : ∀ e ∈ scope, e.isPlain) (hahead : ws.drop n = segment ++ rest)
  (hahead' : ws'.drop n' = segment' ++ rest) (hset : ∀ w, w ∈ segment' ↔ w ∈ segment)
  (htop : top scope (ws.map .text) n = segment.length)

include hplain hahead hahead' hset htop

/-- **Two runs of one entity.** If other words with the same set stand in place of those taken, no
entity covers more than these, and it covers all of them if it did before. -/
theorem score_of_same_words {e : Entity} (he : e ∈ scope) :
    score e (ws'.map .text) n' ≤ segment'.length ∧
      ((∀ w ∈ segment, w ∈ e.words) → score e (ws'.map .text) n' = segment'.length) := by
  by_cases hcalled : ∀ w ∈ segment, w ∈ e.words
  · have hcalled' : ∀ w ∈ segment', w ∈ e.words := fun w hw => hcalled w ((hset w).mp hw)
    have hended := not_mem_of_head?_rest hplain hahead htop he hcalled
    have hscore := score_eq_length (hplain e he) hahead' hcalled' hended
    exact ⟨hscore.le, fun _ => hscore⟩
  · -- the word that the entity lacks is among the new words, too
    have hlacks : ¬∀ w ∈ segment', w ∈ e.words := fun hcalled' =>
      hcalled fun w hw => hcalled' w ((hset w).mpr hw)
    rw [← length_le_score_iff (hplain e he) hahead', not_le] at hlacks
    exact ⟨hlacks.le, fun hall => absurd hall hcalled⟩

theorem top_of_same_words (hne : segment ≠ []) :
    top scope (ws'.map .text) n' = segment'.length := by
  have hlength : 0 < segment.length := List.length_pos_iff.mpr hne
  have hpos : 0 < top scope (ws.map .text) n := by omega
  obtain ⟨e, he, hmax⟩ := exists_score_eq_top hpos
  have hcalled := (score_eq_length_iff hplain hahead htop he).mp (hmax.trans htop)
  have hscore := (score_of_same_words hplain hahead hahead' hset htop he).2 hcalled
  rw [← hscore]
  refine top_eq_of_forall_le he (by omega) fun e' he' => ?_
  rw [hscore]
  exact (score_of_same_words hplain hahead hahead' hset htop he').1

/-- **The holders stay the same** when other words with the same set stand in place of those
taken. -/
theorem holders_of_same_words (hne : segment ≠ []) (hne' : segment' ≠ []) :
    holders scope (ws'.map .text) n' = holders scope (ws.map .text) n := by
  have htop' := top_of_same_words hplain hahead hahead' hset htop hne
  rw [holders_eq_filter_taken hplain hahead' htop' hne',
    holders_eq_filter_taken hplain hahead htop hne]
  simp only [hset]

end Exchange

/-- The input with other words in place of those taken: at the place where these began, the others
are ahead, and behind them what was behind. -/
theorem drop_exchange {ws : List String} {n : ℕ} (hn : n ≤ ws.length) (m : ℕ) (s : List String) :
    (ws.take n ++ s ++ ws.drop (n + m)).drop n = s ++ ws.drop (n + m) := by
  rw [List.append_assoc]
  exact List.drop_left' (List.length_take_of_le hn)

/-- The highest score and its holders, if other words with the same set stand in place of those
taken. -/
theorem leaders_exchange {scope : List Entity} (hplain : ∀ e ∈ scope, e.isPlain) {ws : List String}
    {n m : ℕ} {s : List String} (hne : s ≠ []) (hset : ∀ w, w ∈ s ↔ w ∈ (ws.drop n).take m)
    (htop : top scope (ws.map .text) n = m) :
    top scope ((ws.take n ++ s ++ ws.drop (n + m)).map .text) n = s.length ∧
      holders scope ((ws.take n ++ s ++ ws.drop (n + m)).map .text) n =
        holders scope (ws.map .text) n := by
  have htaken : (ws.drop n).take m ≠ [] := by
    obtain ⟨w, hw⟩ := List.exists_mem_of_ne_nil s hne
    exact List.ne_nil_of_mem ((hset w).mp hw)
  have hsome : 0 < ((ws.drop n).take m).length := List.length_pos_iff.mpr htaken
  rw [List.length_take, List.length_drop] at hsome
  -- the words taken are all there
  have hlength : m ≤ (ws.drop n).length := by
    rw [← Int.ofNat_le, ← htop]
    exact top_le_length_drop hplain
  have hahead : ws.drop n = (ws.drop n).take m ++ ws.drop (n + m) := by
    rw [← List.drop_drop, List.take_append_drop]
  have htop' : top scope (ws.map .text) n = ((ws.drop n).take m).length := by
    rw [htop, List.length_take_of_le hlength]
  have hahead' := drop_exchange (by omega : n ≤ ws.length) m s
  exact ⟨top_of_same_words hplain hahead hahead' hset htop' htaken,
    holders_of_same_words hplain hahead hahead' hset htop' htaken hne⟩

/-- **A reference depends on the set of its words.** Let all entities of a scope go by their words,
and let the words that a reference takes be replaced by others with the same set, in any order and
any number. If the reference was resolved, the same entity is meant, and the reference ends behind
the new words; if it was ambiguous, it is so between the same candidates, and the score is the
number of the new words. -/
theorem resolve_same_words (scope : List Entity) (hplain : ∀ e ∈ scope, e.isPlain)
    (ws : List String) (n m : ℕ) (s : List String) (hne : s ≠ [])
    (hset : ∀ w, w ∈ s ↔ w ∈ (ws.drop n).take m) :
    (∀ v cursor, resolve scope (ws.map .text) n = .ok ⟨.resolved v (n + m), cursor⟩ →
      resolve scope ((ws.take n ++ s ++ ws.drop (n + m)).map .text) n =
        .ok ⟨.resolved v (n + s.length), n + s.length⟩) ∧
    ∀ candidates cursor,
      resolve scope (ws.map .text) n = .ok ⟨.refused (.ambiguous candidates m), cursor⟩ →
      resolve scope ((ws.take n ++ s ++ ws.drop (n + m)).map .text) n =
        .ok ⟨.refused (.ambiguous candidates s.length), n⟩ := by
  constructor
  · intro v cursor h
    rw [resolve_words, Except.ok.injEq, Resolution.mk.injEq] at h
    obtain ⟨e, hone, rfl, hplace⟩ := outcome_eq_resolved_iff_holders.mp h.1
    obtain ⟨htop', hholders'⟩ := leaders_exchange hplain hne hset (by omega)
    have hout := outcome_eq_resolved_iff_holders.mpr ⟨e, hholders'.trans hone, rfl, rfl⟩
    rw [htop'] at hout
    rw [resolve_words, hout, cursorAfter]
  · intro candidates cursor h
    rw [resolve_words, Except.ok.injEq, Resolution.mk.injEq] at h
    obtain ⟨htwo, rfl, htop⟩ := outcome_eq_ambiguous_iff_holders.mp h.1
    obtain ⟨htop', hholders'⟩ := leaders_exchange hplain hne hset htop.symm
    have hout := outcome_eq_ambiguous_iff_holders.mpr ⟨hholders'.symm ▸ htwo, rfl, rfl⟩
    rw [htop', hholders'] at hout
    rw [resolve_words, hout, cursorAfter]

open Parlour in
/-- *Take rusty old key now* names the key, and so does *take key rusty key old now*. *Take old now*
is ambiguous between the key and the man, and so is *take old old now*. -/
theorem resolve_take_rusty_key :
    (∀ e ∈ [Entity.object key, .object man], e.isPlain) ∧
      (∀ w, w ∈ ["key", "rusty", "key", "old"] ↔
        w ∈ (["take", "rusty", "old", "key", "now"].drop 1).take 3) ∧
      (∀ w, w ∈ ["old", "old"] ↔ w ∈ (["take", "old", "now"].drop 1).take 1) ∧
      resolve [.object key, .object man]
          (["take", "rusty", "old", "key", "now"].map .text) (1 : ℕ) =
        .ok ⟨.resolved (.entity (.object key)) 4, 4⟩ ∧
      resolve [.object key, .object man]
          (["take", "key", "rusty", "key", "old", "now"].map .text) (1 : ℕ) =
        .ok ⟨.resolved (.entity (.object key)) 5, 5⟩ ∧
      resolve [.object key, .object man] (["take", "old", "now"].map .text) (1 : ℕ) =
        .ok ⟨.refused (.ambiguous ["old rusty key", "old man"] 1), 1⟩ ∧
      resolve [.object key, .object man] (["take", "old", "old", "now"].map .text) (1 : ℕ) =
        .ok ⟨.refused (.ambiguous ["old rusty key", "old man"] 2), 1⟩ := by
  have hplain : ∀ e ∈ [Entity.object key, .object man], e.isPlain := by
    intro e he
    rcases List.mem_pair.mp he with rfl | rfl <;> rfl
  have hkey : ∀ w, w ∈ ["key", "rusty", "key", "old"] ↔
      w ∈ (["take", "rusty", "old", "key", "now"].drop 1).take 3 := by
    intro w
    simp only [List.drop_succ_cons, List.drop_zero, List.take_succ_cons, List.take_zero,
      List.mem_cons, List.not_mem_nil, or_false]
    tauto
  have hold : ∀ w, w ∈ ["old", "old"] ↔ w ∈ (["take", "old", "now"].drop 1).take 1 := by
    intro w
    simp
  have hresolved := (resolve_same_words [.object key, .object man] hplain
    ["take", "rusty", "old", "key", "now"] 1 3 _ (List.cons_ne_nil _ _) hkey).1 _ _ rfl
  have hambiguous := (resolve_same_words [.object key, .object man] hplain
    ["take", "old", "now"] 1 1 _ (List.cons_ne_nil _ _) hold).2 _ _ rfl
  exact ⟨hplain, hkey, hold, rfl, hresolved, rfl, hambiguous⟩

end TextAdventure.Reference
