import TextAdventure.Proofs.Reading

/-!
# One more word

A reference that is ambiguous lacks a word. The candidates have all the words that were said; if one
of them has another word that no other candidate has, then this word, said next, settles the matter.

Two things have to be seen for this, and neither depends on the order of the scope.

* The candidates are not the only entities with the new word: any other entity of the scope may have
  it, too. But such an entity lacks one of the words before, its run ended there, and a word behind
  that place adds nothing to it. What counts is who is called by *all* the words
  (`TextAdventure.Reference.called`), and with every word there are fewer of them
  (`TextAdventure.Reference.called_concat`).
* The new words need not be the last ones. Whatever follows, an entity that is called by all the
  words so far is ahead of every entity that is not, so the leaders are among them
  (`TextAdventure.Reference.holders_sublist_called`).

The main statement is `TextAdventure.Reference.resolve_one_more_word`.
-/

namespace TextAdventure.Reference

/-! ### Entities that are called by all of some words -/

/-- The entities of a scope that are called by all of some words. -/
def called (scope : List Entity) (us : List String) : List Entity :=
  scope.filter fun e => ∀ u ∈ us, u ∈ e.words

theorem mem_called {scope : List Entity} {us : List String} {e : Entity} :
    e ∈ called scope us ↔ e ∈ scope ∧ ∀ u ∈ us, u ∈ e.words := by
  rw [called, List.mem_filter, decide_eq_true_iff]

/-- **One more word** leaves those who have it, of the entities that are called by the words
before. -/
theorem called_concat (scope : List Entity) (us : List String) (u : String) :
    called scope (us ++ [u]) = (called scope us).filter fun e => u ∈ e.words := by
  rw [called, called, List.filter_filter]
  refine List.filter_congr fun e _ => ?_
  rw [← Bool.decide_and, decide_eq_decide, List.forall_mem_append, List.forall_mem_singleton,
    and_comm]

section Ahead

variable {scope : List Entity} {ws segment rest : List String} {n : ℕ}
  (hplain : ∀ e ∈ scope, e.isPlain) (hahead : ws.drop n = segment ++ rest)

include hplain hahead

/-- If somebody is called by all the words of a segment, the highest score is no less than that. -/
theorem length_le_top (hsome : called scope segment ≠ []) :
    (segment.length : Int) ≤ top scope (ws.map .text) n := by
  obtain ⟨e, hcalled⟩ := List.exists_mem_of_ne_nil _ hsome
  obtain ⟨he, hall⟩ := mem_called.mp hcalled
  have hscore := (length_le_score_iff (hplain e he) hahead).mpr hall
  exact hscore.trans (score_le_top he)

/-- **Who leads** is called by all the words of a segment if anybody is, whatever follows it. -/
theorem holders_sublist_called (hne : segment ≠ []) (hsome : called scope segment ≠ []) :
    (holders scope (ws.map .text) n).Sublist (called scope segment) := by
  have htop := length_le_top hplain hahead hsome
  have hlength : 0 < segment.length := List.length_pos_iff.mpr hne
  -- the leaders are found in the scope, and in it among those who are called
  have hleaders : holders scope (ws.map .text) n =
      (called scope segment).filter fun e =>
        score e (ws.map .text) n = top scope (ws.map .text) n := by
    rw [holders_eq_filter (by omega), called, List.filter_filter]
    refine List.filter_congr fun e he => ?_
    rw [← Bool.decide_and, decide_eq_decide]
    refine (and_iff_left_of_imp fun hscore => ?_).symm
    exact (length_le_score_iff (hplain e he) hahead).mp (hscore ▸ htop)
  rw [hleaders]
  exact List.filter_sublist

/-- **A lone entity that is called by all the words of a segment** is meant, whatever follows. -/
theorem outcome_of_called_eq_singleton {c : Entity} (hne : segment ≠ [])
    (hone : called scope segment = [c]) :
    ∃ place : ℕ, n + segment.length ≤ place ∧ place ≤ ws.length ∧
      outcome scope (ws.map .text) n = .resolved (.entity c) place := by
  have hsome : called scope segment ≠ [] := by simp [hone]
  have htop := length_le_top hplain hahead hsome
  have hlength : 0 < segment.length := List.length_pos_iff.mpr hne
  have hend : top scope (ws.map .text) n ≤ (ws.drop n).length := top_le_length_drop hplain
  rw [List.length_drop] at hend
  -- somebody leads, and only the one who is called can
  have hleads : holders scope (ws.map .text) n = [c] := by
    obtain ⟨e, he, hmax⟩ := exists_score_eq_top (by omega : 0 < top scope (ws.map .text) n)
    have hmem : e ∈ holders scope (ws.map .text) n := mem_holders.mpr ⟨he, by omega, hmax⟩
    have hsub := holders_sublist_called hplain hahead hne hsome
    rw [hone] at hsub
    exact (List.sublist_singleton.mp hsub).resolve_left (List.ne_nil_of_mem hmem)
  obtain ⟨m, hm⟩ := Int.eq_ofNat_of_zero_le (top_nonneg scope (ws.map .text) n)
  refine ⟨n + m, by omega, by omega, ?_⟩
  rw [outcome_eq_resolved_iff_holders]
  exact ⟨c, hleads, rfl, by rw [hm, Int.natCast_add]⟩

end Ahead

/-! ### The word that was lacking -/

/-- The words that an ambiguous reference takes, and the candidates: those who are called by all of
them. -/
theorem called_of_ambiguous {scope : List Entity} (hplain : ∀ e ∈ scope, e.isPlain)
    {ws : List String} {n k : ℕ} {candidates : List String}
    (htied : outcome scope (ws.map .text) n = .refused (.ambiguous candidates k)) :
    0 < k ∧ n + k ≤ ws.length ∧
      called scope ((ws.drop n).take k) = scope.filter fun e => score e (ws.map .text) n = k := by
  obtain ⟨htwo, -, htop⟩ := outcome_eq_ambiguous_iff_holders.mp htied
  obtain ⟨e, hmem⟩ := List.exists_mem_of_length_pos
    (by omega : 0 < (holders scope (ws.map .text) n).length)
  have hpos : 0 < top scope (ws.map .text) n :=
    (mem_holders.mp hmem).2.2 ▸ (mem_holders.mp hmem).2.1
  have hrun : k ≤ (ws.drop n).length := by
    rw [← Int.ofNat_le, htop]
    exact top_le_length_drop hplain
  have htaken : ((ws.drop n).take k).length = k := List.length_take_of_le hrun
  have hahead : ws.drop n = (ws.drop n).take k ++ (ws.drop n).drop k :=
    (List.take_append_drop k (ws.drop n)).symm
  rw [List.length_drop] at hrun
  refine ⟨by omega, by omega, List.filter_congr fun e he => ?_⟩
  have hiff := score_eq_length_iff hplain hahead (htaken.symm ▸ htop.symm) he
  rw [htaken] at hiff
  rw [decide_eq_decide, hiff]

/-- **One more word settles an ambiguous reference.** Let all entities of a scope go by their words,
and let a reference be ambiguous at some score, between the entities that have this score. If a word
is among the words of exactly one of them, and it is said next, then this one is meant, whatever
else is in the scope and whatever words follow. The reference ends behind the new word or later, but
not behind the end of the input. -/
theorem resolve_one_more_word (scope : List Entity) (hplain : ∀ e ∈ scope, e.isPlain)
    (ws : List String) (n k : ℕ) {candidates : List String} {cursor : Int}
    (htied : resolve scope (ws.map .text) n = .ok ⟨.refused (.ambiguous candidates k), cursor⟩)
    (u : String) (c : Entity)
    (hone : ((scope.filter fun e => score e (ws.map .text) n = k).filter
      fun e => u ∈ e.words) = [c]) (tail : List String) :
    ∃ place : ℕ, n + k + 1 ≤ place ∧ place ≤ (ws.take (n + k) ++ [u] ++ tail).length ∧
      resolve scope ((ws.take (n + k) ++ [u] ++ tail).map .text) n =
        .ok ⟨.resolved (.entity c) place, place⟩ := by
  rw [resolve_words, Except.ok.injEq, Resolution.mk.injEq] at htied
  obtain ⟨hk, hend, hcalled⟩ := called_of_ambiguous hplain htied.1
  rw [← hcalled, ← called_concat] at hone
  -- in the new input, the words taken and the new one are ahead
  have hahead : (ws.take (n + k) ++ [u] ++ tail).drop n = ((ws.drop n).take k ++ [u]) ++ tail := by
    rw [List.append_assoc, List.drop_append_of_le_length (by rw [List.length_take]; omega),
      List.drop_take, Nat.add_sub_cancel_left, List.append_assoc]
  have hlength : ((ws.drop n).take k ++ [u]).length = k + 1 := by
    rw [List.length_append, List.length_take, List.length_drop, List.length_singleton]
    omega
  obtain ⟨place, hfrom, hto, hout⟩ :=
    outcome_of_called_eq_singleton hplain hahead (by simp) hone
  refine ⟨place, by omega, hto, ?_⟩
  rw [resolve_words, hout, cursorAfter]

end TextAdventure.Reference

namespace TextAdventure

/-- A third object for the parlour: a statue that is as rusty as the key. -/
def Parlour.statue : GameObject := .called ["rusty", "man"]

open Parlour in
/-- *Take old* is ambiguous between the key and the man. *Take old man*, with *old now* behind it,
is not, although the statue is called a man, too. -/
theorem Reference.resolve_take_old_man :
    (∀ e ∈ [Entity.object key, .object man, .object statue], e.isPlain) ∧
      resolve [.object key, .object man, .object statue] (["take", "old"].map .text) (1 : ℕ) =
        .ok ⟨.refused (.ambiguous ["old rusty key", "old man"] 1), 1⟩ ∧
      (([Entity.object key, .object man, .object statue].filter fun e =>
        score e (["take", "old"].map .text) (1 : ℕ) = 1).filter fun e => "man" ∈ e.words) =
        [.object man] ∧
      ∃ place : ℕ, 3 ≤ place ∧ place ≤ 5 ∧
        resolve [.object key, .object man, .object statue]
            (["take", "old", "man", "old", "now"].map .text) (1 : ℕ) =
          .ok ⟨.resolved (.entity (.object man)) place, place⟩ := by
  have hplain : ∀ e ∈ [Entity.object key, .object man, .object statue], e.isPlain := by
    intro e he
    simp only [List.mem_cons, List.not_mem_nil, or_false] at he
    rcases he with rfl | rfl | rfl <;> rfl
  exact ⟨hplain, rfl, rfl, resolve_one_more_word _ hplain ["take", "old"] 1 1 rfl "man"
    (.object man) rfl ["old", "now"]⟩

end TextAdventure
