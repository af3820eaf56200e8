import Mathlib.Algebra.Order.Group.Int
import Mathlib.Data.List.Induction
import Mathlib.Data.List.Perm.Basic
import TextAdventure.Reference

/-!
# The leaders of a scope

A reference is settled in one pass through the scope, with the leading entities so far and their
score in hand. This file says what is in hand at the end, whatever the order in which the entities
were met: the highest score of the scope, `TextAdventure.Reference.top`, and exactly the entities
that have it, in scope order, provided that it is positive (`TextAdventure.Reference.leaders_eq`).

Two readings of this follow. A reference is resolved exactly when one place of the scope has a
positive score above all others (`TextAdventure.Reference.outcome_eq_resolved_iff`); and the leaders
of two scopes that are permutations of each other, entities without a positive score apart, are
permutations of each other (`TextAdventure.Reference.holders_perm`).
-/

namespace TextAdventure.Reference

section Top

variable (scope : List Entity) (input : List Document) (start : Int)

/-- The highest score of a scope, or zero if no score is positive. -/
def top : Int := (scope.map fun e => score e input start).foldl max 0

/-- The entities of a scope that have its highest score, if that is positive. -/
def holders : List Entity :=
  scope.filter fun e => 0 < score e input start ∧ score e input start = top scope input start

@[simp] theorem top_nil : top [] input start = 0 := rfl

theorem top_concat (e : Entity) :
    top (scope ++ [e]) input start = max (top scope input start) (score e input start) := by
  rw [top, List.map_append, List.foldl_append]
  rfl

theorem top_nonneg : 0 ≤ top scope input start := by
  induction scope using List.reverseRecOn with
  | nil => exact le_rfl
  | append_singleton es e ih =>
    rw [top_concat]
    exact le_max_of_le_left ih

theorem top_le_iff {m : Int} :
    top scope input start ≤ m ↔ 0 ≤ m ∧ ∀ e ∈ scope, score e input start ≤ m := by
  induction scope using List.reverseRecOn with
  | nil => simp
  | append_singleton es e ih =>
    rw [top_concat, max_le_iff, ih, List.forall_mem_append, and_assoc]
    simp only [List.mem_singleton, forall_eq]

end Top

variable {scope : List Entity} {input : List Document} {start : Int}

theorem score_le_top {e : Entity} (he : e ∈ scope) :
    score e input start ≤ top scope input start :=
  ((top_le_iff scope input start).mp le_rfl).2 e he

theorem mem_holders {e : Entity} :
    e ∈ holders scope input start ↔
      e ∈ scope ∧ 0 < score e input start ∧ score e input start = top scope input start := by
  rw [holders, List.mem_filter, decide_eq_true_iff]

/-- A score that no other exceeds is the highest. -/
theorem top_eq_of_forall_le {e : Entity} (he : e ∈ scope) (hnonneg : 0 ≤ score e input start)
    (hle : ∀ e' ∈ scope, score e' input start ≤ score e input start) :
    top scope input start = score e input start :=
  le_antisymm ((top_le_iff scope input start).mpr ⟨hnonneg, hle⟩) (score_le_top he)

/-- A highest score that is positive is some entity's. -/
theorem exists_score_eq_top (h : 0 < top scope input start) :
    ∃ e ∈ scope, score e input start = top scope input start := by
  by_contra! hne
  have hlt : ∀ e ∈ scope, score e input start ≤ top scope input start - 1 := by
    intro e he
    have hle : score e input start ≤ top scope input start := score_le_top he
    have := hne e he
    omega
  have hless := (top_le_iff scope input start).mpr ⟨by omega, hlt⟩
  omega

/-- If the highest score is positive, to hold it is to have it. -/
theorem holders_eq_filter (h : 0 < top scope input start) :
    holders scope input start =
      scope.filter fun e => score e input start = top scope input start := by
  refine List.filter_congr fun e _ => ?_
  rw [decide_eq_decide]
  exact and_iff_right_of_imp fun htop => htop ▸ h

/-- A scope has no holders exactly if no score is positive. -/
theorem holders_eq_nil_iff :
    holders scope input start = [] ↔ ∀ e ∈ scope, score e input start ≤ 0 := by
  constructor
  · intro h
    have hzero : top scope input start ≤ 0 := by
      by_contra! hpos
      obtain ⟨e, he, htop⟩ := exists_score_eq_top hpos
      have hmem : e ∈ holders scope input start := mem_holders.mpr ⟨he, htop ▸ hpos, htop⟩
      rw [h] at hmem
      exact List.not_mem_nil hmem
    exact ((top_le_iff scope input start).mp hzero).2
  · intro h
    refine List.filter_eq_nil_iff.mpr fun e he hholds => ?_
    have hpos := (decide_eq_true_iff.mp hholds).1
    exact absurd (h e he) hpos.not_ge

/-! ### The pass through the scope -/

/-- Entities below the top of a scope, or without a positive score, are no holders of it. -/
theorem filter_eq_nil_of_lt {m : Int} (h : top scope input start < m) :
    (scope.filter fun e => 0 < score e input start ∧ score e input start = m) = [] := by
  rw [List.filter_eq_nil_iff]
  intro e he hm
  have hle : score e input start ≤ top scope input start := score_le_top he
  have heq : score e input start = m := (decide_eq_true_iff.mp hm).2
  omega

/-- **One step of the pass**: if the top of the entities met so far and its holders are in hand,
they still are when the next entity has been compared. -/
theorem next_holders (e : Entity) :
    Lead.next ⟨top scope input start, holders scope input start⟩ e (score e input start) =
      ⟨top (scope ++ [e]) input start, holders (scope ++ [e]) input start⟩ := by
  have htop := top_nonneg scope input start
  rw [holders, holders, List.filter_append, top_concat, Lead.next]
  rcases le_or_gt (score e input start) 0 with hpos | hpos
  · -- the entity covers nothing
    rw [if_pos hpos, max_eq_left (hpos.trans htop)]
    simp [hpos.not_gt]
  rw [if_neg hpos.not_ge]
  rcases lt_trichotomy (score e input start) (top scope input start) with h | h | h
  · -- it stays behind
    rw [if_neg h.ne, if_neg h.not_gt, max_eq_left h.le]
    simp [h.ne]
  · -- it draws level
    rw [if_pos h, max_eq_left h.le]
    simp [h, h ▸ hpos]
  · -- it takes the lead, and whoever led before is behind now
    rw [if_neg h.ne', if_pos h, max_eq_right h.le, filter_eq_nil_of_lt h]
    simp [hpos]

variable (scope input start) in
/-- **The outcome of the pass**: the highest score of the scope, and the entities that have it. -/
theorem leaders_eq :
    leaders scope input start = ⟨top scope input start, holders scope input start⟩ := by
  induction scope using List.reverseRecOn with
  | nil => rfl
  | append_singleton es e ih =>
    rw [leaders, List.foldl_append, ← leaders, ih]
    exact next_holders e

/-! ### The order of a scope -/

section Order

variable {scope' : List Entity}

/-- The top of a scope is at most that of any scope with its entities of positive score. -/
theorem top_le_of_forall_mem (h : ∀ e ∈ scope, 0 < score e input start → e ∈ scope') :
    top scope input start ≤ top scope' input start := by
  refine (top_le_iff scope input start).mpr ⟨top_nonneg scope' input start, fun e he => ?_⟩
  rcases le_or_gt (score e input start) 0 with hpos | hpos
  · exact hpos.trans (top_nonneg scope' input start)
  · exact score_le_top (h e he hpos)

theorem top_eq_of_perm (h : (scope.filter fun e => 0 < score e input start).Perm
      (scope'.filter fun e => 0 < score e input start)) :
    top scope input start = top scope' input start := by
  refine le_antisymm (top_le_of_forall_mem fun e he hpos => ?_)
    (top_le_of_forall_mem fun e he hpos => ?_)
  · have hmem := h.subset (List.mem_filter.mpr ⟨he, decide_eq_true hpos⟩)
    exact List.mem_of_mem_filter hmem
  · have hmem := h.symm.subset (List.mem_filter.mpr ⟨he, decide_eq_true hpos⟩)
    exact List.mem_of_mem_filter hmem

/-- The holders are found among the entities of positive score. -/
theorem holders_eq_filter_filter :
    holders scope input start = (scope.filter fun e => 0 < score e input start).filter
      fun e => score e input start = top scope input start := by
  rw [holders, List.filter_filter]
  refine List.filter_congr fun e _ => ?_
  rw [Bool.decide_and, Bool.and_comm]

/-- **The order of a scope does not matter**, and neither do entities without a positive score: the
holders of two scopes that are otherwise permutations of each other are such permutations, too. -/
theorem holders_perm (h : (scope.filter fun e => 0 < score e input start).Perm
      (scope'.filter fun e => 0 < score e input start)) :
    (holders scope input start).Perm (holders scope' input start) := by
  rw [holders_eq_filter_filter, holders_eq_filter_filter, top_eq_of_perm h]
  exact h.filter _

end Order

/-! ### What a reference means -/

theorem mem_of_mem_others {before after : List Entity} {e e' : Entity}
    (h : e' ∈ before ++ after) : e' ∈ before ++ e :: after := by
  rcases List.mem_append.mp h with hb | ha
  · exact List.mem_append_left _ hb
  · exact List.mem_append_right _ (List.mem_cons_of_mem _ ha)

/-- A scope has one holder exactly if one of its places has a positive score above all others. -/
theorem holders_eq_singleton_iff {e : Entity} :
    holders scope input start = [e] ↔ ∃ before after, scope = before ++ e :: after ∧
      0 < score e input start ∧
      ∀ e' ∈ before ++ after, score e' input start < score e input start := by
  constructor
  · intro h
    obtain ⟨before, after, hscope, hbefore, he, hafter⟩ := List.filter_eq_cons_iff.mp h
    obtain ⟨hpos, htop⟩ := decide_eq_true_iff.mp he
    refine ⟨before, after, hscope, hpos, fun e' he' => ?_⟩
    have hmem : e' ∈ scope := hscope ▸ mem_of_mem_others he'
    have hout : ¬(0 < score e' input start ∧ score e' input start = top scope input start) := by
      rcases List.mem_append.mp he' with hb | ha
      · simpa using hbefore e' hb
      · simpa using List.filter_eq_nil_iff.mp hafter e' ha
    have hle : score e' input start ≤ top scope input start := score_le_top hmem
    omega
  · rintro ⟨before, after, rfl, hpos, hlt⟩
    have htop : top (before ++ e :: after) input start = score e input start := by
      refine top_eq_of_forall_le (by simp) hpos.le fun e' he' => ?_
      rcases List.mem_append.mp he' with hb | ha
      · exact (hlt e' (List.mem_append_left _ hb)).le
      · rcases List.mem_cons.mp ha with rfl | ha
        · exact le_rfl
        · exact (hlt e' (List.mem_append_right _ ha)).le
    refine List.filter_eq_cons_iff.mpr ⟨before, after, rfl, fun e' he' => ?_, ?_, ?_⟩
    · have := hlt e' (List.mem_append_left _ he')
      simp [htop, this.ne]
    · simp [htop, hpos]
    · refine List.filter_eq_nil_iff.mpr fun e' he' => ?_
      have := hlt e' (List.mem_append_right _ he')
      simp [htop, this.ne]

/-- A reference means the one holder of the scope, if there is only one. -/
theorem outcome_eq_resolved_iff_holders {v : Value} {place : Int} :
    outcome scope input start = .resolved v place ↔
      ∃ e, holders scope input start = [e] ∧ v = .entity e ∧
        place = start + top scope input start := by
  rw [outcome, leaders_eq]
  rcases holders scope input start with _ | ⟨e, _ | ⟨e', es⟩⟩
  · simp
  · simp [eq_comm]
  · simp

/-- A reference is ambiguous exactly if the scope has several holders, and between these. -/
theorem outcome_eq_ambiguous_iff_holders {candidates : List String} {m : Int} :
    outcome scope input start = .refused (.ambiguous candidates m) ↔
      2 ≤ (holders scope input start).length ∧
        candidates = (holders scope input start).map (fun e => Text.spaced e.words) ∧
        m = top scope input start := by
  rw [outcome, leaders_eq]
  rcases holders scope input start with _ | ⟨e, _ | ⟨e', es⟩⟩
  · simp
  · simp
  · simp [eq_comm]

/-- A reference names nothing exactly if the scope has no holders. -/
theorem outcome_eq_noReference_iff_holders {words : List Document} :
    outcome scope input start = .refused (.noReference words) ↔
      holders scope input start = [] ∧ words = itemsFrom input start := by
  rw [outcome, leaders_eq]
  rcases holders scope input start with _ | ⟨e, _ | ⟨e', es⟩⟩
  · simp [eq_comm]
  · simp
  · simp

/-- **What a reference means**: it is resolved exactly when one place of the scope has a positive
score above all others. -/
theorem outcome_eq_resolved_iff {v : Value} {place : Int} :
    outcome scope input start = .resolved v place ↔
      ∃ before e after, scope = before ++ e :: after ∧ v = .entity e ∧
        0 < score e input start ∧
        (∀ e' ∈ before ++ after, score e' input start < score e input start) ∧
        place = start + score e input start := by
  rw [outcome_eq_resolved_iff_holders]
  constructor
  · rintro ⟨e, hone, rfl, rfl⟩
    have he : e ∈ holders scope input start := by rw [hone]; exact List.mem_singleton_self e
    obtain ⟨before, after, hscope, hpos, hlt⟩ := holders_eq_singleton_iff.mp hone
    exact ⟨before, e, after, hscope, rfl, hpos, hlt, by rw [(mem_holders.mp he).2.2]⟩
  · rintro ⟨before, e, after, hscope, rfl, hpos, hlt, rfl⟩
    have hone := holders_eq_singleton_iff.mpr ⟨before, after, hscope, hpos, hlt⟩
    have he : e ∈ holders scope input start := by rw [hone]; exact List.mem_singleton_self e
    exact ⟨e, hone, rfl, by rw [(mem_holders.mp he).2.2]⟩

end TextAdventure.Reference
