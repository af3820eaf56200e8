import Mathlib.Order.Bounds.Basic
import TextAdventure.Proofs.Reading

/-!
# The highest score wins

What a reference comes to on an input of words, for any scope at all. Entities that claim words of
their own are compared with those that go by their words, on one scale: the number of words that an
entity covers from the place on. `TextAdventure.Reference.Covers` says which number that is without
any search. A claim counts as it is made, but for two bounds – no fewer than none and no more than
the words that are ahead – and an entity that makes none, or declines, covers the longest run of
words that are all its own.

The main statement, `TextAdventure.Reference.resolve_highest`, is that the resolver then compares
nothing but these numbers:

* the one place of the scope with a positive number above all others is meant;
* several places with the highest number, if that is positive, make the reference ambiguous, and
  they are the candidates, in scope order;
* if no number is positive, the reference names nothing.

The cursor ends behind the words of the entity that is meant, and otherwise where it was.
-/

namespace TextAdventure

/-- The items at the beginning of a list that pass a test are its longest beginning of such
items. -/
theorem isGreatest_length_takeWhile {α : Type} (p : α → Bool) (xs : List α) :
    IsGreatest {k | k ≤ xs.length ∧ ∀ x ∈ xs.take k, p x} (xs.takeWhile p).length := by
  constructor
  · have hpre : xs.takeWhile p <+: xs := List.takeWhile_prefix p
    refine ⟨hpre.length_le, ?_⟩
    rw [← List.prefix_iff_eq_take.mp hpre]
    exact fun x hx => List.mem_takeWhile_imp hx
  · rintro k ⟨hk, hall⟩
    have hrun : xs.takeWhile p = xs.take k ++ (xs.drop k).takeWhile p := by
      conv_lhs => rw [← List.take_append_drop k xs]
      exact List.takeWhile_append_of_pos hall
    rw [hrun, List.length_append, List.length_take_of_le hk]
    exact Nat.le_add_right k _

namespace Reference

/-! ### The number of words that an entity covers -/

/-- **The number of words that an entity covers** from a place of an input on. -/
inductive Covers (e : Entity) (ws : List String) (n : ℕ) : ℕ → Prop
  /-- What is claimed counts, but no fewer words than none and no more than are ahead. -/
  | claimed {c : Int} {k : ℕ} (h : e.claimed? (ws.map .text) n = some c)
      (hk : (k : Int) = max 0 (min c (ws.length - n))) : Covers e ws n k
  /-- Without a claim, the longest run of the entity's words counts. -/
  | run {k : ℕ} (h : e.claimed? (ws.map .text) n = none)
      (hk : IsGreatest {k | k ≤ (ws.drop n).length ∧ ∀ w ∈ (ws.drop n).take k, w ∈ e.words} k) :
      Covers e ws n k

section Covered

variable (e : Entity) (ws : List String) (n : ℕ)

/-- The score of an entity is the number of words that it covers. -/
theorem exists_score_eq : ∃ k : ℕ, score e (ws.map .text) n = k ∧ Covers e ws n k := by
  cases hclaim : e.claimed? (ws.map .text) n with
  | some c =>
    have hscore : score e (ws.map .text) n = max 0 (min c (ws.length - n)) := by
      rw [score, hclaim, List.length_map]
    obtain ⟨k, hk⟩ := Int.eq_ofNat_of_zero_le (le_max_left 0 (min c (ws.length - n : Int)))
    exact ⟨k, hscore.trans hk, .claimed hclaim hk.symm⟩
  | none =>
    refine ⟨((ws.drop n).takeWhile (· ∈ e.words)).length, ?_, .run hclaim ?_⟩
    · simp only [score, hclaim, run_words, List.length_map]
    · simpa using isGreatest_length_takeWhile (· ∈ e.words) (ws.drop n)

variable {e ws n} in
/-- No entity covers words that are not there. -/
theorem Covers.add_le {k : ℕ} (h : Covers e ws n k) (hn : n ≤ ws.length) : n + k ≤ ws.length := by
  cases h with
  | claimed h hk => omega
  | run h hk =>
    have hle : k ≤ (ws.drop n).length := hk.1.1
    rw [List.length_drop] at hle
    omega

end Covered

/-! ### Comparing the numbers -/

section Highest

variable {scope : List Entity} {input : List Document} {start : Int} {covered : Entity → ℕ}
  (hscore : ∀ e, score e input start = covered e)

include hscore

/-- The highest score is the one that no entity exceeds and that some entity has. -/
theorem top_eq_natCast_iff {k : ℕ} (hk : 0 < k) :
    top scope input start = k ↔
      (∀ e ∈ scope, covered e ≤ k) ∧ ∃ e ∈ scope, covered e = k := by
  constructor
  · intro htop
    have hpos : 0 < top scope input start := by omega
    obtain ⟨e, he, hmax⟩ := exists_score_eq_top hpos
    refine ⟨fun e' he' => ?_, e, he, ?_⟩
    · have hle : score e' input start ≤ top scope input start := score_le_top he'
      rw [hscore] at hle
      omega
    · rw [hscore] at hmax
      omega
  · rintro ⟨hle, e, he, rfl⟩
    rw [← hscore]
    refine top_eq_of_forall_le he (by rw [hscore]; omega) fun e' he' => ?_
    rw [hscore, hscore, Int.ofNat_le]
    exact hle e' he'

theorem holders_eq_filter_covered {k : ℕ} (hk : 0 < k) (htop : top scope input start = k) :
    holders scope input start = scope.filter fun e => covered e = k := by
  rw [holders_eq_filter (by omega)]
  refine List.filter_congr fun e _ => ?_
  rw [decide_eq_decide, hscore, htop, Int.ofNat_inj]

/-- **When a reference is ambiguous**: if several places of the scope have the highest number, and
it is positive. -/
theorem outcome_eq_ambiguous_iff {candidates : List String} {m : Int} :
    outcome scope input start = .refused (.ambiguous candidates m) ↔
      ∃ k : ℕ, 0 < k ∧ (∀ e ∈ scope, covered e ≤ k) ∧
        2 ≤ (scope.filter fun e => covered e = k).length ∧
        candidates = (scope.filter fun e => covered e = k).map (fun e => Text.spaced e.words) ∧
        m = k := by
  rw [outcome_eq_ambiguous_iff_holders]
  constructor
  · rintro ⟨htwo, rfl, rfl⟩
    have hsome : 0 < (holders scope input start).length := by omega
    obtain ⟨e, he⟩ := List.exists_mem_of_length_pos hsome
    obtain ⟨hmem, hpos, hmax⟩ := mem_holders.mp he
    rw [hscore] at hpos hmax
    have hk : 0 < covered e := by omega
    have hholders := holders_eq_filter_covered hscore hk hmax.symm
    rw [hholders] at htwo ⊢
    exact ⟨covered e, hk, ((top_eq_natCast_iff hscore hk).mp hmax.symm).1, htwo, rfl, hmax.symm⟩
  · rintro ⟨k, hk, hle, htwo, rfl, rfl⟩
    obtain ⟨e, he⟩ := List.exists_mem_of_length_pos
      (by omega : 0 < (scope.filter fun e => covered e = k).length)
    obtain ⟨hmem, hmax⟩ := List.mem_filter.mp he
    have htop : top scope input start = k :=
      (top_eq_natCast_iff hscore hk).mpr ⟨hle, e, hmem, decide_eq_true_iff.mp hmax⟩
    rw [holders_eq_filter_covered hscore hk htop]
    exact ⟨htwo, rfl, htop.symm⟩

end Highest

/-- **The highest score wins.** Let an input of words and a place in it be given. Every entity
covers a number of the words ahead, and the resolver of a reference always has an outcome: the
entity at the one place of the scope whose number is positive and above all others; or a refusal
that lists the places with the highest number, if there are several and the number is positive; or a
refusal that gives the words ahead, if no number is positive. Behind a resolved reference the cursor
stands at the place that is returned, and otherwise where it was. -/
theorem resolve_highest (scope : List Entity) (ws : List String) (n : ℕ) (hn : n ≤ ws.length) :
    ∃ covered : Entity → ℕ, (∀ e, Covers e ws n (covered e) ∧ n + covered e ≤ ws.length) ∧
      ∃ out cursor, resolve scope (ws.map .text) n = .ok ⟨out, cursor⟩ ∧
        (∀ v place, out = .resolved v place ↔ ∃ before e after, scope = before ++ e :: after ∧
          v = .entity e ∧ 0 < covered e ∧ (∀ e' ∈ before ++ after, covered e' < covered e) ∧
          place = n + covered e) ∧
        (∀ candidates m, out = .refused (.ambiguous candidates m) ↔
          ∃ k : ℕ, 0 < k ∧ (∀ e ∈ scope, covered e ≤ k) ∧
            2 ≤ (scope.filter fun e => covered e = k).length ∧
            candidates = (scope.filter fun e => covered e = k).map (fun e => Text.spaced e.words) ∧
            m = k) ∧
        (∀ words, out = .refused (.noReference words) ↔
          (∀ e ∈ scope, covered e = 0) ∧ words = (ws.drop n).map .text) ∧
        (∀ v place, out = .resolved v place → cursor = place) ∧
        ∀ cause, out = .refused cause → cursor = n := by
  choose covered hscore hcovers using fun e => exists_score_eq e ws n
  refine ⟨covered, fun e => ⟨hcovers e, (hcovers e).add_le hn⟩, _, _, resolve_words ws n scope,
    fun v place => ?_, fun candidates m => outcome_eq_ambiguous_iff hscore, fun words => ?_,
    fun v place hout => ?_, fun cause hout => ?_⟩
  · rw [outcome_eq_resolved_iff]
    simp only [hscore, Int.natCast_pos, Int.ofNat_lt]
  · rw [outcome_eq_noReference_iff_holders, holders_eq_nil_iff, itemsFrom_words]
    simp only [hscore, Int.natCast_nonpos_iff]
  · rw [hout, cursorAfter]
  · rw [hout, cursorAfter]

end Reference

/-! ### A crowd

The key of the parlour among figures that claim words. The crow claims more words than there are,
the cat less than none, and the old one declines and goes by its only word.
-/

namespace Parlour

/-- A figure that is called by one word and always claims the same number of words. -/
def claimant (word : String) (claim : Int) : Entity :=
  .figure ⟨[word], none, word, some fun _ _ => claim⟩

/-- The key among three figures. -/
def crowd : List Entity :=
  [claimant "cat" (-5), .object key, claimant "old" (-1), claimant "crow" 7]

end Parlour

open Parlour in
/-- *Take old key* is ambiguous: two words are ahead, the key covers both, and so does the crow,
whose claim is cut down to them. -/
theorem Reference.resolve_take_old_key :
    1 ≤ ["take", "old", "key"].length ∧
      resolve crowd (["take", "old", "key"].map .text) (1 : ℕ) =
        .ok ⟨.refused (.ambiguous ["old rusty key", "crow"] 2), 1⟩ ∧
      ∃ covered : Entity → ℕ, (∀ e, Covers e ["take", "old", "key"] 1 (covered e)) ∧
        (∀ e ∈ crowd, covered e ≤ 2) ∧
        (crowd.filter fun e => covered e = 2).map (fun e => Text.spaced e.words) =
          ["old rusty key", "crow"] := by
  have hn : 1 ≤ ["take", "old", "key"].length := by decide
  have hresolve : resolve crowd (["take", "old", "key"].map .text) (1 : ℕ) =
      .ok ⟨.refused (.ambiguous ["old rusty key", "crow"] 2), 1⟩ := rfl
  obtain ⟨covered, hcovers, out, cursor, hout, -, hambiguous, -⟩ :=
    resolve_highest crowd ["take", "old", "key"] 1 hn
  obtain ⟨rfl, -⟩ := Resolution.mk.inj (Except.ok.inj (hout.symm.trans hresolve))
  obtain ⟨k, -, hle, -, hcandidates, hk⟩ := (hambiguous _ _).mp rfl
  obtain rfl : k = 2 := by omega
  exact ⟨hn, hresolve, covered, fun e => (hcovers e).1, hle, hcandidates.symm⟩

end TextAdventure
