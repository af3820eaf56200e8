import Mathlib.Data.List.DropRight
import TextAdventure.Proofs.Words

/-!
# Cursors over any run

A cursor that looks ahead moves and moves back, and a fork shares the items of the cursor that it
comes from. So it has to be said that neither shows: whatever is done with some cursors of a family,
in any order, every cursor stands where its own history puts it.

* A step on one cursor leaves all others as they are, and only an advance or an assignment moves the
  cursor itself (`TextAdventure.Cursor.IsAt.step`).
* After a run, a cursor stands at the place that it was last assigned, or else where it started, and
  one place further on for every advance since (`TextAdventure.Cursor.placeAfter`). It starts where
  the family has it from the beginning, or where a fork puts it
  (`TextAdventure.Cursor.Family.Enters`).
* Advancing again and again finds the items ahead, one after the other, and then nothing for ever
  (`TextAdventure.Cursor.Family.findings_advance`).

What can be said of a family at one moment of a run is collected in
`TextAdventure.Cursor.Family.Reliable`; it follows from the one thing that every step keeps, namely
that all cursors are over the items and at places (`TextAdventure.Cursor.Family.IsOver`). The main
statement, `TextAdventure.Cursor.Family.over_any_run`, puts the three points together for every run
on a family that begins with one cursor at a whole number. The positions that are given on the way
are whole numbers, too; a truth value counts as one, as it does everywhere.
-/

namespace TextAdventure.Cursor

/-! ### A cursor at a place -/

/-- **A cursor over some items, at a place.** -/
structure IsAt (c : Cursor) (items : List Document) (place : Int) : Prop where
  items_eq : c.items = items
  whole : c.position.whole? = some place

section Steps

variable {c : Cursor} {items : List Document} {place : Int} {position : Document} {s : Step}

theorem moved_of_whole (h : position.whole? = some place) (n : Int) :
    moved position n = .ok (.int (place + n)) := by
  simp only [moved, h]

theorem IsAt.current_eq (h : c.IsAt items place) : c.current = .ok (itemAt? items place) := by
  rw [current, h.whole, h.items_eq]

theorem IsAt.remaining_eq (h : c.IsAt items place) : c.remaining = .ok (itemsFrom items place) := by
  rw [remaining, h.whole, h.items_eq]

theorem isAt_int (items : List Document) (place : Int) : IsAt ⟨items, .int place⟩ items place :=
  ⟨rfl, rfl⟩

theorem IsAt.advance_eq (h : c.IsAt items place) :
    c.advance = (⟨items, .int (place + 1)⟩, .ok (itemAt? items (place + 1))) := by
  rw [advance, moved_of_whole h.whole, h.items_eq]
  exact congrArg _ (isAt_int items (place + 1)).current_eq

/-- A cursor that looks ahead comes back. -/
theorem IsAt.peek_eq (h : c.IsAt items place) :
    c.peek = (⟨items, .int place⟩, .ok (itemAt? items (place + 1))) := by
  rw [peek, h.advance_eq]
  simp only [moved_of_whole (isAt_int items (place + 1)).whole, Int.add_neg_cancel_right]

/-- Whether the position that a step gives, if it gives one, is a whole number. A fork may go
without. -/
def Step.IsWhole : Step → Prop
  | .fork position => position = .null ∨ position.whole?.isSome
  | .assign position => position.whole?.isSome
  | _ => True

/-- Whether a step is one that moves the cursor on which it is made. -/
def Step.moves : Step → Bool
  | .advance => true
  | .assign _ => true
  | _ => false

/-- Where a step leaves a cursor that is at a place. -/
def Step.next (place : Int) : Step → Int
  | .advance => place + 1
  | .assign position => position.whole?.getD place
  | _ => place

theorem Step.next_of_not_moves (h : s.moves = false) : s.next place = place := by
  cases s with
  | advance => exact Bool.noConfusion h
  | assign position => exact Bool.noConfusion h
  | _ => rfl

/-- A fork starts where it is told, or at the place of the cursor that it comes from. -/
theorem IsAt.fork (h : c.IsAt items place) (hs : (Step.fork position).IsWhole) :
    (c.fork position).IsAt items (position.whole?.getD place) := by
  rcases hs with rfl | hwhole
  · exact h
  · obtain ⟨n, hn⟩ := Option.isSome_iff_exists.mp hwhole
    have hfork : c.fork position = { c with position } := by
      cases position with
      | null => simp [Document.whole?] at hn
      | _ => rfl
    rw [hfork, hn]
    exact ⟨h.items_eq, hn⟩

/-- A step that is neither an advance nor an assignment leaves a cursor at its place. -/
theorem IsAt.step_of_not_moves (h : c.IsAt items place) (hs : s.moves = false) (size : ℕ) :
    (c.step size s).1.IsAt items place := by
  cases s with
  | advance => exact Bool.noConfusion hs
  | assign position => exact Bool.noConfusion hs
  | peek =>
    rw [Cursor.step, h.peek_eq]
    exact isAt_int _ _
  | _ => exact h

/-- **A step on a cursor** leaves it over the same items, at the place where the step goes. -/
theorem IsAt.step (h : c.IsAt items place) (hs : s.IsWhole) (size : ℕ) :
    (c.step size s).1.IsAt items (s.next place) := by
  cases hmoves : s.moves with
  | false =>
    rw [Step.next_of_not_moves hmoves]
    exact h.step_of_not_moves hmoves size
  | true =>
    cases s with
    | advance =>
      rw [Cursor.step, h.advance_eq]
      exact isAt_int _ _
    | assign position =>
      obtain ⟨n, hn⟩ := Option.isSome_iff_exists.mp hs
      rw [Step.next, hn]
      exact ⟨h.items_eq, hn⟩
    | _ => exact Bool.noConfusion hmoves

/-- A cursor at a place always finds something, if only that there is no item. -/
theorem IsAt.exists_finding (h : c.IsAt items place) (size : ℕ) (s : Step) :
    ∃ f, (c.step size s).2.2 = .ok f := by
  cases s with
  | advance =>
    rw [Cursor.step, h.advance_eq]
    exact ⟨_, rfl⟩
  | peek =>
    rw [Cursor.step, h.peek_eq]
    exact ⟨_, rfl⟩
  | current =>
    rw [Cursor.step, h.current_eq]
    exact ⟨_, rfl⟩
  | test =>
    rw [Cursor.step, h.current_eq]
    exact ⟨_, rfl⟩
  | remaining =>
    rw [Cursor.step, h.remaining_eq]
    exact ⟨_, rfl⟩
  | _ => exact ⟨_, rfl⟩

end Steps

/-! ### Steps on a family -/

/-- A step that is made on the cursor of a number. -/
structure Move where
  number : ℕ
  step : Step

namespace Family

variable {family : Family} {c : Cursor} {items : List Document} {place : Int} {n k : ℕ} {s : Step}

theorem step_of_getElem? (h : family[n]? = some c) :
    family.step n s = (family.set n (c.step family.length s).1 ++
      (c.step family.length s).2.1.toList, (c.step family.length s).2.2) := by
  rw [Family.step, h]

theorem step_of_none (h : family[n]? = none) : family.step n s = (family, .error .outOfRange) := by
  rw [Family.step, h]

/-- **A step leaves all other cursors as they are.** -/
theorem getElem?_step_of_ne (hk : k < family.length) (hne : k ≠ n) :
    (family.step n s).1[k]? = family[k]? := by
  cases h : family[n]? with
  | none => rw [step_of_none h]
  | some c =>
    -- what a fork adds stands behind all that are there
    rw [step_of_getElem? h, List.getElem?_append_left (by rwa [List.length_set]),
      List.getElem?_set_ne hne.symm]

theorem getElem?_step_self (h : family[n]? = some c) :
    (family.step n s).1[n]? = some (c.step family.length s).1 := by
  have hn : n < family.length := (List.getElem?_eq_some_iff.mp h).1
  rw [step_of_getElem? h, List.getElem?_append_left (by rwa [List.length_set]),
    List.getElem?_set_self hn]

/-- A fork adds one cursor, behind all others. -/
theorem getElem?_fork {position : Document} (h : family[n]? = some c) :
    (family.step n (.fork position)).1[family.length]? = some (c.fork position) := by
  rw [step_of_getElem? h]
  simp [Cursor.step]

/-- What is added to a family is a fork. -/
theorem eq_fork_of_length_le (hk : family.length ≤ k) (h : k < (family.step n s).1.length) :
    k = family.length ∧ ∃ position c, s = .fork position ∧ family[n]? = some c := by
  cases hc : family[n]? with
  | none =>
    rw [step_of_none hc] at h
    exact absurd h (Nat.not_lt.mpr hk)
  | some c =>
    rw [step_of_getElem? hc, List.length_append, List.length_set] at h
    cases s with
    | fork position =>
      refine ⟨?_, position, c, rfl, rfl⟩
      simp only [Cursor.step, Option.toList_some, List.length_singleton] at h
      omega
    | _ =>
      -- no other step adds anything
      simp only [Cursor.step, Option.toList_none, List.length_nil] at h
      omega

/-- **A step on a family**, as each of its cursors sees it. -/
theorem isAt_step (h : family[k]? = some c) (hc : c.IsAt items place) (hs : s.IsWhole) :
    ∃ c', (family.step n s).1[k]? = some c' ∧
      c'.IsAt items (if n = k then s.next place else place) := by
  split_ifs with hk
  · subst hk
    exact ⟨_, getElem?_step_self h, hc.step hs _⟩
  · have hlt : k < family.length := (List.getElem?_eq_some_iff.mp h).1
    exact ⟨c, (getElem?_step_of_ne hlt (Ne.symm hk)).trans h, hc⟩

end Family

/-! ### Where a run leaves a cursor -/

/-- The whole number that a step assigns. -/
def Step.assigned? : Step → Option Int
  | .assign position => position.whole?
  | _ => none

/-- Whether a step is an advance. -/
def Step.isAdvance : Step → Bool
  | .advance => true
  | _ => false

/-- **Where some steps leave a cursor**: at the place that it was last assigned, or else where it
started, and one place further on for every advance since. -/
def placeAfter (start : Int) (steps : List Step) : Int :=
  (steps.filterMap Step.assigned?).getLast?.getD start +
    (steps.rtakeWhile fun s => s.assigned?.isNone).countP Step.isAdvance

/-- The steps among some moves that are made on the cursor of a number. -/
def stepsOn (k : ℕ) (moves : List Move) : List Step :=
  (moves.filter (·.number = k)).map Move.step

theorem placeAfter_nil (start : Int) : placeAfter start [] = start := by
  simp [placeAfter]

/-- **A step more** leaves the cursor where that step does. -/
theorem placeAfter_concat (start : Int) (steps : List Step) (s : Step) :
    placeAfter start (steps ++ [s]) = s.next (placeAfter start steps) := by
  cases hs : s.assigned? with
  | some n =>
    -- what happened before an assignment does not matter
    have hnext : s.next (placeAfter start steps) = n := by
      cases s with
      | assign position =>
        rw [Step.assigned?] at hs
        rw [Step.next, hs, Option.getD_some]
      | _ => simp [Step.assigned?] at hs
    rw [hnext, placeAfter, List.rtakeWhile_concat_neg _ _ _ (by simp [hs]), List.filterMap_append]
    simp [hs]
  | none =>
    rw [placeAfter, List.rtakeWhile_concat_pos _ _ _ (by simp [hs]), List.filterMap_append,
      List.countP_append]
    cases s with
    | advance => simp [Step.assigned?, Step.isAdvance, Step.next, placeAfter, Int.add_assoc]
    | assign position =>
      rw [Step.assigned?] at hs
      simp [Step.assigned?, Step.isAdvance, Step.next, placeAfter, hs]
    | _ => simp [Step.assigned?, Step.isAdvance, Step.next, placeAfter]

/-- Neither a look ahead nor what was done before an assignment counts. -/
example : placeAfter 7 [.advance, .assign (.int (-1)), .peek, .advance] = 0 := rfl

theorem stepsOn_concat (k : ℕ) (moves : List Move) (m : Move) :
    stepsOn k (moves ++ [m]) = stepsOn k moves ++ if m.number = k then [m.step] else [] := by
  rw [stepsOn, List.filter_append, List.map_append, ← stepsOn]
  split_ifs with h <;> simp [h]

namespace Family

/-- The family after some moves. -/
def after (family : Family) (moves : List Move) : Family :=
  moves.foldl (fun family m => (family.step m.number m.step).1) family

/-- What some moves find, one after the other. -/
def findings (family : Family) : List Move → List (Except Fault Finding)
  | [] => []
  | m :: moves =>
    (family.step m.number m.step).2 :: findings (family.step m.number m.step).1 moves

theorem after_append (family : Family) (moves more : List Move) :
    family.after (moves ++ more) = (family.after moves).after more := List.foldl_append

theorem after_concat (family : Family) (moves : List Move) (m : Move) :
    family.after (moves ++ [m]) = ((family.after moves).step m.number m.step).1 :=
  after_append family moves [m]

variable {family : Family} {c : Cursor} {items : List Document} {place : Int} {k : ℕ}
  {moves before later : List Move}

/-- **A run**, as a cursor sees it that is there at its beginning: only its own steps count. -/
theorem isAt_after (h : family[k]? = some c) (hc : c.IsAt items place)
    (hmoves : ∀ m ∈ moves, m.step.IsWhole) :
    ∃ c', (family.after moves)[k]? = some c' ∧
      c'.IsAt items (placeAfter place (stepsOn k moves)) := by
  -- the moves are taken from behind, since the last assignment is what counts
  induction moves using List.reverseRecOn with
  | nil => exact ⟨c, h, (placeAfter_nil place).symm ▸ hc⟩
  | append_singleton moves m ih =>
    obtain ⟨hbefore, hm⟩ := List.forall_mem_append.mp hmoves
    obtain ⟨c', h', hc'⟩ := ih hbefore
    obtain ⟨c'', h'', hc''⟩ := isAt_step (n := m.number) h' hc' (hm m (List.mem_singleton_self m))
    refine ⟨c'', (after_concat family moves m).symm ▸ h'', ?_⟩
    rw [stepsOn_concat]
    by_cases hk : m.number = k
    · rw [if_pos hk] at hc''
      rwa [if_pos hk, placeAfter_concat]
    · rw [if_neg hk] at hc''
      rwa [if_neg hk, List.append_nil]

/-- **How a cursor comes into a family**, and where it starts: it is there before any move, or it is
a fork, which starts at the position that it is given or at the place of the cursor that it comes
from. -/
inductive Enters (family : Family) : List Move → ℕ → Int → Prop
  | first {k : ℕ} {c : Cursor} {place : Int} (h : family[k]? = some c)
      (hplace : c.position.whole? = some place) : Enters family [] k place
  | fork {moves : List Move} {n : ℕ} {position : Document} {c : Cursor} {place : Int}
      (h : (family.after moves)[n]? = some c) (hplace : c.position.whole? = some place) :
      Enters family (moves ++ [⟨n, .fork position⟩]) (family.after moves).length
        (position.whole?.getD place)

/-- Whether all cursors of a family are over some items and at places. -/
def IsOver (family : Family) (items : List Document) : Prop :=
  ∀ c ∈ family, ∃ place, c.IsAt items place

theorem IsOver.exists_isAt (h : family.IsOver items) (hc : family[k]? = some c) :
    ∃ place, c.IsAt items place :=
  h c (List.mem_of_getElem? hc)

/-- **A step** keeps all cursors over the items. -/
theorem IsOver.step (h : family.IsOver items) {m : Move} (hm : m.step.IsWhole) :
    IsOver (family.step m.number m.step).1 items := by
  intro c hc
  obtain ⟨k, hk⟩ := List.mem_iff_getElem?.mp hc
  have hlt : k < (family.step m.number m.step).1.length := (List.getElem?_eq_some_iff.mp hk).1
  -- the cursor was there before, or the step has forked it off
  by_cases hold : k < family.length
  · obtain ⟨place, hplace⟩ := h.exists_isAt (List.getElem?_eq_getElem hold)
    obtain ⟨c', hc', hat⟩ := isAt_step (n := m.number) (List.getElem?_eq_getElem hold) hplace hm
    obtain rfl := Option.some.inj (hk.symm.trans hc')
    exact ⟨_, hat⟩
  · obtain ⟨rfl, position, c', hs, hc'⟩ := eq_fork_of_length_le (Nat.not_lt.mp hold) hlt
    obtain ⟨place, hplace⟩ := h.exists_isAt hc'
    rw [hs] at hk hm
    obtain rfl := Option.some.inj (hk.symm.trans (getElem?_fork hc'))
    exact ⟨_, hplace.fork hm⟩

/-- **A run** keeps all cursors over the items. -/
theorem IsOver.after (h : family.IsOver items) (hmoves : ∀ m ∈ moves, m.step.IsWhole) :
    (family.after moves).IsOver items := by
  induction moves generalizing family with
  | nil => exact h
  | cons m moves ih =>
    obtain ⟨hm, hrest⟩ := List.forall_mem_cons.mp hmoves
    exact ih (h.step hm) hrest

/-- Every cursor that is there after a run has come in at some point of it. -/
theorem IsOver.exists_enters (h : family.IsOver items) (hmoves : ∀ m ∈ moves, m.step.IsWhole)
    (hk : k < (family.after moves).length) :
    ∃ before later place, moves = before ++ later ∧ family.Enters before k place := by
  induction moves using List.reverseRecOn with
  | nil =>
    obtain ⟨place, hplace⟩ := h.exists_isAt (List.getElem?_eq_getElem hk)
    exact ⟨[], [], place, rfl, .first (List.getElem?_eq_getElem hk) hplace.whole⟩
  | append_singleton moves m ih =>
    obtain ⟨hbefore, -⟩ := List.forall_mem_append.mp hmoves
    by_cases hold : k < (family.after moves).length
    · obtain ⟨before, later, place, rfl, henters⟩ := ih hbefore hold
      exact ⟨before, later ++ [m], place, List.append_assoc _ _ _, henters⟩
    · -- the last move has brought the cursor in
      rw [after_concat] at hk
      obtain ⟨rfl, position, c, hs, hc⟩ := eq_fork_of_length_le (Nat.not_lt.mp hold) hk
      obtain ⟨place, hplace⟩ := (h.after hbefore).exists_isAt hc
      obtain ⟨n, s⟩ := m
      obtain rfl : s = .fork position := hs
      exact ⟨_, [], _, (List.append_nil _).symm, .fork hc hplace.whole⟩

/-- A cursor that comes in is at the place where it starts. -/
theorem IsOver.isAt_of_enters (h : family.IsOver items) (hmoves : ∀ m ∈ moves, m.step.IsWhole)
    (henters : family.Enters moves k place) :
    ∃ c, (family.after moves)[k]? = some c ∧ c.IsAt items place := by
  cases henters with
  | first hc hplace =>
    obtain ⟨place', hat⟩ := h.exists_isAt hc
    obtain rfl := Option.some.inj (hat.whole.symm.trans hplace)
    exact ⟨_, hc, hat⟩
  | @fork moves n position c place hc hplace =>
    obtain ⟨hbefore, hfork⟩ := List.forall_mem_append.mp hmoves
    obtain ⟨place', hat⟩ := (h.after hbefore).exists_isAt hc
    obtain rfl := Option.some.inj (hat.whole.symm.trans hplace)
    refine ⟨c.fork position, ?_, hat.fork (hfork _ (List.mem_singleton_self _))⟩
    rw [after_concat]
    exact getElem?_fork hc

/-! ### What is found at any moment -/

section Findings

variable {n m : ℕ}

theorem step_advance_snd (h : family[n]? = some c) (hc : c.IsAt items place) :
    (family.step n .advance).2 = .ok (.item (itemAt? items (place + 1))) := by
  rw [step_of_getElem? h, Cursor.step, hc.advance_eq]
  rfl

theorem step_peek_snd (h : family[n]? = some c) (hc : c.IsAt items place) :
    (family.step n .peek).2 = .ok (.item (itemAt? items (place + 1))) := by
  rw [step_of_getElem? h, Cursor.step, hc.peek_eq]
  rfl

theorem step_remaining_snd (h : family[n]? = some c) (hc : c.IsAt items place) :
    (family.step n .remaining).2 = .ok (.items (itemsFrom items place)) := by
  rw [step_of_getElem? h, Cursor.step, hc.remaining_eq]
  rfl

/-- An advance finds the first of the items ahead, and goes on from there. -/
theorem findings_advance_cons (h : family[n]? = some c) (hc : c.IsAt items place)
    (hm : place + 1 = m) (moves : List Move) :
    ∃ (family' : Family) (c' : Cursor),
      family.findings (⟨n, .advance⟩ :: moves) =
        .ok (.item (items.drop m).head?) :: family'.findings moves ∧
      family'[n]? = some c' ∧ c'.IsAt items (place + 1) := by
  refine ⟨(family.step n .advance).1, _, ?_, getElem?_step_self h,
    hc.step (s := .advance) trivial _⟩
  rw [findings, step_advance_snd h hc, hm, itemAt?_natCast]

/-- A cursor with nothing ahead finds nothing, however often it is advanced. -/
theorem findings_advance_out (h : family[n]? = some c) (hc : c.IsAt items place)
    (hm : place + 1 = m) (hout : items.drop m = []) (more : ℕ) :
    family.findings (List.replicate more ⟨n, .advance⟩) =
      List.replicate more (.ok (.item none)) := by
  induction more generalizing family c place m with
  | zero => rfl
  | succ more ih =>
    obtain ⟨family', c', hfirst, h', hc'⟩ :=
      findings_advance_cons h hc hm (List.replicate more ⟨n, .advance⟩)
    have hout' : items.drop (m + 1) = [] := by
      rw [List.drop_add_one_eq_tail_drop, hout, List.tail_nil]
    rw [List.replicate_succ, hfirst, hout, ih h' hc' (m := m + 1) (by omega) hout']
    rfl

/-- **Advancing again and again** finds the items ahead, one after the other, and then nothing for
ever. -/
theorem findings_advance (h : family[n]? = some c) (hc : c.IsAt items place) (hm : place + 1 = m)
    (more : ℕ) :
    family.findings (List.replicate ((items.drop m).length + more) ⟨n, .advance⟩) =
      (items.drop m).map (fun d => .ok (.item (some d))) ++
        List.replicate more (.ok (.item none)) := by
  -- the induction is on what is ahead, which an advance makes shorter by one item
  induction hahead : items.drop m generalizing family c place m with
  | nil =>
    rw [List.length_nil, Nat.zero_add]
    exact findings_advance_out h hc hm hahead more
  | cons d ahead ih =>
    obtain ⟨family', c', hfirst, h', hc'⟩ :=
      findings_advance_cons h hc hm (List.replicate (ahead.length + more) ⟨n, .advance⟩)
    have hrest := ih h' hc' (m := m + 1) (by omega) (drop_add_one hahead)
    rw [List.length_cons, Nat.add_right_comm, List.replicate_succ, hfirst, hahead, hrest]
    rfl

end Findings

/-- **What can be relied on in a family of cursors over some items.** -/
structure Reliable (family : Family) (items : List Document) : Prop where
  /-- Every cursor is over the items and at a place. -/
  places : family.IsOver items
  /-- No step fails on a cursor that is there. -/
  answers : ∀ n s c, family[n]? = some c → ∃ f, (family.step n s).2 = .ok f
  /-- A step on one cursor leaves all others as they are. -/
  others : ∀ n s k, k < family.length → k ≠ n → (family.step n s).1[k]? = family[k]?
  /-- Only an advance and an assignment move the cursor itself. -/
  stays : ∀ n s c place, family[n]? = some c → c.IsAt items place → s.moves = false →
    ∃ c', (family.step n s).1[n]? = some c' ∧ c'.IsAt items place
  /-- A look ahead finds what an advance finds right after it. -/
  peek : ∀ n c place, family[n]? = some c → c.IsAt items place →
    ∃ item, (family.step n .peek).2 = .ok (.item item) ∧
      ((family.step n .peek).1.step n .advance).2 = .ok (.item item)
  /-- A cursor that is not too far in front finds the items behind its place, one after the other,
  and then nothing for ever. -/
  advance : ∀ n c place, family[n]? = some c → c.IsAt items place → -1 ≤ place → ∀ more,
    family.findings
        (List.replicate ((items.drop (place + 1).toNat).length + more) ⟨n, .advance⟩) =
      (items.drop (place + 1).toNat).map (fun d => .ok (.item (some d))) ++
        List.replicate more (.ok (.item none))
  /-- These items are what a fork of the cursor has left that starts one place further on. -/
  remaining : ∀ n c place, family[n]? = some c → c.IsAt items place →
    ((family.step n (.fork (.int (place + 1)))).1.step family.length .remaining).2 =
      .ok (.items (items.drop (place + 1).toNat))

/-- A family of cursors that are over the items and at places can be relied on. -/
theorem IsOver.reliable (h : family.IsOver items) : family.Reliable items where
  places := h
  answers n s c hc := by
    obtain ⟨place, hat⟩ := h.exists_isAt hc
    rw [step_of_getElem? hc]
    exact hat.exists_finding _ s
  others _ _ _ hk hne := getElem?_step_of_ne hk hne
  stays _ _ _ _ hc hat hs := ⟨_, getElem?_step_self hc, hat.step_of_not_moves hs _⟩
  peek n c place hc hat := by
    refine ⟨_, step_peek_snd hc hat, ?_⟩
    exact step_advance_snd (getElem?_step_self hc) (hat.step_of_not_moves rfl _)
  advance n c place hc hat hplace more :=
    findings_advance hc hat (Int.toNat_of_nonneg (by omega)).symm more
  remaining n c place hc hat :=
    step_remaining_snd (getElem?_fork hc) (hat.fork (Or.inr rfl))

/-- **Cursors over any run.** Let a family begin with one cursor over some items, at a whole number,
and let any moves be made on the family, the positions that they give being whole numbers. Then the
family can be relied on: no step fails or moves another cursor than its own, a look ahead finds what
an advance finds right after it, and advancing finds the items behind the cursor, in order, and then
nothing for ever. Every cursor that is there has come in at some point, as the first one or as a
fork. And wherever a cursor has come in, it is now at the place that it was last assigned, or else
where it started, and one place further on for every advance since. -/
theorem over_any_run {start : Int} {position : Document} (hstart : position.whole? = some start)
    (items : List Document) (hmoves : ∀ m ∈ moves, m.step.IsWhole) :
    Reliable (after [⟨items, position⟩] moves) items ∧
      Enters [⟨items, position⟩] [] 0 start ∧
      (∀ k < (after [⟨items, position⟩] moves).length, ∃ before later place,
        moves = before ++ later ∧ Enters [⟨items, position⟩] before k place) ∧
      ∀ before later k place, moves = before ++ later →
        Enters [⟨items, position⟩] before k place →
        ∃ c, (after [⟨items, position⟩] moves)[k]? = some c ∧
          c.IsAt items (placeAfter place (stepsOn k later)) := by
  have hover : IsOver [⟨items, position⟩] items := by
    intro c hc
    obtain rfl := List.mem_singleton.mp hc
    exact ⟨start, rfl, hstart⟩
  refine ⟨(hover.after hmoves).reliable, .first rfl hstart,
    fun k hk => hover.exists_enters hmoves hk, ?_⟩
  rintro before later k place rfl henters
  obtain ⟨hbefore, hlater⟩ := List.forall_mem_append.mp hmoves
  obtain ⟨c, hc, hat⟩ := hover.isAt_of_enters hbefore henters
  rw [after_append]
  exact isAt_after hc hat hlater

end Family

/-- A command over which cursors go. -/
def putCrateOnDesk : List Document := [.text "put", .text "crate", .text "on", .text "desk"]

/-- Moves by which a cursor at the crate is forked, the fork goes to the end, and the cursor itself
looks ahead, is sent to the beginning and takes one step. -/
def goingOver : List Move :=
  [⟨0, .fork .null⟩, ⟨1, .advance⟩, ⟨0, .peek⟩, ⟨0, .assign (.int (-1))⟩, ⟨1, .advance⟩,
    ⟨0, .advance⟩]

/-- Each of the two cursors is where it has gone itself, and the first one still has three words to
find. -/
theorem Family.over_putCrateOnDesk :
    (Document.int 1).whole? = some 1 ∧ (∀ m ∈ goingOver, m.step.IsWhole) ∧
      (∃ c, (after [⟨putCrateOnDesk, .int 1⟩] goingOver)[0]? = some c ∧ c.IsAt putCrateOnDesk 0) ∧
      (∃ c, (after [⟨putCrateOnDesk, .int 1⟩] goingOver)[1]? = some c ∧ c.IsAt putCrateOnDesk 3) ∧
      findings (after [⟨putCrateOnDesk, .int 1⟩] goingOver) (List.replicate 5 ⟨0, .advance⟩) =
        [.ok (.item (some (.text "crate"))), .ok (.item (some (.text "on"))),
          .ok (.item (some (.text "desk"))), .ok (.item none), .ok (.item none)] := by
  have hwhole : ∀ m ∈ goingOver, m.step.IsWhole := by
    simp [goingOver, Step.IsWhole, Document.whole?]
  have hstart : (Document.int 1).whole? = some 1 := rfl
  obtain ⟨hreliable, hfirst, -, hplaces⟩ := over_any_run hstart putCrateOnDesk hwhole
  obtain ⟨c, hc, hat⟩ := hplaces [] goingOver 0 1 rfl hfirst
  have hfork : Enters [⟨putCrateOnDesk, .int 1⟩] [⟨0, .fork .null⟩] 1 1 :=
    @Enters.fork _ [] 0 .null _ 1 rfl rfl
  exact ⟨hstart, hwhole, ⟨c, hc, hat⟩, hplaces _ goingOver.tail 1 1 rfl hfork,
    hreliable.advance 0 c 0 hc hat (by decide) 2⟩

end TextAdventure.Cursor
