import Mathlib.Data.List.Forall2
import TextAdventure.Document.Access
import TextAdventure.Proofs.Tables

/-!
# What the loops of readers come to

Readers of documents go through lists: a grammar's through symbols, verbs and rules, a world's
through scenes and objects. All of these loops are one of two. Either each item is read, with its
number in the list, and the results are listed; or each item is read as an entry, which is entered
into a table. This file says once for each of the two what comes of it, so that a proof about a
reader only has to look into the reader of one item.

What an item is read as may be described by any relation, and then the loop has a result if and only
if there is a list of things that the items *declare*, one after the other
(`TextAdventure.readAll_eq_ok_iff`, `TextAdventure.enterAll_eq_ok_iff`). From this it follows that
whatever holds of all that items are read as holds of all that is in the result
(`TextAdventure.forall_of_readAll`, `TextAdventure.forall_value_of_enterAll`).
-/

namespace TextAdventure

/-- Two steps in a row have a result exactly if the first has one, and from there the second. -/
theorem bind_eq_ok_iff {ε α β : Type} {first : Except ε α} {next : α → Except ε β} {b : β} :
    (first >>= next) = .ok b ↔ ∃ a, first = .ok a ∧ next a = .ok b := by
  rcases first with e | a
  · exact ⟨fun h => (nomatch h), fun ⟨_, h, _⟩ => (nomatch h)⟩
  · exact ⟨fun h => ⟨a, rfl, h⟩, fun ⟨_, h, hnext⟩ => Except.ok.inj h ▸ hnext⟩

/-! ### Two lists, item by item -/

section Pairs

variable {α β γ : Type} {R : α → β → Prop} {as : List α} {bs : List β}

/-- Each of some items has something that belongs to it if and only if there is a list of such
things. -/
theorem exists_forall₂_iff : (∃ bs, List.Forall₂ R as bs) ↔ ∀ a ∈ as, ∃ b, R a b := by
  induction as with
  | nil => exact iff_of_true ⟨[], .nil⟩ (by simp)
  | cons a as ih =>
    rw [List.forall_mem_cons, ← ih]
    constructor
    · rintro ⟨bs, hbs⟩
      obtain ⟨b, rest, hb, hrest, rfl⟩ := List.forall₂_cons_left_iff.mp hbs
      exact ⟨⟨b, hb⟩, rest, hrest⟩
    · rintro ⟨⟨b, hb⟩, rest, hrest⟩
      exact ⟨b :: rest, .cons hb hrest⟩

theorem exists_of_mem_of_forall₂ (h : List.Forall₂ R as bs) : ∀ b ∈ bs, ∃ a ∈ as, R a b := by
  induction h with
  | nil => simp
  | cons hab _ ih =>
    refine List.forall_mem_cons.mpr ⟨⟨_, List.mem_cons_self .., hab⟩, fun b hb => ?_⟩
    obtain ⟨a, ha, hR⟩ := ih b hb
    exact ⟨a, List.mem_cons_of_mem _ ha, hR⟩

/-- What is gathered from two lists is the same if it is, item by item. -/
theorem flatMap_eq_of_forall₂ {f : α → List γ} {g : β → List γ}
    (h : List.Forall₂ (fun a b => f a = g b) as bs) : as.flatMap f = bs.flatMap g := by
  induction h with
  | nil => rfl
  | cons hab _ ih => rw [List.flatMap_cons, List.flatMap_cons, hab, ih]

/-- The last items of two lists belong together if all of them do. -/
theorem getLast?_rel_of_forall₂ (h : List.Forall₂ R as bs) :
    Option.Rel R as.getLast? bs.getLast? := by
  induction h with
  | nil => exact .none
  | cons hab hrest ih =>
    cases hrest with
    | nil => exact .some hab
    | cons _ _ =>
      rw [List.getLast?_cons_cons, List.getLast?_cons_cons]
      exact ih

/-- What does not depend on the numbers of the items holds without them. -/
theorem forall₂_zipIdx_iff {number : ℕ} :
    List.Forall₂ (fun e => R e.1) (as.zipIdx number) bs ↔ List.Forall₂ R as bs := by
  rw [← List.forall₂_map_left_iff, List.zipIdx_map_fst]

end Pairs

/-! ### Reading a list -/

section Reading

variable {α : Type} {read : ℕ → Document → Except Fault α}
  (readAll : ℕ → List Document → Except Fault (List α))
  (hnil : ∀ number, readAll number [] = .ok [])
  (hcons : ∀ number d ds, readAll number (d :: ds) = (do
    let a ← read number d
    let as ← readAll (number + 1) ds
    return a :: as))

include hnil hcons

/-- **A reader that goes through a list**, item by item and counting, results in exactly what the
items declare, one after the other. -/
theorem readAll_eq_ok_iff {declares : ℕ → Document → α → Prop} {ds : List Document}
    (hread : ∀ d ∈ ds, ∀ number a, read number d = .ok a ↔ declares number d a)
    (number : ℕ) (as : List α) :
    readAll number ds = .ok as ↔
      List.Forall₂ (fun e => declares e.2 e.1) (ds.zipIdx number) as := by
  induction ds generalizing number as with
  | nil => rw [hnil, List.zipIdx_nil, List.forall₂_nil_left_iff, Except.ok.injEq, eq_comm]
  | cons d ds ih =>
    obtain ⟨hd, hds⟩ := List.forall_mem_cons.mp hread
    rw [hcons, bind_eq_ok_iff, List.zipIdx_cons, List.forall₂_cons_left_iff]
    refine exists_congr fun a => ?_
    rw [hd, bind_eq_ok_iff]
    constructor
    · rintro ⟨ha, as', has', h⟩
      exact ⟨as', ha, (ih hds (number + 1) as').mp has', (Except.ok.inj h).symm⟩
    · rintro ⟨as', ha, has', rfl⟩
      exact ⟨ha, as', (ih hds (number + 1) as').mpr has', rfl⟩

/-- What holds of whatever an item is read as holds of all that a list is read as. -/
theorem forall_of_readAll {good : α → Prop} (hread : ∀ number d a, read number d = .ok a → good a)
    (number : ℕ) {ds : List Document} {as : List α} (h : readAll number ds = .ok as) :
    ∀ a ∈ as, good a := by
  have hall := (readAll_eq_ok_iff readAll hnil hcons (fun _ _ _ _ => Iff.rfl) number as).mp h
  intro a ha
  obtain ⟨e, -, he⟩ := exists_of_mem_of_forall₂ hall a ha
  exact hread e.2 e.1 a he

end Reading

/-! ### Entering a list into a table -/

section Entering

variable {κ α γ : Type} [BEq κ] {read : γ → Except Fault (κ × α)}
  (enterAll : Table κ α → List γ → Except Fault (Table κ α))
  (hnil : ∀ table, enterAll table [] = .ok table)
  (hcons : ∀ table d ds, enterAll table (d :: ds) =
    read d >>= fun e => enterAll (table.insert e.1 e.2) ds)

include hnil hcons

/-- **A reader that enters what it reads** into a table results in the table in which exactly what
the items declare has been entered, one after the other. -/
theorem enterAll_eq_ok_iff {declares : γ → κ × α → Prop} {ds : List γ}
    (hread : ∀ d ∈ ds, ∀ e, read d = .ok e ↔ declares d e) (table table' : Table κ α) :
    enterAll table ds = .ok table' ↔
      ∃ entries, List.Forall₂ declares ds entries ∧ table' = table.update entries := by
  induction ds generalizing table with
  | nil =>
    rw [hnil, Except.ok.injEq]
    constructor
    · rintro rfl
      exact ⟨[], .nil, rfl⟩
    · rintro ⟨entries, hentries, rfl⟩
      rw [List.forall₂_nil_left_iff.mp hentries]
      rfl
  | cons d ds ih =>
    obtain ⟨hd, hds⟩ := List.forall_mem_cons.mp hread
    rw [hcons, bind_eq_ok_iff]
    constructor
    · rintro ⟨e, he, h⟩
      obtain ⟨rest, hrest, rfl⟩ := (ih hds _).mp h
      exact ⟨e :: rest, .cons ((hd e).mp he) hrest, rfl⟩
    · rintro ⟨entries, hentries, rfl⟩
      obtain ⟨e, rest, he, hrest, rfl⟩ := List.forall₂_cons_left_iff.mp hentries
      exact ⟨e, (hd e).mpr he, (ih hds _).mpr ⟨rest, hrest, rfl⟩⟩

/-- What holds of the keys that items are read with, and of those of the table, holds of all keys in
the end. -/
theorem forall_key_of_enterAll (good : κ → Prop) (hread : ∀ d e, read d = .ok e → good e.1)
    {table table' : Table κ α} {ds : List γ} (h : enterAll table ds = .ok table')
    (hbefore : ∀ k ∈ table.keys, good k) : ∀ k ∈ table'.keys, good k := by
  obtain ⟨entries, hentries, rfl⟩ :=
    (enterAll_eq_ok_iff enterAll hnil hcons (fun _ _ _ => Iff.rfl) table table').mp h
  intro k hk
  rcases Table.mem_keys_update hk with hk | hk
  · exact hbefore k hk
  · obtain ⟨e, he, rfl⟩ := List.mem_map.mp hk
    obtain ⟨d, -, hd⟩ := exists_of_mem_of_forall₂ hentries e he
    exact hread d e hd

/-- What holds of the values that items are read as, and of those in the table, holds of all values
in the end. -/
theorem forall_value_of_enterAll (good : α → Prop) (hread : ∀ d e, read d = .ok e → good e.2)
    {table table' : Table κ α} {ds : List γ} (h : enterAll table ds = .ok table')
    (hbefore : ∀ e ∈ table, good e.2) : ∀ e ∈ table', good e.2 := by
  obtain ⟨entries, hentries, rfl⟩ :=
    (enterAll_eq_ok_iff enterAll hnil hcons (fun _ _ _ => Iff.rfl) table table').mp h
  intro e he
  rcases Table.mem_update he with hold | ⟨e', he', heq⟩
  · exact hbefore e hold
  · obtain ⟨d, -, hd⟩ := exists_of_mem_of_forall₂ hentries e' he'
    exact heq ▸ hread d e' hd

end Entering

end TextAdventure
