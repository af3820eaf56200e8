import TextAdventure.Proofs.Reporting

/-!
# Sheets

A *sheet* is a document that somebody has written for a reader. What a reader makes of it can be
said in two ways: by the steps that it takes, or by what stands where in the sheet. This file has
the terms for the second.

* What stands under a name in a sheet (`TextAdventure.Document.under?`), and what the items of a
  field are. A field may be left out, and most readers take an empty one for one that was.
* A field may *stand for* some texts: it is a list of them, or the only one by itself
  (`TextAdventure.Document.StandsFor`). The words of a verb, the phrases of a symbol and the aliases
  of an object are written in this way, and all three are read in the same way
  (`TextAdventure.Document.listOf_eq_ok_iff`).
-/

namespace TextAdventure

/-! ### What stands in a sheet -/

namespace Document

/-- Whether a document is a mapping. -/
def IsMapping (d : Document) : Prop := ∃ entries, d = .mapping entries

/-- The entries of a mapping; anything else has none. -/
def entriesIn : Document → Table Document Document
  | .mapping entries => entries
  | _ => []

/-- The items of a list; anything else has none. -/
def itemsIn : Document → List Document
  | .list items => items
  | _ => []

/-- What stands under a name in a sheet, if anything does. -/
def under? (name : String) (sheet : Document) : Option Document := field? name sheet.entriesIn

/-- What stands under a name in a sheet, or nothing. -/
def under (name : String) (sheet : Document) : Document := (sheet.under? name).getD .null

theorem under_of_under? {name : String} {sheet d : Document} (h : sheet.under? name = some d) :
    sheet.under name = d := by
  rw [under, h, Option.getD_some]

/-- Only a mapping has something under a name. -/
theorem isMapping_of_under? {name : String} {sheet d : Document} (h : sheet.under? name = some d) :
    sheet.IsMapping := by
  cases sheet with
  | mapping entries => exact ⟨entries, rfl⟩
  | _ => simp [under?, entriesIn, field?, Table.get?] at h

theorem isMapping_of_under {name : String} {sheet : Document} (h : sheet.under name ≠ .null) :
    sheet.IsMapping := by
  cases hunder : sheet.under? name with
  | none => exact absurd (by rw [under, hunder, Option.getD_none]) h
  | some d => exact isMapping_of_under? hunder

/-- Whether a field is a list, or empty and so taken for an empty list. -/
def IsListed (field : Document) : Prop := field.isEmpty ∨ ∃ items, field = .list items

/-- **A field stands for some texts** if it is a list of them, and not the empty one, or if it is
the only one of them, and not the empty text. -/
def StandsFor (field : Document) (ss : List String) : Prop :=
  (∃ s, s ≠ "" ∧ field = .text s ∧ ss = [s]) ∨ (ss ≠ [] ∧ field = .list (ss.map .text))

variable {field : Document} {ss : List String}

theorem StandsFor.ne_nil (h : field.StandsFor ss) : ss ≠ [] := by
  rcases h with ⟨s, -, -, rfl⟩ | ⟨hne, -⟩
  · exact List.cons_ne_nil s []
  · exact hne

theorem StandsFor.isEmpty_eq_false (h : field.StandsFor ss) : field.isEmpty = false := by
  rcases h with ⟨s, hne, rfl, -⟩ | ⟨hne, rfl⟩
  · simpa [isEmpty] using hne
  · simpa [isEmpty] using hne

theorem StandsFor.isMapping {name : String} {sheet : Document}
    (h : (sheet.under name).StandsFor ss) :
    sheet.IsMapping := by
  have hne : sheet.under name ≠ .null := by
    intro hnull
    have hempty := h.isEmpty_eq_false
    rw [hnull] at hempty
    exact Bool.noConfusion hempty
  exact isMapping_of_under hne

/-- An empty list has no items, and neither has anything else that is empty. -/
theorem itemsIn_of_isEmpty (h : field.isEmpty) : field.itemsIn = [] := by
  cases field with
  | list items => exact List.isEmpty_iff.mp h
  | _ => rfl

theorem entriesIn_of_isEmpty (h : field.isEmpty) : field.entriesIn = [] := by
  cases field with
  | mapping entries => exact List.isEmpty_iff.mp h
  | _ => rfl

/-- The entries that a listed field is gone through by are its items. -/
theorem IsListed.hasEntries_iff (h : field.IsListed) {entries : List Document} :
    field.HasEntries entries ↔ field.itemsIn = entries := by
  rw [HasEntries, orElse]
  by_cases hempty : field.isEmpty
  · rw [if_pos hempty, itemsIn_of_isEmpty hempty, parts, Except.ok.injEq]
  · obtain ⟨items, rfl⟩ := h.resolve_left hempty
    rw [if_neg hempty, parts, Except.ok.injEq, itemsIn]

theorem IsListed.isSequence (h : field.IsListed) : field.isEmpty ∨ field.IsSequence := by
  refine h.imp_right ?_
  rintro ⟨items, rfl⟩
  trivial

/-! ### Fields that stand for texts -/

/-- The documents that a field lists, a lone text being a list of one. -/
inductive Lists : Document → List Document → Prop
  | empty {field : Document} (h : field.isEmpty) : Lists field []
  | text {s : String} (h : s ≠ "") : Lists (.text s) [.text s]
  | list {items : List Document} (h : items ≠ []) : Lists (.list items) items

/-- The common reader of such fields, with what it says to anything else. -/
def listOf (fault : Document → Fault) (field : Document) : Except Fault (List Document) :=
  if field.isEmpty then .ok []
  else match field with
    | .text s => .ok [.text s]
    | .list items => .ok items
    | d => .error (fault d)

theorem listOf_eq_ok_iff (fault : Document → Fault) {ds : List Document} :
    listOf fault field = .ok ds ↔ field.Lists ds := by
  unfold listOf
  constructor
  · intro h
    split_ifs at h with hempty
    · exact Except.ok.inj h ▸ .empty hempty
    · cases field with
      | text s => exact Except.ok.inj h ▸ .text (by simpa [isEmpty] using hempty)
      | list items => exact Except.ok.inj h ▸ .list (by simpa [isEmpty] using hempty)
      | _ => simp at h
  · intro h
    cases h with
    | empty hempty => rw [if_pos hempty]
    | text hs => rw [if_neg (by simpa [isEmpty] using hs)]
    | list hitems => rw [if_neg (by simpa [isEmpty] using hitems)]

/-- A field lists texts if it is empty, and then none, or if it stands for them. -/
theorem lists_texts_iff :
    field.Lists (ss.map .text) ↔ (field.isEmpty ∧ ss = []) ∨ field.StandsFor ss := by
  constructor
  · intro h
    generalize hds : ss.map Document.text = ds at h
    cases h with
    | empty hempty => exact Or.inl ⟨hempty, List.map_eq_nil_iff.mp hds⟩
    | text hs =>
      obtain ⟨s, rfl, heq⟩ := List.map_eq_singleton_iff.mp hds
      exact Or.inr (Or.inl ⟨s, Document.text.inj heq ▸ hs, heq ▸ rfl, rfl⟩)
    | list hitems =>
      exact Or.inr (Or.inr ⟨fun hnil => hitems (hds ▸ List.map_eq_nil_iff.mpr hnil), hds ▸ rfl⟩)
  · rintro (⟨hempty, rfl⟩ | ⟨s, hs, rfl, rfl⟩ | ⟨hss, rfl⟩)
    · exact .empty hempty
    · exact .text hs
    · exact .list (fun hnil => hss (List.map_eq_nil_iff.mp hnil))

end Document

/-! ### As far as a list is read -/

/-- What holds of all items holds of them as far as they are read. -/
theorem asFarAsRead_of_forall {α : Type} {read : ℕ → Document → Except Fault α}
    {good : ℕ → Document → Prop} {ds : List Document} (h : ∀ d ∈ ds, ∀ number, good number d)
    (number : ℕ) : AsFarAsRead read good number ds := by
  induction ds generalizing number with
  | nil => trivial
  | cons d ds ih =>
    obtain ⟨hd, hds⟩ := List.forall_mem_cons.mp h
    exact ⟨hd number, fun _ => ih hds (number + 1)⟩

end TextAdventure
