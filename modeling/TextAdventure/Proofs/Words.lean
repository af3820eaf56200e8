import Mathlib.Data.List.Basic
import TextAdventure.Match

/-!
# The words ahead

Resolvers and the matcher look at an input through a place: the item there, the run of words from
there on, the phrase that begins there. An input of words is a list of texts, and a place in it is a
number that counts the words before it. This file says what each look amounts to in terms of the
words that are still ahead, `ws.drop n`, so that no later proof has to speak of places outside the
input.
-/

namespace TextAdventure

section Places

variable {α : Type} (items : List α) (n : ℕ)

/-- The item at a place is the first of those ahead. -/
theorem itemAt?_natCast : itemAt? items n = (items.drop n).head? := by
  rw [itemAt?, if_neg (by omega), Int.toNat_natCast, List.head?_drop]

theorem ahead_natCast (input : List Document) : Reference.ahead input n = input.drop n := by
  rw [Reference.ahead, if_neg (by omega), Int.toNat_natCast]

end Places

/-- Behind a segment that is ahead, the rest is ahead. -/
theorem drop_add_length {α : Type} {items segment rest : List α} {n : ℕ}
    (h : items.drop n = segment ++ rest) : items.drop (n + segment.length) = rest := by
  rw [← List.drop_drop, h, List.drop_left]

/-- Behind the item that is next, the rest is ahead. -/
theorem drop_add_one {α : Type} {x : α} {items rest : List α} {n : ℕ}
    (h : items.drop n = x :: rest) : items.drop (n + 1) = rest := by
  rw [List.drop_add_one_eq_tail_drop, h, List.tail_cons]

/-! ### Words as documents -/

@[simp] theorem Document.isText_text (s t : String) : (Document.text s).isText t = (s == t) := rfl

theorem Document.isText_iff {d : Document} {s : String} : d.isText s ↔ d = .text s := by
  cases d with
  | text t => simp
  | _ => simp [isText]

@[simp] theorem Document.canBeKey_text (s : String) : (Document.text s).canBeKey = true := rfl

theorem Document.text_injective : Function.Injective Document.text := fun _ _ h =>
  Document.text.inj h

/-- A list of words opens an input that begins with these words as texts. -/
theorem Phrase.begins_iff {us : List String} {input : List Document} :
    Phrase.begins us input = true ↔ us.map .text <+: input := by
  induction us generalizing input with
  | nil => simp [Phrase.begins]
  | cons u us ih =>
    cases input with
    | nil => simp [Phrase.begins]
    | cons d ds =>
      rw [Phrase.begins, Bool.and_eq_true, ih, List.map_cons, List.cons_prefix_cons,
        Document.isText_iff, eq_comm]

/-- A word of the input calls an entity if it is one of the entity's words. -/
@[simp] theorem Entity.isCalled_text (e : Entity) (w : String) :
    e.isCalled (.text w) = decide (w ∈ e.words) := by
  rw [Entity.isCalled, Bool.eq_iff_iff, List.any_eq_true, decide_eq_true_iff]
  constructor
  · rintro ⟨s, hs, hw⟩
    rwa [eq_of_beq hw]
  · intro hw
    exact ⟨w, hw, beq_self_eq_true w⟩

section Input

variable (ws : List String) (n : ℕ)

/-- The next word of an input, as a document. -/
theorem itemAt?_words : itemAt? (ws.map Document.text) n = (ws.drop n).head?.map .text := by
  rw [itemAt?_natCast, ← List.map_drop, List.head?_map]

/-- The words from a place on, as documents. -/
theorem itemsFrom_words : itemsFrom (ws.map Document.text) n = (ws.drop n).map .text := by
  rw [itemsFrom, Int.toNat_natCast, List.map_drop]

theorem ahead_words :
    Reference.ahead (ws.map Document.text) n = (ws.drop n).map .text := by
  rw [ahead_natCast, List.map_drop]

/-- The run of an entity: the words ahead as long as they are among its own. -/
theorem run_words (e : Entity) :
    Reference.run e (ws.map .text) n = ((ws.drop n).takeWhile (· ∈ e.words)).map .text := by
  rw [Reference.run, ahead_words, List.takeWhile_map]
  congr 2
  funext w
  exact e.isCalled_text w

/-- Words never leave a run without an end. -/
theorem isStuck_words (e : Entity) : Reference.isStuck e (ws.map .text) n = false := by
  rw [Reference.isStuck, ahead_words, List.dropWhile_map, List.head?_map]
  cases ((ws.drop n).dropWhile (e.isCalled ∘ Document.text)).head? with
  | none => simp
  | some w => simp

/-- **On words, a reference always has an outcome**; the resolver's cursor follows it. -/
theorem Reference.resolve_words (scope : List Entity) :
    resolve scope (ws.map .text) n =
      .ok ⟨outcome scope (ws.map .text) n, cursorAfter n (outcome scope (ws.map .text) n)⟩ := by
  have hfree : (scope.any fun e => isStuck e (ws.map .text) n) = false := by
    simp [isStuck_words]
  rw [resolve, hfree]
  rfl

/-- A list of words opens an input of words if it is a prefix of it. -/
theorem Phrase.begins_words_iff (us : List String) :
    Phrase.begins us (ws.map .text) = true ↔ us <+: ws := by
  rw [begins_iff, List.prefix_map_iff_of_injective Document.text_injective]

/-- A phrase fits where its words are a prefix of the words ahead. -/
theorem Phrase.fits_words_iff (phrase : String) :
    Phrase.fits phrase (ws.map .text) n = true ↔ Text.words phrase <+: ws.drop n := by
  rw [Phrase.fits, if_neg (by omega), Int.toNat_natCast, ← List.map_drop, begins_words_iff]

end Input

end TextAdventure
