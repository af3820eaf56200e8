import TextAdventure.Proofs.Naming
import TextAdventure.Proofs.WorldSheets

/-!
# The words of an object, in order

An object shows its words when a player has to be asked which of several objects is meant, so their
order matters as well as which ones they are. The list is made by a loop that looks each word up in
the list that it is extending. This file says what the list is without the loop.

* First come the words of the name, repetitions and all, and then the words that only the aliases
  have, each once and in order of first mention (`TextAdventure.GameObject.wordsOf_eq`).
* One more alias takes no word away and moves none that stands in front of it: what was listed for
  the name and the aliases before it still opens the list. Only words that the alias itself has may
  come to stand further in front (`TextAdventure.GameObject.Extends`).

Both are facts about one step of the loop, which leaves a list as it is or puts a word behind it
(`TextAdventure.GameObject.addWord`). The main statement, `TextAdventure.GameObject.words_in_order`,
is about every object that is read from a sheet.
-/

namespace TextAdventure

/-- What is left of a list without repetitions has none. -/
theorem nodup_eraseDups {α : Type} [BEq α] [LawfulBEq α] (as : List α) : as.eraseDups.Nodup := by
  -- the items are taken from behind, so that an item is left out if it has come before
  induction as using List.reverseRecOn with
  | nil => exact .nil
  | append_singleton as a ih =>
    rw [List.eraseDups_append]
    by_cases ha : a ∈ as
    · have hskip : [a].removeAll as = [] := by simp [List.removeAll, ha]
      rw [hskip, List.eraseDups_nil, List.append_nil]
      exact ih
    · have hkeep : [a].removeAll as = [a] := by simp [List.removeAll, ha]
      rw [hkeep, List.eraseDups_cons, List.filter_nil, List.eraseDups_nil]
      refine List.nodup_append.mpr ⟨ih, List.pairwise_singleton _ _, fun b hb b' hb' heq => ha ?_⟩
      rw [← List.mem_singleton.mp hb', ← heq]
      exact List.mem_eraseDups.mp hb

namespace GameObject

/-! ### One word after the other -/

section Words

variable {ws more : List String} {w : String}

theorem addWord_of_mem (h : w ∈ ws) : addWord ws w = ws := by
  rw [addWord, if_pos (List.contains_iff_mem.mpr h)]

theorem addWord_of_not_mem (h : w ∉ ws) : addWord ws w = ws ++ [w] := by
  rw [addWord, if_neg fun hw => h (List.contains_iff_mem.mp hw)]

/-- **A run**: the words that are not there yet come behind the others, each once and in order of
first mention. -/
theorem foldl_addWord (ws more : List String) :
    more.foldl addWord ws = ws ++ (more.filter (· ∉ ws)).eraseDups := by
  induction more generalizing ws with
  | nil => simp
  | cons w more ih =>
    rw [List.foldl_cons, ih]
    by_cases hw : w ∈ ws
    · rw [addWord_of_mem hw, List.filter_cons_of_neg (by simpa using hw)]
    · rw [addWord_of_not_mem hw, List.filter_cons_of_pos (by simpa using hw), List.eraseDups_cons,
        List.append_assoc, List.singleton_append, List.filter_filter]
      congr 3
      refine List.filter_congr fun w' _ => ?_
      rw [Bool.eq_iff_iff]
      simp [and_comm]

/-- What is listed stays in front. -/
theorem prefix_foldl_addWord (ws more : List String) : ws <+: more.foldl addWord ws := by
  rw [foldl_addWord]
  exact List.prefix_append _ _

/-- Of the words that are looked for, a run lists those that it would list without the others. -/
theorem filter_foldl_addWord (keep : String → Bool) (ws more : List String) :
    (more.foldl addWord ws).filter keep = (more.filter keep).foldl addWord (ws.filter keep) := by
  induction more generalizing ws with
  | nil => rfl
  | cons w more ih =>
    rw [List.foldl_cons, ih]
    cases hkeep : keep w with
    | false =>
      -- a word that is not looked for leaves no trace
      have hstep : (addWord ws w).filter keep = ws.filter keep := by
        by_cases hw : w ∈ ws
        · rw [addWord_of_mem hw]
        · rw [addWord_of_not_mem hw]
          simp [hkeep]
      rw [hstep, List.filter_cons_of_neg (by simp [hkeep])]
    | true =>
      have hstep : (addWord ws w).filter keep = addWord (ws.filter keep) w := by
        by_cases hw : w ∈ ws
        · rw [addWord_of_mem hw, addWord_of_mem (List.mem_filter.mpr ⟨hw, hkeep⟩)]
        · rw [addWord_of_not_mem hw, addWord_of_not_mem fun h => hw (List.mem_of_mem_filter h)]
          simp [hkeep]
      rw [hstep, List.filter_cons_of_pos hkeep, List.foldl_cons]

end Words

/-! ### A name and its aliases -/

/-- **An object is called by the words of its name, and then by those that only its aliases have**,
each once and in order of first mention. -/
theorem wordsOf_eq (name : String) (aliases : List String) :
    wordsOf name aliases = nameWords name ++
      ((aliases.flatMap nameWords).filter (· ∉ nameWords name)).eraseDups :=
  foldl_addWord _ _

/-- More aliases come behind the others, and so do their words. -/
theorem wordsOf_prefix_wordsOf (name : String) (aliases more : List String) :
    wordsOf name aliases <+: wordsOf name (aliases ++ more) := by
  rw [wordsOf, wordsOf, List.flatMap_append, List.foldl_append]
  exact prefix_foldl_addWord _ _

/-- An alias between others leaves all words in their order that it does not have itself. -/
theorem filter_wordsOf_insert (name added : String) (before after : List String) :
    (wordsOf name (before ++ added :: after)).filter (· ∉ nameWords added) =
      (wordsOf name (before ++ after)).filter (· ∉ nameWords added) := by
  have hgone : (nameWords added).filter (· ∉ nameWords added) = [] := by
    rw [List.filter_eq_nil_iff]
    simp
  simp only [wordsOf, filter_foldl_addWord, List.flatMap_append, List.flatMap_cons,
    List.filter_append, hgone, List.nil_append]

/-! ### Objects on sheets -/

/-- A sheet with other aliases. -/
def withAliases (sheet : Document) (aliases : List String) : Document :=
  .mapping (Table.insert (.text "aliases") (.ofTexts aliases) sheet.entriesIn)

/-- **An alias is added to an object** behind some of its aliases: nothing that it is called by is
gone, what stands for its name and for the aliases before the new one is where it was, and the words
that the new one does not have are in their former order. -/
structure Extends (before : List String) (added : String) (o o' : GameObject) : Prop where
  subset : o.words ⊆ o'.words
  opening : wordsOf o.name before <+: o.words ∧ wordsOf o.name before <+: o'.words
  order : o'.words.filter (· ∉ nameWords added) = o.words.filter (· ∉ nameWords added)

variable {id sheet : Document} {o : GameObject} {aliases before after : List String}
  {added : String}

/-- What is read is what the sheet describes. -/
theorem Describes.of_ofDocument (h : ofDocument id sheet = .ok o) : Describes id sheet o := by
  cases sheet with
  | mapping fields => exact ofDocument_eq_ok_iff.mp h
  | _ => simp [ofDocument, Document.entries, bind, Except.bind] at h

/-- With other aliases, a sheet describes the same object but for the aliases and the words. -/
theorem ofDocument_withAliases (h : Describes id sheet o) (hne : aliases ≠ []) :
    ofDocument id (withAliases sheet aliases) =
      .ok { o with aliases, words := wordsOf o.name aliases } := by
  -- the name and the description are read from fields that are as they were
  have hother : ∀ field, field ≠ "aliases" →
      (withAliases sheet aliases).under? field = sheet.under? field := by
    intro field hfield
    exact Table.get?_insert_of_ne (Document.isExact_text _) fun heq =>
      hfield (Document.text.inj heq)
  have haliases : (withAliases sheet aliases).under "aliases" = .ofTexts aliases :=
    Document.under_of_under? (Table.get?_insert_self (Document.isExact_text _))
  refine ofDocument_eq_ok_iff.mpr ⟨h.id_eq, ?_, Or.inr ?_, ?_, rfl⟩
  · rw [← withAliases, hother _ (by decide)]
    exact h.name
  · rw [← withAliases, haliases]
    exact Or.inr ⟨hne, rfl⟩
  · rw [← withAliases, hother _ (by decide)]
    exact h.description

/-- **A step**: an alias is added between others. -/
theorem Extends.of_insert (h : o.NamesWords) (haliases : o.aliases = before ++ after) :
    o.Extends before added { o with
      aliases := before ++ added :: after
      words := wordsOf o.name (before ++ added :: after) } := by
  rw [NamesWords, haliases] at h
  refine ⟨fun w hw => ?_, ⟨?_, wordsOf_prefix_wordsOf _ _ _⟩, ?_⟩
  · rw [h, mem_wordsOf] at hw
    refine mem_wordsOf.mpr (hw.imp_right ?_)
    rintro ⟨other, hother, hmem⟩
    exact ⟨other, List.mem_append.mpr ((List.mem_append.mp hother).imp_right
      (List.mem_cons_of_mem _)), hmem⟩
  · rw [h]
    exact wordsOf_prefix_wordsOf _ _ _
  · rw [h]
    exact filter_wordsOf_insert _ _ _ _

/-- **The words of an object are those of its name, and then the new ones of its aliases.** Let a
sheet describe an object under an id. The object's name and aliases are what the sheet says, and its
words are the words of the name in lower case, repetitions and all, followed by a tail that has no
repetitions and no word of the name: the other words of the aliases, in order of first mention. So a
word is among them if and only if the name or an alias has it. With one more alias the sheet still
describes an object; an alias behind all others leaves the list as it is and at most adds to its
end, and wherever the alias comes in, no word is lost and no other words change their order. -/
theorem words_in_order (h : ofDocument id sheet = .ok o) :
    Describes id sheet o ∧
    (∃ tail, o.words = nameWords o.name ++ tail ∧ tail.Nodup ∧ (∀ w ∈ tail, w ∉ nameWords o.name) ∧
      tail = ((o.aliases.flatMap nameWords).filter (· ∉ nameWords o.name)).eraseDups) ∧
    (∀ w, w ∈ o.words ↔ w ∈ nameWords o.name ∨ ∃ other ∈ o.aliases, w ∈ nameWords other) ∧
    (∀ added, ∃ o', ofDocument id (withAliases sheet (o.aliases ++ [added])) = .ok o' ∧
      o'.name = o.name ∧ o'.aliases = o.aliases ++ [added] ∧ o.words <+: o'.words) ∧
    ∀ before added after, o.aliases = before ++ after →
      ∃ o', ofDocument id (withAliases sheet (before ++ added :: after)) = .ok o' ∧
        o'.name = o.name ∧ o'.aliases = before ++ added :: after ∧ o.Extends before added o' := by
  have hwords : o.NamesWords := .of_ofDocument h
  have hdescribes : Describes id sheet o := .of_ofDocument h
  refine ⟨hdescribes, ⟨_, hwords.trans (wordsOf_eq _ _), nodup_eraseDups _, fun w hw => ?_, rfl⟩,
    fun w => ?_, fun added => ?_, fun before added after haliases => ?_⟩
  · rw [List.mem_eraseDups, List.mem_filter] at hw
    exact of_decide_eq_true hw.2
  · rw [hwords, mem_wordsOf]
  · refine ⟨_, ofDocument_withAliases hdescribes (by simp), rfl, rfl, ?_⟩
    rw [hwords]
    exact wordsOf_prefix_wordsOf _ _ _
  · exact ⟨_, ofDocument_withAliases hdescribes (by simp), rfl, rfl, .of_insert hwords haliases⟩

end GameObject

namespace Attic

/-- What an author writes of a figure in the attic. -/
def strangerSheet : Document :=
  .mapping [(.text "name", .text "Old old man"),
    (.text "aliases", .list [.text "Stranger", .text "old fellow stranger"])]

/-- The figure in the attic. -/
def stranger : GameObject :=
  ⟨.text "man", "Old old man", ["Stranger", "old fellow stranger"], .text "",
    ["old", "old", "man", "stranger", "fellow"]⟩

end Attic

open Attic in
/-- The figure in the attic has a word of its name twice and all others once, and one more alias in
front of the others moves only its own word. -/
theorem GameObject.words_of_stranger :
    ofDocument (.text "man") strangerSheet = .ok stranger ∧
      (∃ tail, stranger.words = ["old", "old", "man"] ++ tail ∧ tail.Nodup ∧
        tail = ["stranger", "fellow"]) ∧
      (∀ w, w ∈ stranger.words ↔
        w ∈ nameWords "Old old man" ∨ ∃ other ∈ stranger.aliases, w ∈ nameWords other) ∧
      (∃ o', ofDocument (.text "man")
          (withAliases strangerSheet (stranger.aliases ++ ["The Visitor"])) = .ok o' ∧
        stranger.words <+: o'.words) ∧
      ∃ o', ofDocument (.text "man")
          (withAliases strangerSheet ("Fellow" :: stranger.aliases)) = .ok o' ∧
        stranger.words ⊆ o'.words ∧
        o'.words.filter (· ≠ "fellow") = ["old", "old", "man", "stranger"] := by
  have hread : ofDocument (.text "man") strangerSheet = .ok stranger := rfl
  have hname : nameWords stranger.name = ["old", "old", "man"] := rfl
  have haliases :
      stranger.aliases.flatMap nameWords = ["stranger", "old", "fellow", "stranger"] := rfl
  have hfellow : nameWords "Fellow" = ["fellow"] := rfl
  obtain ⟨-, ⟨tail, hwords, hnodup, -, htail⟩, hmem, hbehind, hbetween⟩ := words_in_order hread
  rw [hname] at hwords
  rw [haliases, hname] at htail
  refine ⟨hread, ⟨tail, hwords, hnodup, htail⟩, hmem, ?_, ?_⟩
  · obtain ⟨o', ho', -, -, hprefix⟩ := hbehind "The Visitor"
    exact ⟨o', ho', hprefix⟩
  · obtain ⟨o', ho', -, -, hextends⟩ := hbetween [] "Fellow" stranger.aliases rfl
    refine ⟨o', ho', hextends.subset, ?_⟩
    have horder := hextends.order
    rw [hfellow] at horder
    simp only [List.mem_singleton] at horder
    rw [horder]
    rfl

end TextAdventure
