import Mathlib.Data.List.Basic
import Mathlib.Data.List.TakeWhile
import TextAdventure.Screen

/-!
# Escaped texts

A text that is escaped can be put into markup. This file says what that is worth: an escaped text
has no tags (`TextAdventure.Text.tags_escapeMarkup`), and neither does it touch the tags in front of
it, so that markup whose last bracket closes can be read with an escaped text behind it if it can be
read alone (`TextAdventure.Text.isMarkup_append_escapeMarkup`). A text that is not escaped may make
any markup unreadable, by a slash in brackets alone.

The one thing to see is that escaping only ever writes backslashes. So it changes neither which
bracket comes next in a text nor, as no tag begins with a backslash, whether a bracket opens a tag
(`TextAdventure.Text.isTag_escapeTags`); and of those that do, it makes the number of backslashes in
front odd. What can be seen of a text at the ends of its escaped form is said first.
-/

namespace TextAdventure.Text

/-! ### The next bracket -/

/-- The first bracket in a text. -/
def nextBracket? (cs : List Char) : Option Char := cs.find? fun c => c = '[' || c = ']'

theorem isTag_cons (c : Char) (rest : List Char) :
    isTag (c :: rest) = (opensTag c && nextBracket? rest == some ']') := by
  have hskip : (fun d : Char => decide (d ≠ '[') && decide (d ≠ ']')) =
      fun d => !(decide (d = '[') || decide (d = ']')) := by
    funext d
    simp
  rw [isTag, nextBracket?, List.find?_eq_head?_dropWhile_not, hskip]

theorem isTag_slash (rest : List Char) : isTag ('\\' :: rest) = false := by
  rw [isTag_cons]
  rfl

theorem nextBracket?_append (cs more : List Char) :
    nextBracket? (cs ++ more) = (nextBracket? cs).or (nextBracket? more) :=
  List.find?_append

theorem nextBracket?_cons_of_ne {c : Char} (hopen : c ≠ '[') (hclose : c ≠ ']')
    (cs : List Char) : nextBracket? (c :: cs) = nextBracket? cs := by
  rw [nextBracket?, List.find?_cons_of_neg (by simp [hopen, hclose]), nextBracket?]

theorem nextBracket?_slashes (n : ℕ) (cs : List Char) :
    nextBracket? (List.replicate n '\\' ++ cs) = nextBracket? cs := by
  induction n with
  | zero => rfl
  | succ n ih =>
    rw [List.replicate_succ, List.cons_append, nextBracket?_cons_of_ne (by decide) (by decide), ih]

/-! ### The ends of an escaped text -/

/-- **Escaping keeps the last character**: what is put in is put in front of a bracket, or doubles a
backslash at the end. -/
theorem getLast?_escapeTags (slashes : ℕ) (cs : List Char) :
    (escapeTags slashes cs).getLast? = (List.replicate slashes '\\' ++ cs).getLast? := by
  induction cs generalizing slashes with
  | nil => rw [escapeTags, List.append_nil]
  | cons c rest ih =>
    have hbehind : ∀ front : List Char,
        (front ++ c :: escapeTags 0 rest).getLast? = (c :: rest).getLast? := by
      intro front
      rw [List.getLast?_append_cons, List.getLast?_cons, List.getLast?_cons, ih]
      rfl
    rw [escapeTags, List.getLast?_append_cons]
    split_ifs with hslash
    · rw [ih, List.replicate_succ', List.append_assoc, hslash]
      exact List.getLast?_append_cons ..
    · exact hbehind _
    · exact hbehind _

theorem getLast?_escapeMarkup (s : String) :
    (escapeMarkup s).toList.getLast? = s.toList.getLast? := by
  have htags : (escapeTags 0 s.toList).getLast? = s.toList.getLast? := getLast?_escapeTags 0 _
  rw [escapeMarkup, String.toList_ofList]
  split_ifs with hlone
  · -- the backslash that is doubled is the last character
    rw [List.getLast?_concat, ← htags, ← List.head?_reverse]
    rw [endsInLoneSlash] at hlone
    split at hlone
    · exact Bool.noConfusion hlone
    · rename_i hreverse
      rw [hreverse]
      rfl
    · exact Bool.noConfusion hlone
  · exact htags

/-- Backslashes that have been read come out in front. -/
theorem head?_escapeTags_succ (slashes : ℕ) (cs : List Char) :
    (escapeTags (slashes + 1) cs).head? = some '\\' := by
  induction cs generalizing slashes with
  | nil => rfl
  | cons c rest ih =>
    rw [escapeTags]
    split_ifs
    · exact ih (slashes + 1)
    · rfl
    · rfl

/-- **Escaping keeps the first character** unless it is a bracket or a backslash, and puts no other
in front. -/
theorem head?_escapeMarkup_iff {s : String} (hslash : c ≠ '\\') (hbracket : c ≠ '[') :
    (escapeMarkup s).toList.head? = some c ↔ s.toList.head? = some c := by
  have htags : (escapeTags 0 s.toList).head? = some c ↔ s.toList.head? = some c := by
    cases s.toList with
    | nil => rfl
    | cons d rest =>
      rw [escapeTags, List.head?_cons, Option.some_inj]
      split_ifs with hd htag
      · rw [head?_escapeTags_succ, Option.some_inj, hd]
      · -- a tag is opened by a bracket
        simp only [Bool.and_eq_true, decide_eq_true_eq] at htag
        simp [htag.1, hslash.symm, hbracket.symm]
      · simp
  rw [escapeMarkup, String.toList_ofList, ← htags]
  split_ifs with hlone
  · cases hescaped : escapeTags 0 s.toList with
    | nil => rw [hescaped] at hlone; exact Bool.noConfusion hlone
    | cons d rest => rfl
  · rfl

/-! ### An escaped text has no tags -/

theorem nextBracket?_escapeTags (slashes : ℕ) (cs : List Char) :
    nextBracket? (escapeTags slashes cs) = nextBracket? cs := by
  induction cs generalizing slashes with
  | nil => simpa [escapeTags] using nextBracket?_slashes slashes []
  | cons c rest ih =>
    have hbehind : nextBracket? (c :: escapeTags 0 rest) = nextBracket? (c :: rest) := by
      rw [← List.singleton_append, ← List.singleton_append (l := rest), nextBracket?_append,
        nextBracket?_append, ih]
    rw [escapeTags]
    split_ifs with hslash
    · rw [ih, hslash, nextBracket?_cons_of_ne (by decide) (by decide)]
    · rw [nextBracket?_slashes, hbehind]
    · rw [nextBracket?_slashes, hbehind]

/-- **Escaping leaves open what opens**: whether a bracket in front of a text would open a tag. -/
theorem isTag_escapeTags (cs : List Char) : isTag (escapeTags 0 cs) = isTag cs := by
  cases cs with
  | nil => rfl
  | cons c rest =>
    rw [escapeTags]
    split_ifs with hslash htag
    · -- a backslash stays in front, and no tag begins with one
      obtain ⟨more, hmore⟩ := List.head?_eq_some_iff.mp (head?_escapeTags_succ 0 rest)
      rw [hslash, hmore, isTag_slash, isTag_slash]
    · -- neither does one begin with a bracket
      obtain ⟨hopen, -⟩ := Bool.and_eq_true_iff.mp htag
      rw [of_decide_eq_true hopen, isTag_cons '[']
      exact isTag_slash _
    · rw [List.replicate_zero, List.nil_append, isTag_cons, isTag_cons, nextBracket?_escapeTags]

/-- Backslashes in front of a text count for its first bracket. -/
theorem tags_slashes (k n : ℕ) (cs : List Char) :
    tags k (List.replicate n '\\' ++ cs) = tags (k + n) cs := by
  induction n generalizing k with
  | zero => rfl
  | succ n ih =>
    rw [List.replicate_succ, List.cons_append, tags, if_pos rfl, ih, Nat.add_right_comm,
      Nat.add_assoc]

theorem tags_escapeTags (slashes : ℕ) (cs : List Char) : tags 0 (escapeTags slashes cs) = [] := by
  induction cs generalizing slashes with
  | nil => simpa [escapeTags, tags] using tags_slashes 0 slashes []
  | cons c rest ih =>
    rw [escapeTags]
    split_ifs with hslash htag
    · exact ih (slashes + 1)
    · -- the number of backslashes is odd
      rw [tags_slashes, tags, if_neg hslash, if_neg (by simp), ih]
    · rw [tags_slashes, tags, if_neg hslash, isTag_escapeTags, if_neg (by simp_all), ih]

/-- A backslash at the end opens no tag. -/
theorem tags_concat_slash {k : ℕ} {cs : List Char} (h : tags k cs = []) :
    tags k (cs ++ ['\\']) = [] := by
  induction cs generalizing k with
  | nil => rfl
  | cons c rest ih =>
    have hsame : isTag (rest ++ ['\\']) = isTag rest := by
      cases rest with
      | nil => rfl
      | cons d rest =>
        have hnone : nextBracket? ['\\'] = none := by decide
        rw [List.cons_append, isTag_cons, isTag_cons, nextBracket?_append, hnone, Option.or_none]
    rw [tags] at h
    rw [List.cons_append, tags, hsame]
    split_ifs at h ⊢
    · exact ih h
    · exact ih h

/-- **An escaped text has no tags.** -/
theorem tags_escapeMarkup (s : String) : tags 0 (escapeMarkup s).toList = [] := by
  have htags := tags_escapeTags 0 s.toList
  rw [escapeMarkup, String.toList_ofList]
  split_ifs
  · exact tags_concat_slash htags
  · exact htags

/-! ### Behind markup -/

/-- What stands behind a closing bracket has tags of its own. -/
theorem tags_append_of_bracket (k : ℕ) (front rest : List Char) :
    tags k (front ++ ']' :: rest) = tags k (front ++ [']']) ++ tags 0 rest := by
  induction front generalizing k with
  | nil => rfl
  | cons c front ih =>
    have hsame : isTag (front ++ ']' :: rest) = isTag (front ++ [']']) := by
      cases front with
      | nil => rfl
      | cons d front =>
        rw [List.cons_append, List.cons_append, isTag_cons, isTag_cons, nextBracket?_append,
          nextBracket?_append]
        rfl
    have hinside : (front ++ ']' :: rest).takeWhile (fun d => d ≠ ']') =
        (front ++ [']']).takeWhile fun d => d ≠ ']' := by
      rw [List.takeWhile_append, List.takeWhile_append]
      rfl
    rw [List.cons_append, List.cons_append, tags, tags, hsame, hinside]
    split_ifs
    · exact ih (k + 1)
    · rw [ih, List.cons_append]
    · exact ih 0

theorem tags_append_of_plain {plain : List Char} (h : ∀ c ∈ plain, c ≠ '\\' ∧ c ≠ '[')
    (rest : List Char) : tags 0 (plain ++ rest) = tags 0 rest := by
  induction plain with
  | nil => rfl
  | cons c plain ih =>
    obtain ⟨⟨hslash, hopen⟩, hplain⟩ := List.forall_mem_cons.mp h
    rw [List.cons_append, tags, if_neg hslash, if_neg (by simp [hopen]), ih hplain]

/-- A text without backslashes whose last bracket closes keeps its tags in front of any other. -/
theorem tags_append_of_closed {front : List Char} (hlast : nextBracket? front.reverse = some ']')
    (hplain : front.all fun c => c ≠ '\\') (rest : List Char) :
    tags 0 (front ++ rest) = tags 0 front ++ tags 0 rest := by
  rw [nextBracket?, List.find?_eq_some_iff_append] at hlast
  obtain ⟨-, behind, before, hreverse, hbehind⟩ := hlast
  have hfront : front = before.reverse ++ ']' :: behind.reverse := by
    rw [← List.reverse_reverse front, hreverse]
    simp
  have hmore : ∀ c ∈ behind.reverse, c ≠ '\\' ∧ c ≠ '[' := by
    intro c hc
    have hslash := List.all_eq_true.mp hplain c (by rw [hfront]; simp [List.mem_reverse.mp hc])
    have hbracket := hbehind c (List.mem_reverse.mp hc)
    simp only [Bool.not_eq_true', Bool.or_eq_false_iff, decide_eq_false_iff_not] at hbracket
    exact ⟨of_decide_eq_true hslash, hbracket.1⟩
  have hnone : tags 0 behind.reverse = [] := by
    rw [← List.append_nil behind.reverse, tags_append_of_plain hmore, tags]
  have hkept : tags 0 front = tags 0 (before.reverse ++ [']']) := by
    rw [hfront, tags_append_of_bracket, hnone, List.append_nil]
  rw [hkept, hfront, List.append_assoc, List.cons_append, tags_append_of_bracket,
    tags_append_of_plain hmore]

/-- **An escaped text leaves the markup in front of it as it is.** -/
theorem isMarkup_append_escapeMarkup {heading : String}
    (hlast : nextBracket? heading.toList.reverse = some ']')
    (hplain : heading.toList.all fun c => c ≠ '\\') (styleName : String → String) (s : String) :
    isMarkup styleName (heading ++ escapeMarkup s) = isMarkup styleName heading := by
  rw [isMarkup, isMarkup, String.toList_append, tags_append_of_closed hlast hplain,
    tags_escapeMarkup, List.append_nil]

end TextAdventure.Text
