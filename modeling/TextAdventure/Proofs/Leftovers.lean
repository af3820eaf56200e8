import Mathlib.Data.List.DropRight
import TextAdventure.Proofs.Markup
import TextAdventure.Proofs.Sayable
import TextAdventure.Proofs.Turns

/-!
# What the trace shows of the words that are left

The trace has a row for every rule that was tried. Where a rule failed and left words behind, the
last cell of its row is to show them: the details of the failure, then a mark, then all the words.
Between the two stands a bar, and so that it does not stand there without details, spaces and bars
are trimmed off both ends of the line. This also takes from the player's words: a bar is no blank,
so that a word may end in one, and if it is the last word, its bars go with the others.

This file says that nothing else is lost. A cell is what a line comes to when it is escaped, so one
has to know first how much of the ends of a line can be seen in the cell: escaping keeps the last
character (`TextAdventure.Text.getLast?_escapeMarkup`), and the first one unless it is a bracket or
a backslash (`TextAdventure.Text.head?_escapeMarkup_iff`). With this, and because words have no
blanks, the line is whole if and only if no separator stands at its ends
(`TextAdventure.Screen.shows_iff`). The details that the library itself gives begin with a name, so
that of these lines only the end is in danger. The main statement,
`TextAdventure.Screen.shows_leftover_iff`, is this for the trace of any interpretation.
-/

namespace TextAdventure

namespace Text

/-! ### Trimming -/

variable {p : Char → Bool} {cs : List Char} {c : Char}

theorem dropEnds_eq_rdropWhile (p : Char → Bool) (cs : List Char) :
    dropEnds p cs = (cs.dropWhile p).rdropWhile p := rfl

/-- What is trimmed does not begin with what is trimmed off. -/
theorem of_head?_dropEnds (h : (dropEnds p cs).head? = some c) : p c = false := by
  rw [dropEnds_eq_rdropWhile] at h
  obtain ⟨rest, hrest⟩ := List.head?_eq_some_iff.mp h
  obtain ⟨back, hback⟩ := List.rdropWhile_prefix (p := p) (l := cs.dropWhile p)
  have hhead : (cs.dropWhile p).head? = some c := by rw [← hback, hrest]; rfl
  have hnot := List.head?_dropWhile_not p cs
  rwa [hhead] at hnot

/-- What is trimmed does not end in what is trimmed off. -/
theorem of_getLast?_dropEnds (h : (dropEnds p cs).getLast? = some c) : p c = false := by
  rw [dropEnds, List.getLast?_reverse] at h
  have hnot := List.head?_dropWhile_not p (cs.dropWhile p).reverse
  rwa [h] at hnot

/-- A text with nothing at its ends to trim off stays as it is. -/
theorem dropEnds_eq_self (hhead : ∀ c, cs.head? = some c → p c = false)
    (hlast : ∀ c, cs.getLast? = some c → p c = false) : dropEnds p cs = cs := by
  have hfront : ∀ ds : List Char, (∀ c, ds.head? = some c → p c = false) → ds.dropWhile p = ds := by
    intro ds hds
    cases ds with
    | nil => rfl
    | cons d ds => exact List.dropWhile_cons_of_neg (by simp [hds d rfl])
  rw [dropEnds, hfront cs hhead, hfront, List.reverse_reverse]
  rwa [List.head?_reverse]

/-- Characters that are trimmed off do not count in front of a text. -/
theorem dropEnds_append_left {before : List Char} (h : ∀ c ∈ before, p c) :
    dropEnds p (before ++ cs) = dropEnds p cs := by
  rw [dropEnds, List.dropWhile_append_of_pos h, ← dropEnds]

/-! ### Words joined by spaces -/

/-- Joined words end in the last of them. -/
theorem exists_spaced_concat (ws : List String) (w : String) :
    ∃ front, spaced (ws ++ [w]) = front ++ w := by
  induction ws with
  | nil => exact ⟨"", by simp [spaced, join]⟩
  | cons v ws ih =>
    obtain ⟨front, hfront⟩ := ih
    obtain ⟨u, us, hus⟩ : ∃ u us, ws ++ [w] = u :: us := List.exists_cons_of_ne_nil (by simp)
    have hjoin : spaced (v :: u :: us) = v ++ " " ++ spaced (u :: us) := rfl
    refine ⟨v ++ " " ++ front, ?_⟩
    rw [List.cons_append, hus, hjoin, ← hus, hfront]
    simp only [String.append_assoc]

end Text

/-! ### The line of a failure -/

namespace Screen

/-- **A text that shows what a failure left**: the line of its details, then, behind a mark, all the
words that were left. -/
def ShowsLeftover (cause : Failure) (words : List String) (text : String) : Prop :=
  ∃ between, text = detailLine cause.details ++ between ++ "left: " ++ Text.spaced words

/-- Whether a separator stands in front of a text. -/
def BeginsInSeparator (s : String) : Prop := ∃ c, s.toList.head? = some c ∧ isSeparator c

theorem isSeparator_iff {c : Char} : isSeparator c ↔ c = ' ' ∨ c = '|' := by
  simp [isSeparator]

variable {cause : Failure} {ws : List String} {w : String}

theorem failureLine_of_words :
    failureLine cause ((ws ++ [w]).map .text) = Text.trimWith isSeparator
      (detailLine cause.details ++ " | left: " ++ Text.spaced (ws ++ [w])) := by
  have hshown : ((ws ++ [w]).map Document.text).map Document.shown = ws ++ [w] := by
    rw [List.map_map]
    exact List.map_id _
  have hne : ((ws ++ [w]).map Document.text).isEmpty = false := by simp
  rw [failureLine, hne, if_neg Bool.false_ne_true, hshown]

/-- **When a line is whole.** Let words be left of which the last is not empty and has no blank. The
cell of the failure is the escape of a text that shows all of them and all the details if and only
if the last word does not end in a bar and no separator stands in front of the details. -/
theorem shows_iff (hw : w ≠ "") (hblank : ∀ c ∈ w.toList, ¬Text.isBlank c) :
    (∃ text, Text.escapeMarkup (failureLine cause ((ws ++ [w]).map .text)) =
          Text.escapeMarkup text ∧
        ShowsLeftover cause (ws ++ [w]) text) ↔
      w.toList.getLast? ≠ some '|' ∧ ¬BeginsInSeparator (detailLine cause.details) := by
  obtain ⟨front, hfront⟩ := Text.exists_spaced_concat ws w
  have hchars : w.toList ≠ [] := String.toList_eq_nil_iff.not.mpr hw
  -- whatever stands in front of the words, the line ends as the last of them does
  have hends (s : String) : (s ++ Text.spaced (ws ++ [w])).toList.getLast? = w.toList.getLast? := by
    rw [hfront, String.toList_append, String.toList_append,
      List.getLast?_append_of_ne_nil _ (by simp [hchars]), List.getLast?_append_of_ne_nil _ hchars]
  rw [failureLine_of_words, Text.trimWith]
  constructor
  · rintro ⟨text, hcell, between, rfl⟩
    constructor
    · intro hbar
      have hlast := congrArg (fun s => s.toList.getLast?) hcell
      simp only [Text.getLast?_escapeMarkup, String.toList_ofList, hends, hbar] at hlast
      exact absurd (Text.of_getLast?_dropEnds hlast) (by decide)
    · rintro ⟨c, hhead, hc⟩
      have hslash : c ≠ '\\' := by
        rintro rfl
        exact absurd hc (by decide)
      have hbracket : c ≠ '[' := by
        rintro rfl
        exact absurd hc (by decide)
      have hfirst := congrArg (fun s => s.toList.head? = some c) hcell
      simp only [Text.head?_escapeMarkup_iff hslash hbracket, String.toList_ofList,
        String.toList_append, List.head?_append, hhead, Option.some_or, eq_iff_iff,
        iff_true] at hfirst
      exact absurd hc (by simp [Text.of_head?_dropEnds hfirst])
  · rintro ⟨hbar, hclean⟩
    have hself (s : String) (hs : ¬BeginsInSeparator s) :
        Text.dropEnds isSeparator (s ++ "left: " ++ Text.spaced (ws ++ [w])).toList =
          (s ++ "left: " ++ Text.spaced (ws ++ [w])).toList := by
      refine Text.dropEnds_eq_self (fun c hc => ?_) fun c hc => ?_
      · cases hchars : s.toList with
        | nil =>
          rw [String.toList_append, String.toList_append, hchars] at hc
          obtain rfl := Option.some.inj hc
          rfl
        | cons d rest =>
          rw [String.toList_append, String.toList_append, hchars] at hc
          obtain rfl := Option.some.inj hc
          rw [← Bool.not_eq_true]
          exact fun hsep => hs ⟨d, by rw [hchars, List.head?_cons], hsep⟩
      · rw [hends] at hc
        rw [← Bool.not_eq_true, isSeparator_iff]
        rintro (rfl | rfl)
        · exact hblank ' ' (List.mem_of_getLast? hc) (by decide)
        · exact hbar hc
    have hmark : " | left: " = " | " ++ "left: " := rfl
    rw [hmark, ← String.append_assoc]
    by_cases hnone : detailLine cause.details = ""
    · -- the bar is trimmed off with the spaces around it
      have hempty : ¬BeginsInSeparator "" := by
        rintro ⟨c, hc, -⟩
        cases hc
      have hline :
          (detailLine cause.details ++ " | " ++ "left: " ++ Text.spaced (ws ++ [w])).toList =
            " | ".toList ++ ("" ++ "left: " ++ Text.spaced (ws ++ [w])).toList := by
        rw [hnone]
        simp only [String.toList_append, String.toList_empty, List.nil_append, List.append_assoc]
      have hseparators : ∀ c ∈ " | ".toList, isSeparator c := by simp [isSeparator]
      refine ⟨_, ?_, "", rfl⟩
      rw [hline, Text.dropEnds_append_left hseparators, hself "" hempty, String.ofList_toList,
        hnone]
      rfl
    · refine ⟨_, ?_, " | ", rfl⟩
      rw [hself, String.ofList_toList]
      rintro ⟨c, hhead, hc⟩
      refine hclean ⟨c, ?_, hc⟩
      rwa [String.toList_append,
        List.head?_append_of_ne_nil _ (String.toList_eq_nil_iff.not.mpr hnone)] at hhead

/-- A line of details begins with the first name. -/
theorem head?_detailLine_cons {name : String} (hname : name ≠ "") (d : Document) (rest : Details) :
    (detailLine ((name, d) :: rest)).toList.head? = name.toList.head? := by
  have hchars : name.toList ≠ [] := String.toList_eq_nil_iff.not.mpr hname
  have hfront (s : String) : (name ++ s).toList.head? = name.toList.head? := by
    rw [String.toList_append, List.head?_append_of_ne_nil _ hchars]
  cases rest with
  | nil =>
    have hline : detailLine [(name, d)] = name ++ ("=" ++ d.shown) := String.append_assoc ..
    rw [hline, hfront]
  | cons e rest =>
    have hline : detailLine ((name, d) :: e :: rest) =
        name ++ ("=" ++ d.shown ++ ", " ++ detailLine (e :: rest)) := by
      simp only [← String.append_assoc]
      rfl
    rw [hline, hfront]

/-- The names of details that the library gives itself are words. -/
theorem not_beginsInSeparator (cause : Failure)
    (h : ∀ symbol reason details, cause ≠ .refused symbol (.other reason details)) :
    ¬BeginsInSeparator (detailLine cause.details) := by
  rintro ⟨c, hhead, hc⟩
  have hnamed {name : String} {d : Document} {rest : Details}
      (hdetails : cause.details = (name, d) :: rest) (hname : name ≠ "") :
      name.toList.head? = some c := by
    rw [← hhead, hdetails, head?_detailLine_cons hname]
  cases cause with
  | literalMismatch expected got =>
    obtain rfl := Option.some.inj (hnamed rfl (by decide))
    exact absurd hc (by decide)
  | unregisteredSymbol symbol =>
    obtain rfl := Option.some.inj (hnamed rfl (by decide))
    exact absurd hc (by decide)
  | inputRemaining => cases hhead
  | refused symbol refusal =>
    cases refusal with
    | noReference words =>
      obtain rfl := Option.some.inj (hnamed rfl (by decide))
      exact absurd hc (by decide)
    | ambiguous candidates score =>
      obtain rfl := Option.some.inj (hnamed rfl (by decide))
      exact absurd hc (by decide)
    | unknownPhrase words known =>
      obtain rfl := Option.some.inj (hnamed rfl (by decide))
      exact absurd hc (by decide)
    | other reason details => exact h symbol reason details rfl

end Screen

/-! ### The words that are left -/

/-- What a failure leaves is an end of the input. -/
theorem Match.exists_leftover_eq_drop {resolves : String → Option Resolve} {input : List Document}
    {tokens : List Token} {place : Int} {cause : Failure} {leftover : List Document}
    (h : Match.tokens resolves input tokens place = .ok (.failed cause leftover)) :
    ∃ k, leftover = input.drop k := by
  induction tokens generalizing place with
  | nil =>
    rw [Match.tokens, atEnd] at h
    split at h
    · obtain ⟨-, rfl⟩ := Verdict.failed.inj (Except.ok.inj h)
      exact ⟨_, rfl⟩
    · cases h
  | cons token rest ih =>
    cases token with
    | literal word =>
      rw [Match.tokens] at h
      split at h
      · obtain ⟨-, rfl⟩ := Verdict.failed.inj (Except.ok.inj h)
        exact ⟨_, rfl⟩
      · split_ifs at h
        · exact ih h
        · obtain ⟨-, rfl⟩ := Verdict.failed.inj (Except.ok.inj h)
          exact ⟨_, rfl⟩
    | symbol name =>
      rw [Match.tokens] at h
      split at h
      · obtain ⟨-, rfl⟩ := Verdict.failed.inj (Except.ok.inj h)
        exact ⟨_, rfl⟩
      · split at h
        · cases h
        · obtain ⟨-, rfl⟩ := Verdict.failed.inj (Except.ok.inj h)
          exact ⟨_, rfl⟩
        · -- the symbol's value is put in front of the verdict on the rest
          split at h
          · cases h
          · rename_i verdict hverdict
            cases verdict with
            | matched params => cases h
            | failed cause' leftover' =>
              obtain ⟨rfl, rfl⟩ := Verdict.failed.inj (Except.ok.inj h)
              exact ih hverdict

/-- Words are only found in a command if the articles are texts. -/
theorem Command.exists_texts_of_normalize {command : Document} {articles : List Document}
    {ws : List String} (h : normalize command articles = .ok ws) :
    ∃ ts : List String, articles = ts.map .text := by
  rw [normalize] at h
  split at h
  · cases h
  · split at h
    · cases h
    · rename_i ts hts
      exact ⟨ts, Document.texts_eq_ok_iff.mp hts⟩

namespace Listener

variable {l : Listener} {world : Option World} {command : Document} {i : Interpretation}

/-- An interpretation comes from the words of its command and from a search for a rule. -/
theorem choose_of_interpret (h : l.interpret world command = .ok i) :
    Command.normalize command l.articles = .ok i.words ∧
      ∃ choice, l.choose world i.words = .ok (i.trace, choice) := by
  cases hwords : Command.normalize command l.articles with
  | error f =>
    rw [← logged_fst, logged_of_normalize_error hwords] at h
    cases h
  | ok ws =>
    cases hchoose : l.choose world ws with
    | error f =>
      rw [← logged_fst, logged_of_choose_error hwords hchoose] at h
      cases h
    | ok found =>
      obtain ⟨trace, choice⟩ := found
      rw [interpret, interpretWith_of_choose _ hwords hchoose] at h
      obtain ⟨conclusion, -, h⟩ := bind_eq_ok_iff.mp h
      obtain rfl := Except.ok.inj h
      exact ⟨rfl, choice, hchoose⟩

/-- **What is left in a trace** are words without blanks. -/
theorem leftover_of_mem_trace (h : l.interpret world command = .ok i) {a : Attempt}
    (ha : a ∈ i.trace)
    {cause : Failure} {leftover : List Document} (hverdict : a.verdict = .failed cause leftover) :
    ∃ ws : List String, leftover = ws.map .text ∧
      ∀ w ∈ ws, w ≠ "" ∧ ∀ c ∈ w.toList, ¬Text.isBlank c := by
  obtain ⟨hwords, choice, hchoose⟩ := choose_of_interpret h
  have htried := attempt_of_mem_trace hchoose a ha
  rw [tried, Rule.attempt] at htried
  split at htried
  · rename_i verdict hmatch
    have hfailed : verdict = .failed cause leftover :=
      (congrArg Attempt.verdict (Except.ok.inj htried)).trans hverdict
    rw [hfailed] at hmatch
    obtain ⟨k, rfl⟩ := Match.exists_leftover_eq_drop hmatch
    obtain ⟨articles, harticles⟩ := Command.exists_texts_of_normalize hwords
    rw [harticles] at hwords
    refine ⟨i.words.drop k, List.map_drop.symm, fun w hw => ?_⟩
    have hnormal := Command.isNormal_of_normalize hwords w (List.mem_of_mem_drop hw)
    exact ⟨hnormal.nonempty, hnormal.noBlank⟩
  · cases htried

end Listener

/-- **What the trace shows of the words that are left.** Let an attempt in the trace of an
interpretation have failed and left words. Its row ends with a cell, and the words that are left
have a last one. The cell is the escape of a text that shows the whole line of details and then,
behind a mark, all these words with single spaces between them if and only if the last word does not
end in a bar, and the details, if the failure is one that a game defines for itself, do not begin
with a separator. -/
theorem Screen.shows_leftover_iff {l : Listener} {world : Option World} {command : Document}
    {i : Interpretation} (h : l.interpret world command = .ok i) {n : ℕ} {a : Attempt}
    (ha : i.trace[n]? = some a) {cause : Failure} {leftover : List Document}
    (hverdict : a.verdict = .failed cause leftover) (hleft : leftover ≠ []) :
    ∃ pattern outcome cell ws w, (traceRows i)[n]? = some [pattern, outcome, cell] ∧
      leftover = (ws ++ [w]).map .text ∧
      ((∃ text, cell = Text.escapeMarkup text ∧ ShowsLeftover cause (ws ++ [w]) text) ↔
        w.toList.getLast? ≠ some '|' ∧
          ∀ symbol reason details, cause = .refused symbol (.other reason details) →
            ¬BeginsInSeparator (detailLine cause.details)) := by
  have hmem : a ∈ i.trace := List.mem_of_getElem? ha
  obtain ⟨words, rfl, hwords⟩ := Listener.leftover_of_mem_trace h hmem hverdict
  obtain ⟨ws, w, rfl⟩ := words.eq_nil_or_concat'.resolve_left (by simpa using hleft)
  obtain ⟨hw, hblank⟩ := hwords w (by simp)
  have htrace : i.trace.isEmpty = false := by
    rw [List.isEmpty_eq_false_iff_exists_mem]
    exact ⟨a, hmem⟩
  have hrow : (traceRows i)[n]? = some (attemptRow a) := by
    rw [traceRows, htrace, if_neg Bool.false_ne_true, List.getElem?_map, ha, Option.map_some]
  rw [attemptRow, hverdict] at hrow
  refine ⟨_, _, _, ws, w, hrow, rfl, ?_⟩
  rw [shows_iff hw hblank]
  refine and_congr_right fun _ => ⟨fun hclean _ _ _ _ => hclean, fun hown => ?_⟩
  by_cases hother : ∃ symbol reason details, cause = .refused symbol (.other reason details)
  · obtain ⟨symbol, reason, details, hcause⟩ := hother
    exact hown symbol reason details hcause
  · exact not_beginsInSeparator cause fun symbol reason details hcause =>
      hother ⟨symbol, reason, details, hcause⟩

namespace Hall

/-- A listener for the hall, where one can dance alone or with somebody. -/
def dancers : Listener where
  grammar := ⟨[⟨["dance"],
    [danceRule, ⟨"\"with\"", [.literal "with"], Action.dance, .text "dance"⟩]⟩], []⟩
  articles := Command.defaultArticles.map .text
  notUnderstood := .text Listener.defaultNotUnderstood

/-- What is made of a command that dances and goes on with some words. -/
def danceOn (command next : String) (more : List String) : Interpretation where
  command := .text command
  words := "dance" :: next :: more
  trace := [⟨danceRule, .failed .inputRemaining ((next :: more).map .text)⟩,
    ⟨⟨"\"with\"", [.literal "with"], Action.dance, .text "dance"⟩,
      .failed (.literalMismatch "with" (some (.text next))) ((next :: more).map .text)⟩]
  conclusion := .unmatched .noRuleMatched

end Hall

open Hall in
/-- A bar is shown as long as a word comes behind it, although one of the details is a bar too. -/
theorem Screen.shows_bar_before_word :
    dancers.interpret none (.text "Dance | wildly") =
        .ok (danceOn "Dance | wildly" "|" ["wildly"]) ∧
      ∃ pattern outcome cell, (traceRows (danceOn "Dance | wildly" "|" ["wildly"]))[1]? =
          some [pattern, outcome, cell] ∧
        ∃ text, cell = Text.escapeMarkup text ∧
          ShowsLeftover (.literalMismatch "with" (some (.text "|"))) ["|", "wildly"] text := by
  have hinterpret : dancers.interpret none (.text "Dance | wildly") =
      .ok (danceOn "Dance | wildly" "|" ["wildly"]) := rfl
  obtain ⟨pattern, outcome, cell, ws, w, hrow, hwords, hshows⟩ :=
    shows_leftover_iff hinterpret (n := 1) rfl rfl (by simp)
  have hsame : ["|"] ++ ["wildly"] = ws ++ [w] :=
    List.map_injective_iff.mpr (fun _ _ => Document.text.inj) hwords
  obtain ⟨rfl, hlast⟩ := List.append_inj' hsame rfl
  obtain rfl := List.singleton_inj.mp hlast
  exact ⟨hinterpret, pattern, outcome, cell, hrow,
    hshows.mpr ⟨by decide, fun _ _ _ hcause => Failure.noConfusion hcause⟩⟩

open Hall in
/-- If the last word is a bar, it is not shown: nothing stands behind the mark, and there is no text
with the bar behind the mark of which the cell would be the escape. -/
theorem Screen.bar_not_shown :
    dancers.interpret none (.text "dance |") = .ok (danceOn "dance |" "|" []) ∧
      (traceRows (danceOn "dance |" "|" []))[0]? =
        some ["\\[blank]", "[warning]input_remaining[/warning]", "left:"] ∧
      ¬∃ text, "left:" = Text.escapeMarkup text ∧ ShowsLeftover .inputRemaining ["|"] text := by
  refine ⟨rfl, by decide +kernel, ?_⟩
  have hcell :
      Text.escapeMarkup (failureLine .inputRemaining (([] ++ ["|"]).map .text)) = "left:" := by
    decide +kernel
  have hblank : ∀ c ∈ "|".toList, ¬Text.isBlank c := by
    intro c hc
    obtain rfl := List.mem_singleton.mp hc
    decide
  rw [← hcell]
  intro hshows
  exact ((shows_iff (by decide) hblank).mp hshows).1 rfl

end TextAdventure
