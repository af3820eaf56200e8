import Mathlib.Data.List.Basic
import TextAdventure.Proofs.NormalForm
import TextAdventure.Proofs.Scanning

/-!
# Words in quotes and words that are typed

What stands in quotes in a pattern is to be typed by a player, so both are cut into words. But the
quoted text is cut into runs of small letters, and the command at its blanks. In the first way a
digit, an apostrophe or an accented letter is lost and parts the letters around it; in the second it
belongs to a word. Such words are typed in vain.

Both cuts are made in the lower case of the text: quotes around it change nothing in it, because a
quote bars the view of a sigma as a blank does (`TextAdventure.Text.isBar_quote`). So the question
is when two classes of characters, one within the other, have the same runs in a text. Put together,
the runs of a class are the characters of the class (`TextAdventure.Text.flatten_runs`). Hence the
runs are the same only if the text has no character that belongs to the one class and not to the
other (`TextAdventure.Text.runs_eq_runs_iff`), and the main statement,
`TextAdventure.Pattern.literalsOf_compile_eq_normalize_iff`, is this for letters and words.
-/

namespace TextAdventure

namespace Text

/-! ### The runs of two classes -/

section Runs

variable {keep keep' : Char → Bool} {cs : List Char}

theorem flatten_close (openRun : List Char) (closed : List (List Char)) :
    (close openRun closed).flatten = openRun ++ closed.flatten := by
  rw [close]
  split_ifs with hempty
  · rw [List.isEmpty_iff.mp hempty, List.nil_append]
  · rw [List.flatten_cons]

/-- **The runs of a class, put together**, are the characters of the class. -/
theorem flatten_runs (keep : Char → Bool) (cs : List Char) :
    (runs keep cs).flatten = cs.filter keep := by
  rw [runs, flatten_close]
  induction cs with
  | nil => rfl
  | cons c cs ih =>
    rw [cut, List.filter_cons]
    split_ifs
    · rw [List.cons_append, ih]
    · rw [List.nil_append, flatten_close, ih]

/-- Only the characters of the text matter for the runs of a class. -/
theorem runs_congr (h : ∀ c ∈ cs, keep c = keep' c) : runs keep cs = runs keep' cs := by
  have hcut : cut keep cs = cut keep' cs := by
    induction cs with
    | nil => rfl
    | cons c cs ih =>
      obtain ⟨hc, hcs⟩ := List.forall_mem_cons.mp h
      rw [cut, cut, hc, ih hcs]
  rw [runs, runs, hcut]

/-- **A narrower class has the same runs** in a text if and only if the text has no characters of
the wider class but those of the narrower one. -/
theorem runs_eq_runs_iff (hwider : ∀ c, keep' c → keep c) :
    runs keep cs = runs keep' cs ↔ ∀ c ∈ cs, keep c → keep' c := by
  constructor
  · intro h c hc hkeep
    have hmem : c ∈ cs.filter keep := List.mem_filter.mpr ⟨hc, hkeep⟩
    rw [← flatten_runs, h, flatten_runs] at hmem
    exact (List.mem_filter.mp hmem).2
  · intro h
    exact runs_congr fun c hc => Bool.eq_iff_iff.mpr ⟨h c hc, hwider c⟩

end Runs

/-! ### Quotes and case -/

theorem isBar_quote : IsBar '"' :=
  ⟨by decide +kernel, by decide +kernel, by decide +kernel⟩

/-- Quotes around a text do not change its lower case. -/
theorem lowerChars_inQuotes (cs : List Char) :
    lowerChars ('"' :: (cs ++ ['"'])) = '"' :: (lowerChars cs ++ ['"']) := by
  have hopen := lowerChars_append_bar isBar_quote [] (cs ++ ['"'])
  rwa [List.nil_append, lowerChars_append_bar isBar_quote] at hopen

end Text

/-- Without articles, the words of a command are those of its lower case. -/
theorem Command.normalize_without_articles (s : String) :
    normalize (.text s) [] = .ok (Text.words (Text.lower s)) := by
  have hkept : ∀ w ∈ Text.words (Text.lower s), (!isArticle [] w) = true := fun w _ => rfl
  have hwords : normalize (.text s) (([] : List String).map .text) = .ok (wordsOf s []) :=
    normalize_text_of_texts s
  rwa [wordsOf_eq, ← Text.words_lower, List.filter_eq_self.mpr hkept] at hwords

namespace Pattern

variable {cs : List Char}

/-! ### Letters -/

theorem isSmallLetter_iff {c : Char} : isSmallLetter c ↔ 0x61 ≤ c.toNat ∧ c.toNat ≤ 0x7A := by
  rw [isSmallLetter, Bool.and_eq_true, decide_eq_true_iff, decide_eq_true_iff]
  exact Iff.rfl

/-- A letter is not a blank. -/
theorem isInk_of_isSmallLetter {c : Char} (h : isSmallLetter c) : Text.isInk c := by
  obtain ⟨hfirst, hlast⟩ := isSmallLetter_iff.mp h
  have hletters : Text.blankless [(0x61, 0x7A)] := by decide
  rw [Text.isInk_iff_not_isBlank, Text.isBlank_iff_mem_blanks]
  exact Text.not_mem_blanks_of_blankless hletters (List.mem_singleton_self _) hfirst hlast

/-- There are no letters of the alphabet among the capitals. -/
theorem capitals_avoid_letters : ∀ run ∈ Text.capitals, Text.apart run.span (0x61, 0x7A) := by
  decide +kernel

/-- A letter is its own lower case, whatever stands around it. -/
theorem isSmall_of_isSmallLetter {c : Char} (h : isSmallLetter c) : Text.IsSmall c := by
  obtain ⟨hfirst, hlast⟩ := isSmallLetter_iff.mp h
  have hdotted : c ≠ Text.dottedI := by
    rintro rfl
    exact absurd h (by decide)
  refine Text.isSmall_of_lowerIn?_eq_none hdotted (Text.lowerIn?_eq_none fun run hrun => ?_)
  refine Option.eq_none_iff_forall_ne_some.mpr fun m hm => ?_
  obtain ⟨⟨hfirst', hlast'⟩, -⟩ := Text.CaseRun.spans_of_lower? hm
  have hapart := capitals_avoid_letters run hrun
  simp only [Text.apart, Bool.or_eq_true, Nat.blt_eq] at hapart
  omega

/-! ### A text in quotes -/

/-- A text on one line and without quotes, in quotes, stands before anything. -/
theorem stands_inQuotes (hne : cs ≠ []) (hquote : '"' ∉ cs) (hline : '\n' ∉ cs) (rest : List Char) :
    (Part.quoted ('"' :: (cs ++ ['"']))).Stands rest := by
  refine ⟨⟨cs, hne, hline, rfl⟩, ?_⟩
  rintro span ⟨inside, -, -, rfl⟩ hpre
  by_contra! hshorter
  have hinside : inside ++ ['"'] <+: cs ++ '"' :: rest := by
    simpa using hpre
  -- a shorter span would end within the text
  have hwithin : inside ++ ['"'] <+: cs :=
    List.prefix_of_prefix_length_le hinside (List.prefix_append cs _) (by simp at hshorter ⊢; omega)
  exact hquote (hwithin.subset (by simp))

/-- The words of a text in quotes are the runs of small letters in its lower case. -/
theorem tokensOf_inQuotes (hne : cs ≠ []) (hquote : '"' ∉ cs) (hline : '\n' ∉ cs) :
    tokensOf ('"' :: (cs ++ ['"'])) =
      ((Text.runs isSmallLetter (Text.lowerChars cs)).map String.ofList).map .literal := by
  have hspan := (stands_inQuotes hne hquote hline []).1
  have hletter : isSmallLetter '"' = false := by decide
  rw [tokensOf, if_pos (isQuoted_of_isSpan hspan), literals, Text.lowerChars_inQuotes,
    Text.runs_cons_of_not_keep hletter, Text.runs_append_of_not_keep hletter, Text.runs_nil,
    List.append_nil]

theorem compile_inQuotes {s : String} (hne : s ≠ "") (hquote : '"' ∉ s.toList)
    (hline : '\n' ∉ s.toList) : compile ("\"" ++ s ++ "\"") =
      ((Text.runs isSmallLetter (Text.lowerChars s.toList)).map String.ofList).map .literal := by
  have hchars : s.toList ≠ [] := String.toList_eq_nil_iff.not.mpr hne
  have hsplit : ("\"" ++ s ++ "\"").toList =
      (Part.quoted ('"' :: (s.toList ++ ['"']))).chars ++ [] := by simp
  have hend : HasParts [] [] := .nil (by simp)
  have hparts := hend.piece_append (stands_inQuotes hchars hquote hline [])
  rw [← hsplit] at hparts
  rw [compile_eq_of_hasParts hparts, List.flatMap_singleton, Part.chars_quoted,
    tokensOf_inQuotes hchars hquote hline]

/-- The words of the literals among some tokens, in order. -/
def literalsOf : List Token → List String
  | [] => []
  | .literal word :: rest => word :: literalsOf rest
  | .symbol _ :: rest => literalsOf rest

theorem literalsOf_map_literal (ws : List String) : literalsOf (ws.map .literal) = ws := by
  induction ws with
  | nil => rfl
  | cons w ws ih => rw [List.map_cons, literalsOf, ih]

/-- **Quoted words are typed words** exactly if the text in quotes has nothing but blanks and
letters of the alphabet in its lower case: then the words of the literals are the words that are
left of the text as a command without articles. -/
theorem literalsOf_compile_eq_normalize_iff {s : String} (hne : s ≠ "") (hquote : '"' ∉ s.toList)
    (hline : '\n' ∉ s.toList) :
    Command.normalize (.text s) [] = .ok (literalsOf (compile ("\"" ++ s ++ "\""))) ↔
      ∀ c ∈ (Text.lower s).toList, Text.isBlank c ∨ isSmallLetter c := by
  have hclass : ∀ c, (Text.isInk c → isSmallLetter c) ↔ Text.isBlank c ∨ isSmallLetter c := by
    intro c
    rw [Text.isInk_iff_not_isBlank, or_iff_not_imp_left]
  rw [Command.normalize_without_articles, compile_inQuotes hne hquote hline, literalsOf_map_literal,
    Except.ok.injEq, Text.words, List.map_inj_right fun _ _ => String.ofList_inj.mp, Text.lower,
    String.toList_ofList, Text.runs_eq_runs_iff fun _ => isInk_of_isSmallLetter]
  exact forall₂_congr fun c _ => hclass c

/-- The words *key ring* are typed as they stand in quotes, be it with the Kelvin sign for the first
letter and a tab between them; *up2date* is not, since the pattern has it in two words. -/
theorem literalsOf_compile_key_ring :
    ("\u212AEY\tRing" ≠ "" ∧ '"' ∉ "\u212AEY\tRing".toList ∧ '\n' ∉ "\u212AEY\tRing".toList ∧
      Command.normalize (.text "\u212AEY\tRing") [] = .ok ["key", "ring"] ∧
      literalsOf (compile "\"\u212AEY\tRing\"") = ["key", "ring"]) ∧
    "up2date" ≠ "" ∧ '"' ∉ "up2date".toList ∧ '\n' ∉ "up2date".toList ∧
      Command.normalize (.text "up2date") [] ≠ .ok (literalsOf (compile "\"up2date\"")) := by
  have hne : "\u212AEY\tRing" ≠ "" := by decide
  have hquote : '"' ∉ "\u212AEY\tRing".toList := by decide
  have hline : '\n' ∉ "\u212AEY\tRing".toList := by decide
  have hall : (Text.lower "\u212AEY\tRing").toList.all
      fun c => Text.isBlank c || isSmallLetter c := by decide +kernel
  have hletters : ∀ c ∈ (Text.lower "\u212AEY\tRing").toList, Text.isBlank c ∨ isSmallLetter c :=
    fun c hc => Bool.or_eq_true_iff.mp (List.all_eq_true.mp hall c hc)
  have hwords : literalsOf (compile "\"\u212AEY\tRing\"") = ["key", "ring"] := by decide +kernel
  have hsame := (literalsOf_compile_eq_normalize_iff hne hquote hline).mpr hletters
  refine ⟨⟨hne, hquote, hline, hwords ▸ hsame, hwords⟩, by decide, by decide, by decide, ?_⟩
  intro hsame
  have hdigit := (literalsOf_compile_eq_normalize_iff (by decide) (by decide) (by decide)).mp hsame
  exact absurd (hdigit '2' (by decide +kernel)) (by decide)

end Pattern

end TextAdventure
