import TextAdventure.Proofs.WordByWord

/-!
# Words in normal form

To normalize a command is to bring its words into a form in which they stay: said again, as a list
or as one text, the words of a command are the words of a command, the same ones in the same order.
Two facts stand behind this.

* *Lower case is final.* No lower case in the table of capitals is itself a capital of the table,
  and the lower cases that are not in the table – the two small sigmas, and what becomes of the
  dotted capital I – are small characters, too. A small character keeps its form next to any others,
  so a text in lower case is its own lower case (`TextAdventure.Text.lower_lower`), and no context
  that a word loses or gains can matter.
* *Nothing is put together.* The words are those of a text, so they have no blanks, and spaces
  between them part them again. Leaving words out makes no new word, so it makes no new article.

Words that are not empty, have no blank, are in lower case and are no article in lower case are
called normal (`TextAdventure.Command.IsNormal`). They are exactly those that normalizing leaves as
they are (`TextAdventure.Command.wordsOf_spaced_eq_self_iff`), and it leaves nothing else
(`TextAdventure.Command.isNormal_of_mem_wordsOf`). The main statement is
`TextAdventure.Command.normalize_idempotent`.
-/

namespace TextAdventure.Text

/-! ### Small characters -/

/-- A character is *small* if it is its own lower case, whatever stands around it. -/
def IsSmall (c : Char) : Prop := c ≠ capitalSigma ∧ lowerChar c = [c]

instance (c : Char) : Decidable (IsSmall c) :=
  inferInstanceAs (Decidable (c ≠ capitalSigma ∧ lowerChar c = [c]))

/-- Whether no lower case that one run gives is a capital of another. Where the two overlap, lower
cases and capitals take turns. -/
def CaseRun.misses (run run' : CaseRun) : Bool :=
  apart run.lowerSpan run'.span ||
    ((run.step == 2 || run.first == run.last) && run'.step == 2 &&
      run.lower % 2 != run'.first % 2)

/-- No lower case in the table of capitals is a capital of the table. -/
theorem capitals_miss : capitals.all (fun run => capitals.all run.misses) = true := by
  decide +kernel

/-- No lower case in the table of capitals is the dotted capital I. -/
theorem capitals_avoid_dottedI : ∀ run ∈ capitals,
    run.lowerSpan.2 < dottedI.toNat ∨ dottedI.toNat < run.lowerSpan.1 := by
  decide +kernel

theorem CaseRun.lower?_eq_none_of_misses {run run' : CaseRun} {n m : ℕ} (h : run.misses run')
    (hm : run.lower? n = some m) : run'.lower? m = none := by
  obtain ⟨⟨hfirst, hlast, hstep⟩, rfl⟩ := lower?_eq_some_iff.mp hm
  rw [lower?, if_neg]
  rintro ⟨hfirst', hlast', hstep'⟩
  simp only [misses, apart, lowerSpan, span, Bool.or_eq_true, Bool.and_eq_true, Nat.blt_eq,
    beq_iff_eq, bne_iff_ne] at h
  -- the lower cases end before the capitals, or begin after them, or the two take turns
  rcases h with (h | h) | ⟨⟨htwo | hone, htwo'⟩, hparity⟩
  · omega
  · omega
  · rw [htwo] at hstep
    rw [htwo'] at hstep'
    omega
  · rw [htwo'] at hstep'
    omega

theorem lowerIn?_eq_none {n : ℕ} {table : List CaseRun} (h : ∀ run ∈ table, run.lower? n = none) :
    lowerIn? n table = none := by
  cases hlower : lowerIn? n table with
  | none => rfl
  | some m =>
    obtain ⟨run, hrun, hm⟩ := exists_run_of_lowerIn? hlower
    rw [h run hrun] at hm
    exact absurd hm.symm (Option.some_ne_none m)

theorem isSmall_smallSigma (before after : List Char) : IsSmall (smallSigma before after) := by
  rw [smallSigma]
  split_ifs <;> decide +kernel

/-- What has no lower case in the table is small, but for the dotted capital I, which has two
characters for one. The capital sigma is in the table. -/
theorem isSmall_of_lowerIn?_eq_none {c : Char} (hdotted : c ≠ dottedI)
    (h : lowerIn? c.toNat capitals = none) : IsSmall c := by
  refine ⟨?_, by rw [lowerChar, if_neg hdotted, h]⟩
  rintro rfl
  exact absurd h (by decide +kernel)

/-- The lower cases of the table are small. -/
theorem isSmall_of_lower? {run : CaseRun} (hrun : run ∈ capitals) {n : ℕ} {d : Char}
    (hd : run.lower? n = some d.toNat) : IsSmall d := by
  have hdotted : d ≠ dottedI := by
    rintro rfl
    have havoid := capitals_avoid_dottedI run hrun
    obtain ⟨-, hfirst, hlast⟩ := CaseRun.spans_of_lower? hd
    omega
  have hmisses : ∀ run' ∈ capitals, run.misses run' :=
    List.all_eq_true.mp (List.all_eq_true.mp capitals_miss run hrun)
  exact isSmall_of_lowerIn?_eq_none hdotted (lowerIn?_eq_none fun run' hrun' =>
    CaseRun.lower?_eq_none_of_misses (hmisses run' hrun') hd)

/-- **The lower case of a character is made of small ones.** -/
theorem isSmall_of_mem_lowerChar {c d : Char} (hd : d ∈ lowerChar c) : IsSmall d := by
  obtain ⟨-, rfl | rfl⟩ | ⟨hdotted, hnone, rfl⟩ | ⟨run, hrun, m, hm, rfl | rfl⟩ :=
    lowerChar_cases hd
  · decide +kernel
  · decide +kernel
  · exact isSmall_of_lowerIn?_eq_none hdotted hnone
  · exact isSmall_of_lower? hrun hm
  · decide +kernel

/-! ### Lower case is final -/

/-- Small characters are their own lower case, in whatever context. -/
theorem lowerAfter_eq_self {cs : List Char} (h : ∀ c ∈ cs, IsSmall c) (before : List Char) :
    lowerAfter before cs = cs := by
  induction cs generalizing before with
  | nil => rfl
  | cons c cs ih =>
    obtain ⟨⟨hsigma, hlower⟩, hcs⟩ := List.forall_mem_cons.mp h
    rw [lowerAfter, if_neg hsigma, hlower, ih hcs, List.singleton_append]

/-- **A text in lower case is its own lower case.** -/
theorem lower_lower (s : String) : lower (lower s) = lower s := by
  have hsmall : ∀ c ∈ lowerChars s.toList, IsSmall c :=
    forall_mem_lowerAfter isSmall_smallSigma fun _ _ _ hd => isSmall_of_mem_lowerChar hd
  rw [lower, lower, String.toList_ofList]
  exact congrArg String.ofList (lowerAfter_eq_self hsmall [])

/-- The words of a text in lower case are in lower case, too. -/
theorem lower_of_mem_words_lower {s w : String} (h : w ∈ words (lower s)) : lower w = w := by
  rw [words_lower] at h
  obtain ⟨u, -, rfl⟩ := List.mem_map.mp h
  exact lower_lower u

end TextAdventure.Text

namespace TextAdventure.Command

variable {articles : List String} {w : String} {ws : List String}

/-- **A word in normal form** for some articles. -/
structure IsNormal (articles : List String) (w : String) : Prop where
  nonempty : w ≠ ""
  /-- There is no white space in it. -/
  noBlank : ∀ c ∈ w.toList, ¬Text.isBlank c
  /-- It is its own lower case. -/
  lower : Text.lower w = w
  /-- It is no article in lower case. -/
  noArticle : ∀ article ∈ articles, Text.lower article ≠ w

/-- The words of a command are normal. -/
theorem isNormal_of_mem_wordsOf {s : String} (h : w ∈ wordsOf s articles) :
    IsNormal articles w := by
  rw [wordsOf] at h
  obtain ⟨hword, hkept⟩ := List.mem_filter.mp h
  obtain ⟨hne, hblank⟩ := Text.of_mem_words hword
  exact ⟨hne, hblank, Text.lower_of_mem_words_lower hword, not_isArticle_iff.mp hkept⟩

/-- A normal word, said on its own, is a command of this one word. -/
theorem IsNormal.wordsOf_eq (h : IsNormal articles w) : wordsOf w articles = [w] := by
  rw [Command.wordsOf_eq, Text.words_eq_singleton h.nonempty h.noBlank, List.map_singleton, h.lower]
  exact List.filter_eq_self.mpr fun u hu =>
    not_isArticle_iff.mpr (List.mem_singleton.mp hu ▸ h.noArticle)

/-- **Normal words** are those that are the words of a command again when they are said with spaces
between them. -/
theorem wordsOf_spaced_eq_self_iff :
    wordsOf (Text.spaced ws) articles = ws ↔ ∀ w ∈ ws, IsNormal articles w := by
  constructor
  · intro h w hw
    rw [← h] at hw
    exact isNormal_of_mem_wordsOf hw
  · intro h
    rw [wordsOf_spaced]
    exact Text.flatMap_eq_self fun w hw => (h w hw).wordsOf_eq

/-- **To normalize twice is to normalize once.** Let a command be a text or a list of texts, and the
articles be texts. Then the command has words, and they are normal: none of them is empty, has a
blank, changes in lower case or is an article in lower case. Said again, be it as a list or as one
text with spaces between them, they are a command with the same words. -/
theorem normalize_idempotent (articles : List String) (command : Document)
    (hcommand : (∃ s : String, command = .text s) ∨
      ∃ ss : List String, command = .list (ss.map .text)) :
    ∃ ws : List String, normalize command (articles.map .text) = .ok ws ∧
      normalize (.list (ws.map .text)) (articles.map .text) = .ok ws ∧
      normalize (.text (Text.spaced ws)) (articles.map .text) = .ok ws ∧
      ∀ w ∈ ws, IsNormal articles w := by
  obtain ⟨s, hwords⟩ : ∃ s, normalize command (articles.map .text) = .ok (wordsOf s articles) := by
    rcases hcommand with ⟨s, rfl⟩ | ⟨ss, rfl⟩
    · exact ⟨s, normalize_text_of_texts s⟩
    · exact ⟨Text.spaced ss, by rw [normalize_list, normalize_text_of_texts]⟩
  have hnormal : ∀ w ∈ wordsOf s articles, IsNormal articles w := fun w hw =>
    isNormal_of_mem_wordsOf hw
  refine ⟨wordsOf s articles, hwords, ?_, ?_, hnormal⟩
  · rw [normalize_list, normalize_text_of_texts, wordsOf_spaced_eq_self_iff.mpr hnormal]
  · rw [normalize_text_of_texts, wordsOf_spaced_eq_self_iff.mpr hnormal]

/-- A road in Greek, with its article, and a word that begins with the Kelvin sign and ends with a
dotted capital I. The final sigma stays final, and the dot above, a character of its own in lower
case, stays with its letter. -/
theorem normalize_road :
    ((∃ s : String, Document.list (["Ο ΔΡΟΜΟΣ", "\u212Aİ"].map .text) = .text s) ∨
      ∃ ss : List String,
        Document.list (["Ο ΔΡΟΜΟΣ", "\u212Aİ"].map .text) = .list (ss.map .text)) ∧
    normalize (.list (["Ο ΔΡΟΜΟΣ", "\u212Aİ"].map .text)) (["ο"].map .text) =
      .ok ["δρομος", "ki\u0307"] ∧
    normalize (.list (["δρομος", "ki\u0307"].map .text)) (["ο"].map .text) =
      .ok ["δρομος", "ki\u0307"] ∧
    normalize (.text "δρομος ki\u0307") (["ο"].map .text) = .ok ["δρομος", "ki\u0307"] ∧
    ∀ w ∈ ["δρομος", "ki\u0307"], IsNormal ["ο"] w := by
  have hcommand : (∃ s : String, Document.list (["Ο ΔΡΟΜΟΣ", "\u212Aİ"].map .text) = .text s) ∨
      ∃ ss : List String,
        Document.list (["Ο ΔΡΟΜΟΣ", "\u212Aİ"].map .text) = .list (ss.map .text) :=
    .inr ⟨_, rfl⟩
  obtain ⟨ws, hws, hlist, htext, hnormal⟩ := normalize_idempotent ["ο"] _ hcommand
  obtain rfl : ["δρομος", "ki\u0307"] = ws := Except.ok.inj hws
  exact ⟨hcommand, hws, hlist, htext, hnormal⟩

end TextAdventure.Command
