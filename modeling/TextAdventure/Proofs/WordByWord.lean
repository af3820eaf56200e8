import Mathlib.Data.List.Basic
import Mathlib.Data.List.TakeWhile
import TextAdventure.Command

/-!
# Lower case word by word

A command is put in lower case as a whole and cut into words afterwards, whereas the words of an
object are made from its name alone. Both come to the same because a blank separates the words for
every purpose: it ends a run of characters (`TextAdventure.Text.runs_append_of_not_keep`), and since
it is neither a cased letter nor passed over when the neighbour of a sigma is looked for, no letter
behind it can see one before it (`TextAdventure.Text.lowerChars_append_bar`).

So the words of a text in lower case are its words, each in lower case
(`TextAdventure.Text.words_lower`), and the words of a command are those of its parts
(`TextAdventure.Command.normalize_word_by_word`). Facts about the tables of characters are needed in
one place only, where it is checked that lower case makes no blank and takes none away.
-/

namespace TextAdventure.Text

variable {c b : Char} {cs ds : List Char}

/-! ### Blanks and case -/

/-- The code points of the blanks. -/
def blanks : List ℕ :=
  [0x09, 0x0A, 0x0B, 0x0C, 0x0D, 0x1C, 0x1D, 0x1E, 0x1F, 0x20, 0x85, 0xA0, 0x1680, 0x2000, 0x2001,
    0x2002, 0x2003, 0x2004, 0x2005, 0x2006, 0x2007, 0x2008, 0x2009, 0x200A, 0x2028, 0x2029, 0x202F,
    0x205F, 0x3000]

/-- The same code points, range by range. -/
def blankRanges : List (ℕ × ℕ) :=
  [(0x09, 0x0D), (0x1C, 0x20), (0x85, 0x85), (0xA0, 0xA0), (0x1680, 0x1680), (0x2000, 0x200A),
    (0x2028, 0x2028), (0x2029, 0x2029), (0x202F, 0x202F), (0x205F, 0x205F), (0x3000, 0x3000)]

theorem mem_blanks_iff {n : ℕ} : n ∈ blanks ↔ ∃ r ∈ blankRanges, r.1 ≤ n ∧ n ≤ r.2 := by
  have hblanks : blanks = blankRanges.flatMap fun r => List.range' r.1 (r.2 + 1 - r.1) := rfl
  rw [hblanks, List.mem_flatMap]
  refine exists_congr fun r => and_congr_right fun _ => ?_
  rw [List.mem_range'_1]
  omega

theorem isBlank_iff_mem_blanks : isBlank c ↔ c.toNat ∈ blanks := by
  have heq : ∀ n m : ℕ, n = m ↔ m ≤ n ∧ n ≤ m := fun n m => by omega
  rw [mem_blanks_iff, isBlank]
  simp only [blankRanges, Bool.or_eq_true, Bool.and_eq_true, decide_eq_true_eq, beq_iff_eq, heq,
    List.exists_mem_cons_iff, List.not_mem_nil, false_and, exists_false, or_false, or_assoc]

theorem isInk_iff_not_isBlank : isInk c ↔ ¬isBlank c := by
  rw [isInk, Bool.not_eq_true']
  exact Bool.not_eq_true _ ▸ Iff.rfl

theorem isInk_eq_false (h : isBlank b) : isInk b = false := by
  rw [isInk, h, Bool.not_true]

/-- Whether two ranges have nothing in common. -/
def apart (r r' : ℕ × ℕ) : Bool := Nat.blt r.2 r'.1 || Nat.blt r'.2 r.1

/-- Whether there are no blanks in the ranges of a table. -/
def blankless (table : List (ℕ × ℕ)) : Bool := table.all fun r => blankRanges.all (apart r)

theorem not_mem_blanks_of_blankless {table : List (ℕ × ℕ)} (h : blankless table) {r : ℕ × ℕ}
    (hr : r ∈ table) {n : ℕ} (hfirst : r.1 ≤ n) (hlast : n ≤ r.2) : n ∉ blanks := by
  intro hn
  obtain ⟨r', hr', hfirst', hlast'⟩ := mem_blanks_iff.mp hn
  have hapart := List.all_eq_true.mp (List.all_eq_true.mp h r hr) r' hr'
  simp only [apart, Bool.or_eq_true, Nat.blt_eq] at hapart
  omega

/-- A code point that is found in a table lies in one of its ranges. -/
theorem exists_range_of_inRanges {n : ℕ} {table : List (ℕ × ℕ)} (h : inRanges n table) :
    ∃ r ∈ table, r.1 ≤ n ∧ n ≤ r.2 := by
  induction table with
  | nil => simp [inRanges] at h
  | cons r rest ih =>
    rw [inRanges] at h
    split_ifs at h with hbefore hin
    · exact ⟨r, List.mem_cons_self .., by omega, hin⟩
    · obtain ⟨r', hmem, hrange⟩ := ih h
      exact ⟨r', List.mem_cons_of_mem _ hmem, hrange⟩

theorem inRanges_eq_false {n : ℕ} (hn : n ∈ blanks) {table : List (ℕ × ℕ)} (h : blankless table) :
    inRanges n table = false := by
  rw [Bool.eq_false_iff]
  intro hin
  obtain ⟨r, hr, hfirst, hlast⟩ := exists_range_of_inRanges hin
  exact not_mem_blanks_of_blankless h hr hfirst hlast hn

/-- A lower case by a table is one by some run of the table. -/
theorem exists_run_of_lowerIn? {n m : ℕ} {table : List CaseRun} (h : lowerIn? n table = some m) :
    ∃ run ∈ table, run.lower? n = some m := by
  induction table with
  | nil => simp [lowerIn?] at h
  | cons run rest ih =>
    rw [lowerIn?] at h
    split_ifs at h
    cases hrun : run.lower? n with
    | none =>
      rw [hrun] at h
      obtain ⟨run', hmem, hlower⟩ := ih h
      exact ⟨run', List.mem_cons_of_mem _ hmem, hlower⟩
    | some m' =>
      rw [hrun] at h
      obtain rfl := Option.some.inj h
      exact ⟨run, List.mem_cons_self .., hrun⟩

/-- The lower case that a run gives to one of its capitals. -/
theorem CaseRun.lower?_eq_some_iff {run : CaseRun} {n m : ℕ} :
    run.lower? n = some m ↔ (run.first ≤ n ∧ n ≤ run.last ∧ (n - run.first) % run.step = 0) ∧
      run.lower + (n - run.first) = m := by
  rw [lower?]
  split_ifs with hin
  · simp [hin]
  · simp [hin]

/-- The range of a run from its first capital to its last one. -/
def CaseRun.span (run : CaseRun) : ℕ × ℕ := (run.first, run.last)

/-- The range of the lower cases of a run. -/
def CaseRun.lowerSpan (run : CaseRun) : ℕ × ℕ := (run.lower, run.lower + (run.last - run.first))

theorem CaseRun.spans_of_lower? {run : CaseRun} {n m : ℕ} (h : run.lower? n = some m) :
    (run.span.1 ≤ n ∧ n ≤ run.span.2) ∧ run.lowerSpan.1 ≤ m ∧ m ≤ run.lowerSpan.2 := by
  obtain ⟨⟨hfirst, hlast, -⟩, hsum⟩ := lower?_eq_some_iff.mp h
  simp only [span, lowerSpan]
  omega

/-- There are no blanks in any of the tables, be it among the capitals or among their lower
cases. -/
theorem blankless_tables : blankless casedRanges ∧ blankless ignorableRanges ∧
    blankless (capitals.map CaseRun.span) ∧ blankless (capitals.map CaseRun.lowerSpan) := by
  decide +kernel

/-- No blank has a case, none is passed over by a sigma, and none has a lower case of its own. -/
theorem caseless_of_mem_blanks : ∀ n ∈ blanks, inRanges n casedRanges = false ∧
    inRanges n ignorableRanges = false ∧ lowerIn? n capitals = none := by
  intro n hn
  obtain ⟨hcased, hignorable, hspans, -⟩ := blankless_tables
  refine ⟨inRanges_eq_false hn hcased, inRanges_eq_false hn hignorable,
    Option.eq_none_iff_forall_ne_some.mpr fun m hm => ?_⟩
  obtain ⟨run, hrun, hlower⟩ := exists_run_of_lowerIn? hm
  obtain ⟨⟨hfirst, hlast⟩, -⟩ := CaseRun.spans_of_lower? hlower
  exact not_mem_blanks_of_blankless hspans (List.mem_map_of_mem hrun) hfirst hlast hn

theorem isCased_of_isBlank (h : isBlank b) : isCased b = false :=
  (caseless_of_mem_blanks _ (isBlank_iff_mem_blanks.mp h)).1

theorem isCaseIgnorable_of_isBlank (h : isBlank b) : isCaseIgnorable b = false :=
  (caseless_of_mem_blanks _ (isBlank_iff_mem_blanks.mp h)).2.1

/-- A blank is its own lower case. -/
theorem lowerChar_of_isBlank (h : isBlank b) : lowerChar b = [b] := by
  have hdotted : b ≠ dottedI := by
    rintro rfl
    exact absurd h (by decide)
  rw [lowerChar, if_neg hdotted, (caseless_of_mem_blanks _ (isBlank_iff_mem_blanks.mp h)).2.2]

/-- A number made into a character is still that number, unless there is no such character. -/
theorem toNat_ofNat_or (n : ℕ) : (Char.ofNat n).toNat = n ∨ Char.ofNat n = '\x00' := by
  rw [Char.ofNat]
  by_cases hvalid : n.isValidChar
  · rw [dif_pos hvalid]
    exact Or.inl rfl
  · rw [dif_neg hvalid]
    exact Or.inr rfl

/-- **What a lower case is made of**: the two characters for the dotted capital I, a character that
has no lower case, or what a run gives. -/
theorem lowerChar_cases {d : Char} (hd : d ∈ lowerChar c) :
    (c = dottedI ∧ (d = 'i' ∨ d = '\u0307')) ∨
      (c ≠ dottedI ∧ lowerIn? c.toNat capitals = none ∧ d = c) ∨
      ∃ run ∈ capitals, ∃ m, run.lower? c.toNat = some m ∧ (d.toNat = m ∨ d = '\x00') := by
  rw [lowerChar] at hd
  split_ifs at hd with hdotted
  · exact Or.inl ⟨hdotted, by simpa using hd⟩
  refine Or.inr ?_
  cases hlower : lowerIn? c.toNat capitals with
  | none =>
    rw [hlower] at hd
    exact Or.inl ⟨hdotted, rfl, List.mem_singleton.mp hd⟩
  | some m =>
    rw [hlower] at hd
    obtain rfl := List.mem_singleton.mp hd
    obtain ⟨run, hrun, hm⟩ := exists_run_of_lowerIn? hlower
    exact Or.inr ⟨run, hrun, m, hm, toNat_ofNat_or m⟩

/-- No character other than a blank has a blank in its lower case. -/
theorem isInk_of_mem_lowerChar (h : isInk c) {d : Char} (hd : d ∈ lowerChar c) : isInk d := by
  obtain ⟨-, rfl | rfl⟩ | ⟨-, -, rfl⟩ | ⟨run, hrun, m, hm, hnat | rfl⟩ := lowerChar_cases hd
  · decide
  · decide
  · exact h
  · obtain ⟨-, hfirst, hlast⟩ := CaseRun.spans_of_lower? hm
    rw [isInk_iff_not_isBlank, isBlank_iff_mem_blanks, hnat]
    exact not_mem_blanks_of_blankless blankless_tables.2.2.2 (List.mem_map_of_mem hrun) hfirst hlast
  · decide

theorem lowerChar_ne_nil (c : Char) : lowerChar c ≠ [] := by
  rw [lowerChar]
  split_ifs
  · simp
  · split <;> simp

theorem isInk_smallSigma (before after : List Char) : isInk (smallSigma before after) := by
  rw [smallSigma]
  split_ifs <;> decide

/-! ### Runs -/

section Runs

variable {keep : Char → Bool}

theorem close_append (openRun : List Char) (closed more : List (List Char)) :
    close openRun (closed ++ more) = close openRun closed ++ more := by
  rw [close, close]
  split_ifs <;> rfl

theorem cut_append_of_not_keep (h : keep b = false) (cs ds : List Char) :
    cut keep (cs ++ b :: ds) = ((cut keep cs).1, (cut keep cs).2 ++ runs keep ds) := by
  induction cs with
  | nil => simp [cut, h, runs]
  | cons c cs ih =>
    rw [List.cons_append, cut, cut, ih]
    split_ifs
    · rfl
    · rw [close_append]

/-- **A character outside the class parts the runs** of what is before it from those behind. -/
theorem runs_append_of_not_keep (h : keep b = false) (cs ds : List Char) :
    runs keep (cs ++ b :: ds) = runs keep cs ++ runs keep ds := by
  rw [runs, cut_append_of_not_keep h, close_append, ← runs]

/-- A text whose characters all belong to the class is a single run, unless it is empty. -/
theorem runs_of_forall_keep (h : ∀ c ∈ cs, keep c) : runs keep cs = close cs [] := by
  have hcut : cut keep cs = (cs, []) := by
    induction cs with
    | nil => rfl
    | cons c cs ih =>
      obtain ⟨hc, hcs⟩ := List.forall_mem_cons.mp h
      rw [cut, if_pos hc, ih hcs]
  rw [runs, hcut]

/-- Closing a run of characters of the class, if it is not empty, gives one more such run. -/
theorem of_mem_close {openRun : List Char} {closed : List (List Char)}
    (hopen : ∀ c ∈ openRun, keep c) (hclosed : ∀ run ∈ closed, run ≠ [] ∧ ∀ c ∈ run, keep c) :
    ∀ run ∈ close openRun closed, run ≠ [] ∧ ∀ c ∈ run, keep c := by
  intro run hrun
  rw [close] at hrun
  split_ifs at hrun with hempty
  · exact hclosed run hrun
  · rcases List.mem_cons.mp hrun with rfl | hrun
    · exact ⟨fun hnil => hempty (List.isEmpty_iff.mpr hnil), hopen⟩
    · exact hclosed run hrun

theorem of_mem_cut (cs : List Char) : (∀ c ∈ (cut keep cs).1, keep c) ∧
    ∀ run ∈ (cut keep cs).2, run ≠ [] ∧ ∀ c ∈ run, keep c := by
  induction cs with
  | nil => simp [cut]
  | cons c cs ih =>
    obtain ⟨hopen, hclosed⟩ := ih
    rw [cut]
    split_ifs with hc
    · exact ⟨List.forall_mem_cons.mpr ⟨hc, hopen⟩, hclosed⟩
    · exact ⟨by simp, of_mem_close hopen hclosed⟩

/-- A run is not empty, and all its characters belong to the class. -/
theorem of_mem_runs {run : List Char} (h : run ∈ runs keep cs) : run ≠ [] ∧ ∀ c ∈ run, keep c :=
  of_mem_close (of_mem_cut cs).1 (of_mem_cut cs).2 run h

/-- Characters outside the class at the end of a text change nothing in its runs. -/
theorem runs_append_of_forall_not_keep (h : ∀ c ∈ ds, keep c = false) :
    runs keep (cs ++ ds) = runs keep cs := by
  induction ds generalizing cs with
  | nil => rw [List.append_nil]
  | cons d ds ih =>
    obtain ⟨hd, hds⟩ := List.forall_mem_cons.mp h
    have hrest : runs keep ([] ++ ds) = runs keep [] := ih hds
    rw [List.nil_append, runs_nil] at hrest
    rw [runs_append_of_not_keep hd, hrest, List.append_nil]

/-- Characters outside the class in front of a text change nothing in its runs. -/
theorem runs_append_left_of_forall_not_keep (h : ∀ c ∈ cs, keep c = false) :
    runs keep (cs ++ ds) = runs keep ds := by
  induction cs with
  | nil => rfl
  | cons c cs ih =>
    obtain ⟨hc, hcs⟩ := List.forall_mem_cons.mp h
    rw [List.cons_append, runs_cons_of_not_keep hc, ih hcs]

end Runs

/-- **Induction along the blanks** of a text: what holds of all texts without blanks, and of a text
with a blank in it if it holds of what is on either side, holds of all texts. -/
theorem blankInduction {motive : List Char → Prop}
    (ink : ∀ cs, (∀ c ∈ cs, isInk c) → motive cs)
    (blank : ∀ cs b ds, isBlank b → motive cs → motive ds → motive (cs ++ b :: ds))
    (cs : List Char) : motive cs := by
  induction hn : cs.length using Nat.strongRecOn generalizing cs with
  | ind n ih =>
    by_cases h : ∃ b ∈ cs, isBlank b
    · obtain ⟨b, hmem, hb⟩ := h
      obtain ⟨before, after, rfl⟩ := List.append_of_mem hmem
      rw [List.length_append, List.length_cons] at hn
      exact blank before b after hb (ih _ (by omega) before rfl) (ih _ (by omega) after rfl)
    · exact ink cs fun c hc => isInk_iff_not_isBlank.mpr fun hb => h ⟨c, hc, hb⟩

/-! ### Lower case across a bar -/

/-- A character that *bars the view* of a sigma: it is neither a cased letter nor passed over, and
it stays what it is in lower case. -/
structure IsBar (b : Char) : Prop where
  uncased : isCased b = false
  notIgnorable : isCaseIgnorable b = false
  lowerChar_eq : lowerChar b = [b]

theorem isBar_of_isBlank (h : isBlank b) : IsBar b :=
  ⟨isCased_of_isBlank h, isCaseIgnorable_of_isBlank h, lowerChar_of_isBlank h⟩

theorem IsBar.ne_capitalSigma (h : IsBar b) : b ≠ capitalSigma := by
  rintro rfl
  exact absurd h.uncased (by decide)

/-- Nobody sees a cased letter behind a bar. -/
theorem meetsCased_append_bar (hb : IsBar b) (cs ds : List Char) :
    meetsCased (cs ++ b :: ds) = meetsCased cs := by
  rw [meetsCased, meetsCased, List.dropWhile_append]
  cases hcs : cs.dropWhile isCaseIgnorable with
  | nil => simp [hb.notIgnorable, hb.uncased]
  | cons c rest => simp

/-- What stands before a bar does not matter for the lower case of what follows it. -/
theorem lowerAfter_append_bar (hb : IsBar b) (before more cs : List Char) :
    lowerAfter (before ++ b :: more) cs = lowerAfter before cs := by
  induction cs generalizing before with
  | nil => rfl
  | cons c cs ih =>
    rw [lowerAfter, lowerAfter, smallSigma, smallSigma, meetsCased_append_bar hb]
    exact congrArg _ (ih (c :: before))

/-- **Lower case across a bar**: the text before it and the text behind it are put in lower case
each on its own. -/
theorem lowerChars_append_bar (hb : IsBar b) (cs ds : List Char) :
    lowerChars (cs ++ b :: ds) = lowerChars cs ++ b :: lowerChars ds := by
  have hafter : ∀ before, lowerAfter before (cs ++ b :: ds) =
      lowerAfter before cs ++ b :: lowerChars ds := by
    induction cs with
    | nil =>
      intro before
      have hbehind : lowerAfter (b :: before) ds = lowerChars ds :=
        lowerAfter_append_bar hb [] before ds
      rw [List.nil_append, lowerAfter.eq_2, if_neg hb.ne_capitalSigma, hb.lowerChar_eq, hbehind]
      rfl
    | cons c cs ih =>
      intro before
      rw [List.cons_append, lowerAfter, lowerAfter, ih, smallSigma, smallSigma,
        meetsCased_append_bar hb, List.append_assoc]
  exact hafter []

/-- What holds of both small sigmas, and of the lower case of every character of a text, holds of
all characters of the text in lower case. -/
theorem forall_mem_lowerAfter {P : Char → Prop} {before : List Char}
    (hsigma : ∀ before after, P (smallSigma before after))
    (hchar : ∀ c ∈ cs, ∀ d ∈ lowerChar c, P d) : ∀ d ∈ lowerAfter before cs, P d := by
  induction cs generalizing before with
  | nil => simp [lowerAfter]
  | cons c cs ih =>
    obtain ⟨hc, hcs⟩ := List.forall_mem_cons.mp hchar
    intro d hd
    rw [lowerAfter] at hd
    rcases List.mem_append.mp hd with hd | hd
    · split_ifs at hd
      · exact List.mem_singleton.mp hd ▸ hsigma _ _
      · exact hc d hd
    · exact ih hcs d hd

theorem lowerChars_eq_nil_iff : lowerChars cs = [] ↔ cs = [] := by
  cases cs with
  | nil => exact iff_of_true rfl rfl
  | cons c cs =>
    rw [lowerChars, lowerAfter]
    split_ifs
    · simp
    · simp [lowerChar_ne_nil]

/-- The runs of a text in lower case are those of the text, each in lower case. -/
theorem runs_lowerChars (cs : List Char) :
    runs isInk (lowerChars cs) = (runs isInk cs).map lowerChars := by
  induction cs using blankInduction with
  | ink cs h =>
    have hlower : ∀ d ∈ lowerChars cs, isInk d :=
      forall_mem_lowerAfter isInk_smallSigma fun c hc _ hd => isInk_of_mem_lowerChar (h c hc) hd
    rw [runs_of_forall_keep h, runs_of_forall_keep hlower, close, close]
    cases cs with
    | nil => rfl
    | cons c cs =>
      have hne : lowerChars (c :: cs) ≠ [] := lowerChars_eq_nil_iff.not.mpr (by simp)
      simp [List.isEmpty_iff, hne]
  | blank cs b ds hb ihcs ihds =>
    have hink := isInk_eq_false hb
    rw [lowerChars_append_bar (isBar_of_isBlank hb), runs_append_of_not_keep hink,
      runs_append_of_not_keep hink, List.map_append, ihcs, ihds]

/-! ### Words -/

/-- **The words of a text in lower case** are its words, each in lower case. -/
theorem words_lower (s : String) : words (lower s) = (words s).map lower := by
  rw [words, words, lower, String.toList_ofList, runs_lowerChars, List.map_map, List.map_map]
  refine List.map_congr_left fun cs _ => ?_
  rw [Function.comp_apply, Function.comp_apply, lower, String.toList_ofList]

/-- Blanks at the front of a text change nothing in its runs. -/
theorem runs_dropWhile_isBlank (cs : List Char) :
    runs isInk (cs.dropWhile isBlank) = runs isInk cs := by
  have hblank : ∀ c ∈ cs.takeWhile isBlank, isInk c = false := fun c hc =>
    isInk_eq_false (List.mem_takeWhile_imp hc)
  calc runs isInk (cs.dropWhile isBlank)
      = runs isInk (cs.takeWhile isBlank ++ cs.dropWhile isBlank) :=
        (runs_append_left_of_forall_not_keep hblank).symm
    _ = runs isInk cs := by rw [List.takeWhile_append_dropWhile]

/-- Blanks at the end of a text change nothing in its runs. -/
theorem runs_reverse_dropWhile_isBlank (cs : List Char) :
    runs isInk (cs.reverse.dropWhile isBlank).reverse = runs isInk cs := by
  have hblank : ∀ c ∈ (cs.reverse.takeWhile isBlank).reverse, isInk c = false := fun c hc =>
    isInk_eq_false (List.mem_takeWhile_imp (List.mem_reverse.mp hc))
  calc runs isInk (cs.reverse.dropWhile isBlank).reverse
      = runs isInk ((cs.reverse.dropWhile isBlank).reverse ++
          (cs.reverse.takeWhile isBlank).reverse) := (runs_append_of_forall_not_keep hblank).symm
    _ = runs isInk cs := by
      rw [← List.reverse_append, List.takeWhile_append_dropWhile, List.reverse_reverse]

/-- Trimming a text takes none of its words away. -/
theorem words_trim (s : String) : words (trim s) = words s := by
  rw [words, words, trim, trimWith, String.toList_ofList, dropEnds, runs_reverse_dropWhile_isBlank,
    runs_dropWhile_isBlank]

/-- **The words of two texts with blanks between them** are those of the first and then those of
the second. -/
theorem words_append_blanks {white : String} (hne : white ≠ "")
    (hblank : ∀ c ∈ white.toList, isBlank c)
    (s t : String) : words (s ++ white ++ t) = words s ++ words t := by
  obtain ⟨b, bs, hwhite⟩ := List.exists_cons_of_ne_nil (String.toList_eq_nil_iff.not.mpr hne)
  rw [hwhite] at hblank
  obtain ⟨hb, hbs⟩ := List.forall_mem_cons.mp hblank
  rw [words, String.toList_append, String.toList_append, hwhite, List.append_assoc,
    List.cons_append, runs_append_of_not_keep (isInk_eq_false hb),
    runs_append_left_of_forall_not_keep fun c hc => isInk_eq_false (hbs c hc), List.map_append]
  rfl

theorem isBlank_of_mem_space : ∀ c ∈ " ".toList, isBlank c :=
  List.all_eq_true.mp (by decide)

/-- The words of two texts with a space between them. -/
theorem words_append_space (s t : String) : words (s ++ " " ++ t) = words s ++ words t :=
  words_append_blanks (by decide) isBlank_of_mem_space s t

/-- The words of texts joined by spaces. -/
theorem words_spaced (ss : List String) : words (spaced ss) = ss.flatMap words := by
  induction ss with
  | nil => rfl
  | cons s ss ih =>
    cases ss with
    | nil => simp [spaced, join]
    | cons t rest =>
      have hjoin : spaced (s :: t :: rest) = s ++ " " ++ spaced (t :: rest) := rfl
      rw [hjoin, words_append_space, ih, List.flatMap_cons (x := s)]

/-- A word of a text is not empty and has no blank. -/
theorem of_mem_words {s w : String} (h : w ∈ words s) :
    w ≠ "" ∧ ∀ c ∈ w.toList, ¬isBlank c := by
  obtain ⟨run, hrun, rfl⟩ := List.mem_map.mp h
  obtain ⟨hne, hink⟩ := of_mem_runs hrun
  rw [Ne, ← String.toList_eq_nil_iff, String.toList_ofList]
  exact ⟨hne, fun c hc => isInk_iff_not_isBlank.mp (hink c hc)⟩

/-- A text that is not empty and has no blank is its own only word. -/
theorem words_eq_singleton {w : String} (hne : w ≠ "") (hink : ∀ c ∈ w.toList, ¬isBlank c) :
    words w = [w] := by
  have hchars : w.toList ≠ [] := String.toList_eq_nil_iff.not.mpr hne
  rw [words, runs_of_forall_keep fun c hc => isInk_iff_not_isBlank.mpr (hink c hc), close,
    if_neg (List.isEmpty_iff.not.mpr hchars), List.map_singleton, String.ofList_toList]

/-- What makes of each word of a list that word alone leaves the list as it is. -/
theorem flatMap_eq_self {ws : List String} {f : String → List String} (h : ∀ w ∈ ws, f w = [w]) :
    ws.flatMap f = ws :=
  calc ws.flatMap f
      = ws.flatMap fun w => [w] := List.flatMap_congr h
    _ = ws := List.flatMap_singleton' ws

/-- Words that are joined by spaces are cut into the same words again. -/
theorem words_spaced_words (s : String) : words (spaced (words s)) = words s := by
  rw [words_spaced]
  refine flatMap_eq_self fun w hw => ?_
  obtain ⟨hne, hink⟩ := of_mem_words hw
  exact words_eq_singleton hne hink

end TextAdventure.Text

namespace TextAdventure

theorem Document.texts_map_text (fault : Document → Fault) (ss : List String) :
    Document.texts fault (ss.map .text) = .ok ss := by
  induction ss with
  | nil => rfl
  | cons s ss ih => rw [List.map_cons, texts, ih]

/-- The documents that are read as texts are those texts. -/
theorem Document.texts_eq_ok_iff {fault : Document → Fault} {ds : List Document}
    {ss : List String} : Document.texts fault ds = .ok ss ↔ ds = ss.map .text := by
  constructor
  · intro h
    induction ds generalizing ss with
    | nil =>
      obtain rfl := Except.ok.inj h
      rfl
    | cons d ds ih =>
      cases d with
      | text s =>
        rw [texts] at h
        split at h
        · rename_i rest hrest
          obtain rfl := Except.ok.inj h
          rw [List.map_cons, ih hrest]
        · simp at h
      | _ => simp [texts] at h
  · rintro rfl
    exact texts_map_text fault ss

namespace Command

/-- A word is kept if no article is that word in lower case. -/
theorem not_isArticle_iff {articles : List String} {w : String} :
    (!isArticle articles w) = true ↔ ∀ article ∈ articles, Text.lower article ≠ w := by
  rw [Bool.not_eq_true', isArticle, List.any_eq_false]
  simp only [beq_iff_eq, Ne]

section Texts

variable (articles : List String)

/-- **The words of a command**, word by word: each word of the text in lower case, unless it is an
article. -/
theorem wordsOf_eq (s : String) : wordsOf s articles =
    ((Text.words s).map Text.lower).filter fun w => !isArticle articles w := by
  rw [wordsOf, Text.words_lower, Text.words_trim]

/-- The words of a command are those of the two parts between which there are blanks. -/
theorem wordsOf_append_blanks {white : String} (hne : white ≠ "")
    (hblank : ∀ c ∈ white.toList, Text.isBlank c) (s t : String) :
    wordsOf (s ++ white ++ t) articles = wordsOf s articles ++ wordsOf t articles := by
  rw [wordsOf_eq, wordsOf_eq, wordsOf_eq, Text.words_append_blanks hne hblank, List.map_append,
    List.filter_append]

theorem wordsOf_append_space (s t : String) :
    wordsOf (s ++ " " ++ t) articles = wordsOf s articles ++ wordsOf t articles :=
  wordsOf_append_blanks articles (by decide) Text.isBlank_of_mem_space s t

/-- The words of a command that is given in pieces. -/
theorem wordsOf_spaced (ss : List String) :
    wordsOf (Text.spaced ss) articles = ss.flatMap (wordsOf · articles) := by
  rw [wordsOf_eq, Text.words_spaced, List.map_flatMap, List.filter_flatMap]
  simp only [wordsOf_eq]

end Texts

section Documents

variable {articles : List Document}

theorem normalize_text_eq_ok_iff {s : String} {ws : List String} :
    normalize (.text s) articles = .ok ws ↔
      ∃ as, Document.texts (fun _ => .lacking) articles = .ok as ∧ wordsOf s as = ws := by
  simp only [normalize, joined]
  cases Document.texts (fun _ => .lacking) articles with
  | error f => simp
  | ok as => simp

/-- A command that is given as a list is the text of its pieces with spaces between. -/
theorem normalize_list (ss : List String) :
    normalize (.list (ss.map .text)) articles = normalize (.text (Text.spaced ss)) articles := by
  simp only [normalize, joined, Document.texts_map_text]

theorem normalize_text_of_texts {articles : List String} (s : String) :
    normalize (.text s) (articles.map .text) = .ok (wordsOf s articles) :=
  normalize_text_eq_ok_iff.mpr ⟨articles, Document.texts_map_text _ articles, rfl⟩

/-- A word that is its own normal form, in front of words that are theirs. -/
theorem normalize_cons {v : String} {rest : List String}
    (hv : normalize (.text v) articles = .ok [v])
    (hrest : normalize (.list (rest.map .text)) articles = .ok rest) :
    normalize (.list ((v :: rest).map .text)) articles = .ok (v :: rest) := by
  rw [normalize_list] at hrest ⊢
  obtain ⟨as, has, hv⟩ := normalize_text_eq_ok_iff.mp hv
  obtain ⟨as', has', hrest⟩ := normalize_text_eq_ok_iff.mp hrest
  obtain rfl := Except.ok.inj (has.symm.trans has')
  refine normalize_text_eq_ok_iff.mpr ⟨as, has, ?_⟩
  rw [wordsOf_spaced] at hrest ⊢
  rw [List.flatMap_cons, hv, hrest, List.singleton_append]

end Documents

/-- **A command is normalized word by word.** The words of a text are those between its blanks, each
in lower case, but for the ones that are some article in lower case. So the words of two texts with
blanks between them, however many and of whatever kind, are those of the first and then those of the
second. -/
theorem normalize_word_by_word (articles : List String) :
    (∀ s : String, normalize (.text s) (articles.map .text) =
      .ok (((Text.words s).map Text.lower).filter fun w =>
        ∀ article ∈ articles, Text.lower article ≠ w)) ∧
    ∀ s white t : String, white ≠ "" → (∀ c ∈ white.toList, Text.isBlank c) →
      ∃ ws ws' : List String, normalize (.text s) (articles.map .text) = .ok ws ∧
        normalize (.text t) (articles.map .text) = .ok ws' ∧
        normalize (.text (s ++ white ++ t)) (articles.map .text) = .ok (ws ++ ws') := by
  constructor
  · intro s
    rw [normalize_text_of_texts, wordsOf_eq]
    refine congrArg Except.ok (List.filter_congr fun w _ => ?_)
    rw [Bool.eq_iff_iff, decide_eq_true_iff]
    exact not_isArticle_iff
  · intro s white t hne hblank
    refine ⟨wordsOf s articles, wordsOf t articles, normalize_text_of_texts s,
      normalize_text_of_texts t, ?_⟩
    rw [normalize_text_of_texts, wordsOf_append_blanks articles hne hblank]

/-- Two lines of a text in Greek, of which the first ends with a sigma and the second begins with an
apostrophe and a capital. The sigma is a final one, as it is in the first line on its own. -/
theorem normalize_two_lines :
    "\u3000\n" ≠ "" ∧ (∀ c ∈ "\u3000\n".toList, Text.isBlank c) ∧
      normalize (.text "Ο ΔΡΟΜΟΣ\u3000\n'Α") (["Ο"].map .text) = .ok ["δρομος", "'α"] := by
  have hne : "\u3000\n" ≠ "" := by decide
  have hblank : ∀ c ∈ "\u3000\n".toList, Text.isBlank c := List.all_eq_true.mp (by decide)
  obtain ⟨ws, ws', hs, ht, hboth⟩ :=
    (normalize_word_by_word ["Ο"]).2 "Ο ΔΡΟΜΟΣ" "\u3000\n" "'Α" hne hblank
  obtain rfl : ["δρομος"] = ws := Except.ok.inj hs
  obtain rfl : ["'α"] = ws' := Except.ok.inj ht
  exact ⟨hne, hblank, hboth⟩

end Command

end TextAdventure
