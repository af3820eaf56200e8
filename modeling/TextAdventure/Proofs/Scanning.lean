import Mathlib.Data.List.Forall2
import TextAdventure.Pattern
import TextAdventure.Proofs.WordByWord

/-!
# The parts of a pattern

A pattern is scanned once, from left to right, and what the scan does at a place depends on the rest
of the line: a quote begins a quoted part only if another quote follows, and what comes after that
may be anything. This file says what the scan finds without scanning.

## A text and its pieces

A text consists of pieces (`TextAdventure.Text.ConsistsOf`) if it is those pieces in order with
nothing but gaps before, between and behind them, and each piece stands as it should before the text
that follows it. Two things are described in this way: the runs of a class of characters, which go
on as far as the class goes (`TextAdventure.Text.hasRuns_iff`), and the parts of a pattern.

## The two kinds of parts

* *Quoted*: where a span stands, a text between two quotes on one line with something in between,
  the part is the shortest one.
* *Bare*: where no span stands, the part goes on to the next blank.

The scan does not write down of which kind a part is. It is told again later from the text of the
part alone, by its two ends and its length. That this is the same distinction is not obvious, since
a bare part may begin and end with quotes. But a bare part is on one line, and if it has two quotes
at its ends and something in between, then it is a span itself, and a span stands where it stands
(`TextAdventure.Pattern.Part.Stands.ofChars_chars`).

So every pattern consists of parts in exactly one way (`TextAdventure.Pattern.hasParts_iff`), and
its tokens are those of its parts (`TextAdventure.Pattern.compile_part_by_part`).
-/

namespace TextAdventure

namespace Text

/-! ### Texts made of pieces -/

section Pieces

variable {α : Type} (Gap : Char → Prop) (chars : α → List Char) (Stands : α → List Char → Prop)

/-- **A text consists of some pieces**: it is the texts of the pieces, in order, with gaps around
them, and each piece stands before what follows it in the text. -/
inductive ConsistsOf : List Char → List α → Prop
  /-- A gap has no pieces. -/
  | nil {gap : List Char} : (∀ c ∈ gap, Gap c) → ConsistsOf gap []
  /-- A gap, which may be empty, is followed by the first piece, and then comes the rest. -/
  | cons {gap rest : List Char} {piece : α} {pieces : List α} : (∀ c ∈ gap, Gap c) →
      Stands piece rest → ConsistsOf rest pieces →
      ConsistsOf (gap ++ chars piece ++ rest) (piece :: pieces)

variable {Gap chars Stands} {cs ds gap : List Char} {b : Char} {pieces more : List α}

/-- A gap in front of a text changes nothing in its pieces. -/
theorem ConsistsOf.gap_append (hgap : ∀ c ∈ gap, Gap c)
    (h : ConsistsOf Gap chars Stands cs pieces) :
    ConsistsOf Gap chars Stands (gap ++ cs) pieces := by
  cases h with
  | nil hcs => exact .nil (List.forall_mem_append.mpr ⟨hgap, hcs⟩)
  | cons hbefore hstands hrest =>
    simpa only [List.append_assoc] using
      ConsistsOf.cons (List.forall_mem_append.mpr ⟨hgap, hbefore⟩) hstands hrest

theorem ConsistsOf.gap_cons (hb : Gap b) (h : ConsistsOf Gap chars Stands cs pieces) :
    ConsistsOf Gap chars Stands (b :: cs) pieces := by
  have hgap : ∀ c ∈ [b], Gap c := fun c hc => List.mem_singleton.mp hc ▸ hb
  exact h.gap_append hgap

/-- A text that begins with a piece, without a gap. -/
theorem ConsistsOf.piece_append {piece : α} (hstands : Stands piece cs)
    (h : ConsistsOf Gap chars Stands cs pieces) :
    ConsistsOf Gap chars Stands (chars piece ++ cs) (piece :: pieces) :=
  have hgap : ∀ c ∈ ([] : List Char), Gap c := by simp
  .cons hgap hstands h

/-- **Two texts with a gap between them** have the pieces of the one and then those of the other, if
the pieces of the first stand before more text as well. -/
theorem ConsistsOf.append (h : ConsistsOf Gap chars Stands cs pieces)
    (hmore : ∀ piece ∈ pieces, ∀ rest, Stands piece rest → Stands piece (rest ++ b :: ds))
    (hb : Gap b) (hds : ConsistsOf Gap chars Stands ds more) :
    ConsistsOf Gap chars Stands (cs ++ b :: ds) (pieces ++ more) := by
  induction h with
  | nil hgap =>
    exact (hds.gap_cons hb).gap_append hgap
  | cons hgap hstands hrest ih =>
    obtain ⟨hpiece, hpieces⟩ := List.forall_mem_cons.mp hmore
    rw [List.append_assoc]
    exact .cons hgap (hpiece _ hstands) (ih hpieces)

/-- The pieces of a text stand somewhere in it, and their characters are characters of the text. -/
theorem ConsistsOf.of_mem (h : ConsistsOf Gap chars Stands cs pieces) {piece : α}
    (hpiece : piece ∈ pieces) : (∃ rest, Stands piece rest) ∧ ∀ c ∈ chars piece, c ∈ cs := by
  induction h with
  | nil => simp at hpiece
  | cons hgap hstands hrest ih =>
    rcases List.mem_cons.mp hpiece with rfl | hpiece
    · exact ⟨⟨_, hstands⟩, fun c hc => by simp [hc]⟩
    · obtain ⟨hsomewhere, hchars⟩ := ih hpiece
      exact ⟨hsomewhere, fun c hc => List.mem_append_right _ (hchars c hc)⟩

/-- **Every text consists of pieces** if some piece stands wherever there is no gap. -/
theorem exists_consistsOf
    (hstands : ∀ c cs, ¬Gap c →
      ∃ piece rest, c :: cs = chars piece ++ rest ∧ chars piece ≠ [] ∧ Stands piece rest)
    (cs : List Char) : ∃ pieces, ConsistsOf Gap chars Stands cs pieces := by
  induction hn : cs.length using Nat.strongRecOn generalizing cs with
  | ind n ih =>
    cases cs with
    | nil => exact ⟨[], .nil (by simp)⟩
    | cons c cs =>
      by_cases hc : Gap c
      · obtain ⟨pieces, hpieces⟩ := ih cs.length (hn ▸ Nat.lt_succ_self _) cs rfl
        exact ⟨pieces, hpieces.gap_cons hc⟩
      · obtain ⟨piece, rest, hsplit, hne, hpiece⟩ := hstands c cs hc
        have hlength : rest.length < n := by
          have := List.length_pos_of_ne_nil hne
          rw [← hn, hsplit, List.length_append]
          omega
        obtain ⟨pieces, hpieces⟩ := ih rest.length hlength rest rfl
        exact ⟨piece :: pieces, hsplit ▸ hpieces.piece_append hpiece⟩

end Pieces

/-! ### Runs -/

section Runs

variable {keep : Char → Bool} {run rest cs : List Char}

/-- **A whole run** of characters of a class, before the text that follows it. -/
structure IsRun (keep : Char → Bool) (run rest : List Char) : Prop where
  ne_nil : run ≠ []
  all : ∀ c ∈ run, keep c
  /-- The run goes on to the end of the text, or to the next character outside the class. -/
  stops : ∀ c ∈ rest.head?, keep c = false

theorem IsRun.takeWhile_eq (h : IsRun keep run rest) : (run ++ rest).takeWhile keep = run := by
  have hstops : rest.takeWhile keep = [] := by
    cases rest with
    | nil => rfl
    | cons c rest => exact List.takeWhile_cons_of_neg (by simp [h.stops c rfl])
  rw [List.takeWhile_append_of_pos h.all, hstops, List.append_nil]

/-- The maximal runs of a class in a text, with the characters outside the class as gaps. -/
def HasRuns (keep : Char → Bool) : List Char → List (List Char) → Prop :=
  ConsistsOf (fun c => keep c = false) id (IsRun keep)

theorem isRun_takeWhile {c : Char} (hc : keep c) (cs : List Char) :
    IsRun keep ((c :: cs).takeWhile keep) ((c :: cs).dropWhile keep) := by
  refine ⟨?_, fun d hd => List.mem_takeWhile_imp hd, ?_⟩
  · rw [List.takeWhile_cons_of_pos hc]
    exact List.cons_ne_nil _ _
  · intro d hd
    have hhead := List.head?_dropWhile_not keep (c :: cs)
    rw [Option.mem_def.mp hd] at hhead
    simpa using hhead

/-- A whole run in front of a text is the first of its runs. -/
theorem IsRun.runs_append (h : IsRun keep run rest) :
    runs keep (run ++ rest) = run :: runs keep rest := by
  have halone : runs keep run = [run] := by
    rw [runs_of_forall_keep h.all, close, if_neg (List.isEmpty_iff.not.mpr h.ne_nil)]
  cases rest with
  | nil => rw [List.append_nil, halone, runs_nil]
  | cons b rest =>
    have hb : keep b = false := h.stops b rfl
    rw [runs_append_of_not_keep hb, halone, runs_cons_of_not_keep hb, List.singleton_append]

theorem HasRuns.eq_runs {rs : List (List Char)} (h : HasRuns keep cs rs) : rs = runs keep cs := by
  induction h with
  | @nil gap hgap =>
    have hruns : runs keep (gap ++ []) = [] := runs_append_left_of_forall_not_keep hgap
    rw [List.append_nil] at hruns
    exact hruns.symm
  | cons hgap hrun hrest ih =>
    rw [List.append_assoc, runs_append_left_of_forall_not_keep hgap, ih]
    exact hrun.runs_append.symm

/-- **The runs of a text are its maximal runs**, and there are no others. -/
theorem hasRuns_iff {rs : List (List Char)} : HasRuns keep cs rs ↔ rs = runs keep cs := by
  constructor
  · exact HasRuns.eq_runs
  · rintro rfl
    obtain ⟨rs, hrs⟩ : ∃ rs, HasRuns keep cs rs := by
      refine exists_consistsOf (fun c cs hc => ?_) cs
      have hrun := isRun_takeWhile (Bool.not_eq_false _ ▸ hc) cs
      exact ⟨_, _, List.takeWhile_append_dropWhile.symm, hrun.ne_nil, hrun⟩
    rwa [← hrs.eq_runs]

end Runs

end Text

namespace Pattern

variable {cs span part inside rest text : List Char}

/-! ### Spans -/

/-- **A span**: two quotes with at least one character between them, and no line feed. -/
def IsSpan (cs : List Char) : Prop :=
  ∃ inside : List Char, inside ≠ [] ∧ '\n' ∉ inside ∧ cs = '"' :: (inside ++ ['"'])

theorem IsSpan.lineFeed_notMem (h : IsSpan span) : '\n' ∉ span := by
  obtain ⟨inside, -, hline, rfl⟩ := h
  simpa using hline

/-- A text that begins with a span begins with a quote. -/
theorem IsSpan.head?_eq_of_prefix (h : IsSpan span) (hpre : span <+: cs) : cs.head? = some '"' := by
  obtain ⟨inside, -, -, rfl⟩ := h
  obtain ⟨rest, rfl⟩ := hpre
  rfl

/-- What goes up to the nearest quote is on one line and ends with a quote. -/
theorem of_toQuote?_eq_some (h : toQuote? cs = some part) :
    ∃ inside rest, '\n' ∉ inside ∧ part = inside ++ ['"'] ∧ cs = part ++ rest := by
  induction cs generalizing part with
  | nil => simp [toQuote?] at h
  | cons c cs ih =>
    rw [toQuote?] at h
    split_ifs at h with hquote hline
    · obtain rfl := Option.some.inj h
      exact ⟨[], cs, by simp, by rw [hquote]; rfl, rfl⟩
    · obtain ⟨part, hpart, rfl⟩ := Option.map_eq_some_iff.mp h
      obtain ⟨inside, rest, hinside, rfl, rfl⟩ := ih hpart
      exact ⟨c :: inside, rest,
        List.not_mem_cons_of_ne_of_not_mem (Ne.symm hline) hinside, rfl, rfl⟩

/-- Any quote on the line is at least as far as the nearest one. -/
theorem exists_toQuote?_eq_some (hline : '\n' ∉ inside) (rest : List Char) :
    ∃ part, toQuote? (inside ++ '"' :: rest) = some part ∧ part.length ≤ inside.length + 1 := by
  induction inside with
  | nil => exact ⟨['"'], rfl, le_rfl⟩
  | cons c inside ih =>
    rw [List.mem_cons, not_or] at hline
    obtain ⟨part, hpart, hlength⟩ := ih hline.2
    rw [List.cons_append, toQuote?, if_neg (Ne.symm hline.1), hpart]
    split_ifs with hquote
    · exact ⟨[c], rfl, by simp⟩
    · exact ⟨c :: part, rfl, Nat.succ_le_succ hlength⟩

/-- The quoted part at the front of a text is a span at its front. -/
theorem isSpan_of_quoted?_eq_some (h : quoted? cs = some part) : IsSpan part ∧ part <+: cs := by
  rw [quoted?.eq_def] at h
  split at h
  · rename_i c cs
    split_ifs at h with hline
    obtain ⟨part, hpart, rfl⟩ := Option.map_eq_some_iff.mp h
    obtain ⟨inside, rest, hinside, rfl, rfl⟩ := of_toQuote?_eq_some hpart
    have hfeed := List.not_mem_cons_of_ne_of_not_mem (Ne.symm hline) hinside
    exact ⟨⟨c :: inside, List.cons_ne_nil _ _, hfeed, rfl⟩, rest, rfl⟩
  · simp at h

/-- Where a text begins with a span, it has a quoted part that is no longer. -/
theorem IsSpan.exists_quoted?_eq_some (h : IsSpan span) (hpre : span <+: cs) :
    ∃ part, quoted? cs = some part ∧ part.length ≤ span.length := by
  obtain ⟨inside, hne, hline, rfl⟩ := h
  obtain ⟨rest, rfl⟩ := hpre
  obtain ⟨c, inside, rfl⟩ := List.exists_cons_of_ne_nil hne
  rw [List.mem_cons, not_or] at hline
  obtain ⟨part, hpart, hlength⟩ := exists_toQuote?_eq_some hline.2 rest
  refine ⟨'"' :: c :: part, ?_, by simpa using hlength⟩
  simp only [List.cons_append, List.append_assoc, List.nil_append, quoted?]
  rw [if_neg (Ne.symm hline.1), hpart, Option.map_some]

theorem quoted?_eq_none_iff :
    quoted? cs = none ↔ ∀ span, IsSpan span → ¬span <+: cs := by
  constructor
  · intro h span hspan hpre
    obtain ⟨part, hpart, -⟩ := hspan.exists_quoted?_eq_some hpre
    exact absurd (h.symm.trans hpart) (by simp)
  · intro h
    refine Option.eq_none_iff_forall_ne_some.mpr fun part hpart => ?_
    obtain ⟨hspan, hpre⟩ := isSpan_of_quoted?_eq_some hpart
    exact h part hspan hpre

/-- **The quoted part is the shortest span.** -/
theorem quoted?_eq_some_iff : quoted? cs = some part ↔
    (IsSpan part ∧ part <+: cs) ∧
      ∀ span, IsSpan span → span <+: cs → part.length ≤ span.length := by
  constructor
  · intro h
    refine ⟨isSpan_of_quoted?_eq_some h, fun span hspan hpre => ?_⟩
    obtain ⟨part', hpart', hlength⟩ := hspan.exists_quoted?_eq_some hpre
    obtain rfl := Option.some.inj (h.symm.trans hpart')
    exact hlength
  · rintro ⟨⟨hspan, hpre⟩, hshortest⟩
    obtain ⟨part', hpart', hlength⟩ := hspan.exists_quoted?_eq_some hpre
    obtain ⟨hspan', hpre'⟩ := isSpan_of_quoted?_eq_some hpart'
    -- two texts of one length at the front of the same text are the same
    have heq := (List.prefix_of_prefix_length_le hpre' hpre hlength).eq_of_length
      (le_antisymm hlength (hshortest _ hspan' hpre'))
    rw [hpart', heq]

/-! ### Parts -/

/-- A part of a pattern. -/
inductive Part where
  /-- A span, whose letters are words. -/
  | quoted (text : List Char)
  /-- The name of a symbol. -/
  | bare (text : List Char)

namespace Part

/-- The text of a part. -/
def chars : Part → List Char
  | quoted text => text
  | bare text => text

@[simp] theorem chars_quoted (text : List Char) : (quoted text).chars = text := rfl

@[simp] theorem chars_bare (text : List Char) : (bare text).chars = text := rfl

/-- The part with a given text, told by the test that follows the scan. -/
def ofChars (text : List Char) : Part := if isQuoted text then quoted text else bare text

/-- **Where a part may stand.** A quoted part is a span and the shortest of those that begin where
it begins. A bare part stands where there is no span, and goes on to the next blank or to the end.
-/
def Stands : Part → List Char → Prop
  | quoted text, rest =>
    IsSpan text ∧ ∀ span, IsSpan span → span <+: text ++ rest → text.length ≤ span.length
  | bare text, rest =>
    Text.IsRun Text.isInk text rest ∧ ∀ span, IsSpan span → ¬span <+: text ++ rest

/-- **What a part says.** A quoted part is a literal for each maximal run of small letters in its
lower case, in order; a bare part is a symbol with its text as the name. -/
inductive Yields : Part → List Token → Prop
  | quoted {text : List Char} {words : List (List Char)} :
      Text.HasRuns isSmallLetter (Text.lowerChars text) words →
      Yields (quoted text) (words.map fun w => .literal (String.ofList w))
  | bare {text : List Char} : Yields (bare text) [.symbol (String.ofList text)]

end Part

/-- **The parts of a text**, with blanks as gaps. -/
def HasParts : List Char → List Part → Prop :=
  Text.ConsistsOf (fun c => Text.isBlank c) Part.chars Part.Stands

theorem isQuoted_iff : isQuoted text ↔
    text.head? = some '"' ∧ 2 < text.length ∧ text.getLast? = some '"' := by
  simp only [isQuoted, Bool.and_eq_true, beq_iff_eq, decide_eq_true_iff, and_assoc]

theorem isQuoted_of_isSpan (h : IsSpan text) : isQuoted text := by
  obtain ⟨inside, hne, -, rfl⟩ := h
  have hlength : 0 < inside.length := List.length_pos_of_ne_nil hne
  refine isQuoted_iff.mpr ⟨rfl, ?_, ?_⟩
  · rw [List.length_cons, List.length_append, List.length_singleton]
    omega
  · rw [← List.cons_append, List.getLast?_append_of_ne_nil _ (by simp)]
    rfl

/-- On one line, what has quotes at its ends and something in between is a span. -/
theorem isSpan_of_isQuoted (h : isQuoted text) (hline : '\n' ∉ text) : IsSpan text := by
  obtain ⟨hhead, hlength, hlast⟩ := isQuoted_iff.mp h
  obtain ⟨cs, rfl⟩ := List.head?_eq_some_iff.mp hhead
  rcases List.eq_nil_or_concat' cs with rfl | ⟨inside, d, rfl⟩
  · simp at hlength
  · obtain rfl : d = '"' := by simpa [List.getLast?_cons] using hlast
    refine ⟨inside, ?_, fun hmem => hline (by simp [hmem]), rfl⟩
    rintro rfl
    simp at hlength

namespace Part

variable {part : Part} {parts : List Part}

/-- There is no line feed in a part, wherever it stands. -/
theorem Stands.lineFeed_notMem (h : part.Stands rest) : '\n' ∉ part.chars := by
  cases part with
  | quoted text => exact h.1.lineFeed_notMem
  | bare text => exact fun hmem => absurd (h.1.all _ hmem) (by decide)

/-- **The kind of a part is told by its text**, wherever the part stands. -/
theorem Stands.ofChars_chars (h : part.Stands rest) : ofChars part.chars = part := by
  cases part with
  | quoted text => rw [chars_quoted, ofChars, if_pos (isQuoted_of_isSpan h.1)]
  | bare text =>
    rw [chars_bare, ofChars, if_neg]
    intro hquoted
    -- the part would be a span, and a span stands where it stands
    have hspan := isSpan_of_isQuoted hquoted h.lineFeed_notMem
    exact h.2 text hspan (List.prefix_append text rest)

theorem Stands.isQuoted_chars_iff (h : part.Stands rest) :
    isQuoted part.chars ↔ ∃ text, part = quoted text := by
  have hkind := h.ofChars_chars
  rw [ofChars] at hkind
  constructor
  · intro hquoted
    rw [if_pos hquoted] at hkind
    exact ⟨_, hkind.symm⟩
  · rintro ⟨text, rfl⟩
    exact isQuoted_of_isSpan h.1

/-- A part does not begin with a blank. -/
theorem Stands.exists_eq_cons (h : part.Stands rest) :
    ∃ c cs, part.chars = c :: cs ∧ Text.isInk c := by
  cases part with
  | quoted text =>
    obtain ⟨inside, -, -, rfl⟩ := h.1
    exact ⟨'"', inside ++ ['"'], rfl, by decide⟩
  | bare text =>
    obtain ⟨c, cs, rfl⟩ := List.exists_cons_of_ne_nil h.1.ne_nil
    exact ⟨c, cs, rfl, h.1.all c (List.mem_cons_self ..)⟩

/-- **A part is found where it stands.** -/
theorem Stands.partOf_eq (h : part.Stands rest) : partOf (part.chars ++ rest) = part.chars := by
  cases part with
  | quoted text =>
    rw [chars_quoted, partOf, quoted?_eq_some_iff.mpr ⟨⟨h.1, List.prefix_append text rest⟩, h.2⟩]
  | bare text =>
    rw [chars_bare, partOf, quoted?_eq_none_iff.mpr h.2]
    exact h.1.takeWhile_eq

/-- Where a text does not begin with a blank, some part stands. -/
theorem exists_stands {c : Char} (hc : Text.isInk c) (cs : List Char) :
    ∃ (part : Part) (rest : List Char), c :: cs = part.chars ++ rest ∧ part.Stands rest := by
  cases hquoted : quoted? (c :: cs) with
  | some text =>
    obtain ⟨⟨hspan, rest, hrest⟩, hshortest⟩ := quoted?_eq_some_iff.mp hquoted
    exact ⟨quoted text, rest, hrest.symm, hspan, hrest ▸ hshortest⟩
  | none =>
    have hsplit := List.takeWhile_append_dropWhile (p := Text.isInk) (l := c :: cs)
    exact ⟨bare ((c :: cs).takeWhile Text.isInk), (c :: cs).dropWhile Text.isInk, hsplit.symm,
      Text.isRun_takeWhile hc cs, hsplit.symm ▸ quoted?_eq_none_iff.mp hquoted⟩

end Part

/-! ### Scanning -/

/-- The characters that belong to a part already are passed over. -/
theorem scan_length_append (taken cs : List Char) :
    scan taken.length (taken ++ cs) = parts cs := by
  induction taken with
  | nil => rfl
  | cons c taken ih => exact ih

/-- Blanks in front of a text are passed over. -/
theorem parts_gap_append {gap : List Char} (hgap : ∀ c ∈ gap, Text.isBlank c) (cs : List Char) :
    parts (gap ++ cs) = parts cs := by
  induction gap with
  | nil => rfl
  | cons c gap ih =>
    obtain ⟨hc, hgap⟩ := List.forall_mem_cons.mp hgap
    rw [List.cons_append, parts, scan, if_pos hc]
    exact ih hgap

/-- A part is scanned where it stands, and then what follows it. -/
theorem parts_append {part : Part} (h : part.Stands rest) :
    parts (part.chars ++ rest) = part.chars :: parts rest := by
  obtain ⟨c, cs, hchars, hc⟩ := h.exists_eq_cons
  have hfound := h.partOf_eq
  rw [hchars, List.cons_append] at hfound ⊢
  rw [parts, scan, if_neg (Text.isInk_iff_not_isBlank.mp hc), hfound]
  exact congrArg _ (scan_length_append cs rest)

/-- The scan finds the parts of which a text consists. -/
theorem HasParts.parts_eq {ps : List Part} (h : HasParts cs ps) : parts cs = ps.map Part.chars := by
  induction h with
  | nil hgap =>
    have hparts := parts_gap_append hgap []
    rwa [List.append_nil] at hparts
  | cons hgap hstands hrest ih =>
    rw [List.append_assoc, parts_gap_append hgap, parts_append hstands, ih, List.map_cons]

/-- Every text consists of parts. -/
theorem exists_hasParts (cs : List Char) : ∃ ps, HasParts cs ps := by
  refine Text.exists_consistsOf (fun c cs hc => ?_) cs
  obtain ⟨part, rest, hsplit, hstands⟩ := Part.exists_stands (Text.isInk_iff_not_isBlank.mpr hc) cs
  obtain ⟨d, ds, hchars, -⟩ := hstands.exists_eq_cons
  exact ⟨part, rest, hsplit, hchars ▸ List.cons_ne_nil d ds, hstands⟩

/-- **A text consists of parts in exactly one way**: the parts that the scan finds, each of the kind
that its text tells. -/
theorem hasParts_iff {ps : List Part} : HasParts cs ps ↔ ps = (parts cs).map Part.ofChars := by
  have hunique : ∀ ps, HasParts cs ps → ps = (parts cs).map Part.ofChars := by
    intro ps hps
    have hkinds : ∀ part ∈ ps, id part = (Part.ofChars ∘ Part.chars) part := by
      intro part hpart
      obtain ⟨⟨rest, hstands⟩, -⟩ := hps.of_mem hpart
      exact hstands.ofChars_chars.symm
    calc ps = ps.map id := (List.map_id ps).symm
      _ = ps.map (Part.ofChars ∘ Part.chars) := List.map_congr_left hkinds
      _ = (parts cs).map Part.ofChars := by rw [hps.parts_eq, List.map_map]
  constructor
  · exact hunique ps
  · rintro rfl
    obtain ⟨ps, hps⟩ := exists_hasParts cs
    rwa [← hunique ps hps]

/-! ### Tokens -/

/-- A part says nothing but its tokens. -/
theorem Part.Stands.yields_iff {part : Part} {tokens : List Token} (h : part.Stands rest) :
    part.Yields tokens ↔ tokens = tokensOf part.chars := by
  rw [tokensOf]
  cases part with
  | quoted text =>
    rw [if_pos (h.isQuoted_chars_iff.mpr ⟨text, rfl⟩), literals, List.map_map]
    constructor
    · rintro ⟨hwords⟩
      rw [Text.hasRuns_iff.mp hwords]
      rfl
    · rintro rfl
      exact .quoted (Text.hasRuns_iff.mpr rfl)
  | bare text =>
    rw [if_neg (h.isQuoted_chars_iff.not.mpr (by simp))]
    constructor
    · rintro ⟨⟩
      rfl
    · rintro rfl
      exact .bare

/-- What the parts of a text say, in order, are their tokens. -/
theorem HasParts.forall₂_yields_iff {ps : List Part} {said : List (List Token)}
    (h : HasParts cs ps) :
    List.Forall₂ Part.Yields ps said ↔ said = ps.map fun part => tokensOf part.chars := by
  induction h generalizing said with
  | nil => exact List.forall₂_nil_left_iff
  | cons hgap hstands hrest ih =>
    rw [List.forall₂_cons_left_iff, List.map_cons]
    simp only [hstands.yields_iff, ih]
    constructor
    · rintro ⟨_, _, rfl, rfl, rfl⟩
      rfl
    · rintro rfl
      exact ⟨_, _, rfl, rfl, rfl⟩

/-- The tokens of a pattern are those of its parts. -/
theorem compile_eq_of_hasParts {p : String} {ps : List Part} (h : HasParts p.toList ps) :
    compile p = ps.flatMap fun part => tokensOf part.chars := by
  rw [compile, h.parts_eq, List.flatMap_map]

/-- **A pattern is compiled part by part.** There is exactly one way in which it consists of parts
with nothing but blanks around them, where a quoted part is the shortest span at its place and a
bare part goes on to the next blank, for want of a span. These are the parts that are scanned, and
what has quotes at its ends and something in between is a quoted one. Each part says one thing, and
the tokens are what the parts say, in order. -/
theorem compile_part_by_part (p : String) :
    ∃ ps : List Part, (∀ ps', HasParts p.toList ps' ↔ ps' = ps) ∧
      parts p.toList = ps.map Part.chars ∧
      (∀ part ∈ ps, isQuoted part.chars ↔ ∃ text, part = .quoted text) ∧
      ∃ said : List (List Token), (∀ said', List.Forall₂ Part.Yields ps said' ↔ said' = said) ∧
        compile p = said.flatten := by
  obtain ⟨ps, hps⟩ := exists_hasParts p.toList
  refine ⟨ps, ?_, hps.parts_eq, ?_, ps.map fun part => tokensOf part.chars, ?_, ?_⟩
  · intro ps'
    rw [hasParts_iff, ← hasParts_iff.mp hps]
  · intro part hpart
    obtain ⟨⟨rest, hstands⟩, -⟩ := hps.of_mem hpart
    exact hstands.isQuoted_chars_iff
  · intro said'
    exact hps.forall₂_yields_iff
  · rw [compile_eq_of_hasParts hps, List.flatMap_def]

/-- A name goes on to the next blank with a quote in it. Two quotes with nothing in between begin a
span that goes on to the third. The quote at the end has no other one to go with. -/
example : compile "\"Look, AT\"on\"desk \"\" up\" \"" =
    [.literal "look", .literal "at", .symbol "on\"desk", .literal "up", .symbol "\""] := by
  decide +kernel

end Pattern

end TextAdventure
