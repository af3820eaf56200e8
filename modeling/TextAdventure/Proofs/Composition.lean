import Mathlib.Data.List.Infix
import TextAdventure.Proofs.QuotedText

/-!
# Patterns put together

Two patterns with a blank between them are one pattern, and its tokens are those of the first and
then those of the second, with one exception: a quote that is still open at the end of the first may
find its end in the second. Two things prevent this.

* *A line feed between them.* No span goes on to the next line.
* *No symbol that begins with a quote.* Where a part begins with a quote and no span stands, it is
  bare, and a symbol begins with this quote. So in a pattern without such symbols every quote that
  begins a part is closed.

Every part of the first pattern then stands before the longer text as well
(`TextAdventure.Pattern.Part.Stands.append_blank`), and the parts of the whole are those of the two.
The main statement is `TextAdventure.Pattern.compile_append`.

## Tokens shown

Tokens are shown as patterns of one part each, with spaces between them. If no symbol begins with a
quote, nothing can happen at the spaces. But a pattern may have such a symbol, and if it does, the
pattern has no quotes behind it on the line, or else a span would stand there. So no literal follows
the symbol, none is shown behind it, and the quote stays open when the tokens are read again
(`TextAdventure.Pattern.compile_describe`).
-/

namespace TextAdventure

namespace Pattern

variable {cs ds span text rest : List Char}

/-! ### Spans in longer texts -/

/-- A span does not go on to the next line. -/
theorem IsSpan.prefix_of_lineFeed (h : IsSpan span) (hpre : span <+: cs ++ '\n' :: ds) :
    span <+: cs := by
  have hline : cs ++ ['\n'] <+: cs ++ '\n' :: ds := ⟨ds, by simp⟩
  rcases List.prefix_or_prefix_of_prefix hpre hline with hshort | hlong
  · rcases List.prefix_concat_iff.mp hshort with rfl | hwithin
    · exact absurd (by simp) h.lineFeed_notMem
    · exact hwithin
  · exact absurd (hlong.subset (by simp)) h.lineFeed_notMem

/-- A span does not end where there are no quotes. -/
theorem IsSpan.prefix_of_quote_notMem (h : IsSpan span) (hpre : span <+: cs ++ ds)
    (hquote : '"' ∉ ds) : span <+: cs := by
  rcases List.prefix_or_prefix_of_prefix hpre (List.prefix_append cs ds) with hshort | ⟨more, rfl⟩
  · exact hshort
  · have hmore : more <+: ds := (List.prefix_append_right_inj cs).mp hpre
    rcases List.eq_nil_or_concat' more with rfl | ⟨most, d, rfl⟩
    · rw [List.append_nil]
    · -- the quote at the end of the span would be among the later characters
      obtain ⟨inside, -, -, hspan⟩ := h
      have hd : d = '"' := by
        have hlast := congrArg List.getLast? hspan
        rw [← List.append_assoc, ← List.cons_append, List.getLast?_concat,
          List.getLast?_concat] at hlast
        exact Option.some.inj hlast
      exact absurd (hmore.subset (by simp [hd])) hquote

namespace Part

variable {part : Part} {b : Char}

/-- What does not begin with a quote and is a whole run stands as a bare part. -/
theorem stands_bare (hrun : Text.IsRun Text.isInk text rest) (hhead : text.head? ≠ some '"') :
    (bare text).Stands rest := by
  refine ⟨hrun, fun span hspan hpre => hhead ?_⟩
  have hfirst := hspan.head?_eq_of_prefix hpre
  rwa [List.head?_append_of_ne_nil _ hrun.ne_nil] at hfirst

/-- **Parts before more text.** A part goes on standing where it stands if a blank and more text is
put behind what follows it, unless it begins with an open quote and the blank does not end the line.
-/
theorem Stands.append_blank (h : part.Stands rest) (hb : Text.isBlank b)
    (hopen : b = '\n' ∨ ∀ text, part = bare text → text.head? ≠ some '"') (ds : List Char) :
    part.Stands (rest ++ b :: ds) := by
  cases part with
  | quoted text =>
    refine ⟨h.1, fun span hspan hpre => ?_⟩
    by_contra! hshorter
    -- a shorter span would stand within the part
    have hwithin := List.prefix_of_prefix_length_le hpre (List.prefix_append text _) hshorter.le
    exact absurd (h.2 span hspan (hwithin.trans (List.prefix_append text rest))) (by omega)
  | bare text =>
    have hrun : Text.IsRun Text.isInk text (rest ++ b :: ds) := by
      refine ⟨h.1.ne_nil, h.1.all, ?_⟩
      cases rest with
      | nil => simpa using Text.isInk_eq_false hb
      | cons c rest => exact h.1.stops
    rcases hopen with rfl | hhead
    · refine ⟨hrun, fun span hspan hpre => h.2 span hspan ?_⟩
      rw [← List.append_assoc] at hpre
      exact hspan.prefix_of_lineFeed hpre
    · exact stands_bare hrun (hhead text rfl)

end Part

/-! ### Two patterns -/

theorem tokensOf_bare (hstands : (Part.bare text).Stands rest) :
    tokensOf text = [.symbol (String.ofList text)] := by
  have hbare : ¬isQuoted text := by
    intro hquoted
    obtain ⟨text', htext'⟩ := hstands.isQuoted_chars_iff.mp hquoted
    exact Part.noConfusion htext'
  rw [tokensOf, if_neg hbare]

/-- **Patterns with a blank between them**, if the blank ends the line or no symbol of the first
pattern begins with a quote. -/
theorem compile_append_blank {p white q : String} {b : Char} (hwhite : white.toList = [b])
    (hb : Text.isBlank b)
    (hopen : b = '\n' ∨ ∀ name, Token.symbol name ∈ compile p → name.toList.head? ≠ some '"') :
    compile (p ++ white ++ q) = compile p ++ compile q := by
  obtain ⟨ps, hps⟩ := exists_hasParts p.toList
  obtain ⟨qs, hqs⟩ := exists_hasParts q.toList
  have hmore : ∀ part ∈ ps, ∀ rest, part.Stands rest → part.Stands (rest ++ b :: q.toList) := by
    intro part hpart rest hstands
    refine hstands.append_blank hb (hopen.imp_right fun hnames => ?_) q.toList
    rintro text rfl
    have hsymbol : Token.symbol (String.ofList text) ∈ compile p := by
      rw [compile_eq_of_hasParts hps]
      exact List.mem_flatMap.mpr ⟨_, hpart, by rw [Part.chars_bare, tokensOf_bare hstands]; simp⟩
    simpa using hnames _ hsymbol
  have hboth : HasParts (p ++ white ++ q).toList (ps ++ qs) := by
    rw [String.toList_append, String.toList_append, hwhite, List.append_assoc,
      List.singleton_append]
    exact Text.ConsistsOf.append hps hmore hb hqs
  rw [compile_eq_of_hasParts hboth, List.flatMap_append, ← compile_eq_of_hasParts hps,
    ← compile_eq_of_hasParts hqs]

/-- **Patterns compose.** The tokens of two patterns on lines of their own are those of the first
and then those of the second. The same holds with any other blank between the two, if no symbol of
the first begins with a quote. -/
theorem compile_append (p q : String) :
    compile (p ++ "\n" ++ q) = compile p ++ compile q ∧
      ((∀ name, Token.symbol name ∈ compile p → name.toList.head? ≠ some '"') →
        ∀ b, Text.isBlank b → compile (p ++ String.singleton b ++ q) = compile p ++ compile q) := by
  constructor
  · exact compile_append_blank rfl (by decide) (.inl rfl)
  · intro hnames b hb
    exact compile_append_blank (String.toList_singleton b) hb (.inr hnames)

/-- A name with a quote in it is no danger for what follows, and what follows may have open quotes.
-/
theorem compile_old_man_on_desk :
    (∀ name, Token.symbol name ∈ compile "\"up\" old\"man" → name.toList.head? ≠ some '"') ∧
      Text.isBlank '\t' ∧
      compile ("\"up\" old\"man" ++ String.singleton '\t' ++ "\"on\" \"desk") =
        [.literal "up", .symbol "old\"man", .literal "on", .symbol "\"desk"] := by
  have hfirst : compile "\"up\" old\"man" = [.literal "up", .symbol "old\"man"] := by
    decide +kernel
  have hsecond : compile "\"on\" \"desk" = [.literal "on", .symbol "\"desk"] := by
    decide +kernel
  have hnames : ∀ name, Token.symbol name ∈ compile "\"up\" old\"man" →
      name.toList.head? ≠ some '"' := by
    intro name hname
    obtain rfl : name = "old\"man" := by simpa [hfirst] using hname
    decide
  refine ⟨hnames, by decide, ?_⟩
  rw [(compile_append _ _).2 hnames '\t' (by decide), hfirst, hsecond]
  rfl

/-- An open quote is closed by what follows. -/
example : compile ("\"old" ++ " " ++ "man\"") ≠ compile "\"old" ++ compile "man\"" := by
  decide +kernel

/-! ### Tokens shown -/

/-- The part that shows a token. -/
def Part.ofToken : Token → Part
  | .literal word => quoted ('"' :: (word.toList ++ ['"']))
  | .symbol name => bare name.toList

theorem toList_describeToken (token : Token) :
    (describeToken token).toList = (Part.ofToken token).chars := by
  cases token with
  | literal word => simp [describeToken, Part.ofToken]
  | symbol name => rfl

/-- The text that shows some tokens; it is empty if there are none. -/
def shown (tokens : List Token) : String := Text.spaced (tokens.map describeToken)

variable {token : Token} {tokens more : List Token}

theorem describe_eq_shown (h : tokens ≠ []) : describe tokens = shown tokens := by
  rw [describe, if_neg (List.isEmpty_iff.not.mpr h), shown]

/-- A part also stands where nothing follows. -/
theorem Part.Stands.alone {part : Part} (h : part.Stands rest) : part.Stands [] := by
  cases part with
  | quoted text =>
    refine ⟨h.1, fun span hspan hpre => h.2 span hspan ?_⟩
    exact (List.append_nil text ▸ hpre).trans (List.prefix_append text rest)
  | bare text =>
    refine ⟨⟨h.1.ne_nil, h.1.all, by simp⟩, fun span hspan hpre => h.2 span hspan ?_⟩
    exact (List.append_nil text ▸ hpre).trans (List.prefix_append text rest)

/-- The first of some tokens is shown first, and there is a space behind it unless it is the only
one. -/
theorem toList_shown_cons (token : Token) (tokens : List Token) :
    (shown (token :: tokens)).toList = (Part.ofToken token).chars ++ ' ' :: (shown tokens).toList ∨
      tokens = [] ∧ (shown (token :: tokens)).toList = (Part.ofToken token).chars := by
  rw [← toList_describeToken]
  cases tokens with
  | nil => exact .inr ⟨rfl, rfl⟩
  | cons next tokens =>
    have hcons : shown (token :: next :: tokens) =
        describeToken token ++ " " ++ shown (next :: tokens) := rfl
    rw [hcons, String.toList_append, String.toList_append, List.append_assoc]
    exact .inl rfl

/-- The first of some tokens that are shown is read where its part stands, and then the others are.
-/
theorem compile_shown_cons (h : (Part.ofToken token).Stands (' ' :: (shown tokens).toList)) :
    compile (shown (token :: tokens)) =
      tokensOf (Part.ofToken token).chars ++ compile (shown tokens) := by
  rw [compile, compile]
  rcases toList_shown_cons token tokens with hshown | ⟨rfl, hshown⟩
  · have hspace : ∀ c ∈ [' '], Text.isBlank c := List.all_eq_true.mp (by decide)
    have hrest := parts_gap_append hspace (shown tokens).toList
    rw [List.singleton_append] at hrest
    rw [hshown, parts_append h, List.flatMap_cons, hrest]
  · have hfirst := parts_append h.alone
    rw [List.append_nil] at hfirst
    rw [hshown, hfirst, List.flatMap_cons]
    rfl

/-- In what is shown of some tokens there is nothing but the tokens, each on its own, and spaces. -/
theorem of_mem_toList_shown {c : Char} (hc : c ∈ (shown tokens).toList) :
    c = ' ' ∨ ∃ token ∈ tokens, c ∈ (Part.ofToken token).chars := by
  induction tokens with
  | nil => exact absurd hc List.not_mem_nil
  | cons token tokens ih =>
    have hcases : c ∈ (Part.ofToken token).chars ∨ c = ' ' ∨ c ∈ (shown tokens).toList := by
      rcases toList_shown_cons token tokens with hshown | ⟨-, hshown⟩
      · rwa [hshown, List.mem_append, List.mem_cons] at hc
      · exact .inl (hshown ▸ hc)
    rcases hcases with hfirst | hspace | hrest
    · exact .inr ⟨token, List.mem_cons_self .., hfirst⟩
    · exact .inl hspace
    · exact (ih hrest).imp_right fun ⟨t, ht, hct⟩ => ⟨t, List.mem_cons_of_mem _ ht, hct⟩

/-! ### Plain tokens -/

/-- **A plain token**: a literal that is a word of small letters, or a symbol with a name that has
no blanks and does not begin with a quote. -/
def IsPlain : Token → Prop
  | .literal word => word ≠ "" ∧ ∀ c ∈ word.toList, isSmallLetter c
  | .symbol name => name ≠ "" ∧ (∀ c ∈ name.toList, ¬Text.isBlank c) ∧ name.toList.head? ≠ some '"'

instance (token : Token) : Decidable (IsPlain token) :=
  match token with
  | .literal word =>
    decidable_of_iff (word ≠ "" ∧ word.toList.all isSmallLetter) (by rw [IsPlain, List.all_eq_true])
  | .symbol name =>
    decidable_of_iff (name ≠ "" ∧ name.toList.all Text.isInk ∧ name.toList.head? ≠ some '"')
      (by simp only [IsPlain, List.all_eq_true, Text.isInk_iff_not_isBlank])

theorem notMem_of_forall_isSmallLetter {c : Char} (hc : isSmallLetter c = false)
    (h : ∀ d ∈ cs, isSmallLetter d) : c ∉ cs := by
  intro hmem
  rw [h c hmem] at hc
  exact Bool.noConfusion hc

/-- A run of characters that are no blanks is whole before a space. -/
theorem isRun_before_space (hne : text ≠ []) (hink : ∀ c ∈ text, Text.isInk c) (ds : List Char) :
    Text.IsRun Text.isInk text (' ' :: ds) := by
  refine ⟨hne, hink, ?_⟩
  rintro c ⟨⟩
  decide

theorem IsPlain.stands (h : IsPlain token) (ds : List Char) :
    (Part.ofToken token).Stands (' ' :: ds) := by
  cases token with
  | literal word =>
    obtain ⟨hne, hletters⟩ := h
    exact stands_inQuotes (String.toList_eq_nil_iff.not.mpr hne)
      (notMem_of_forall_isSmallLetter (by decide) hletters)
      (notMem_of_forall_isSmallLetter (by decide) hletters) _
  | symbol name =>
    obtain ⟨hne, hblank, hhead⟩ := h
    have hink : ∀ c ∈ name.toList, Text.isInk c := fun c hc =>
      Text.isInk_iff_not_isBlank.mpr (hblank c hc)
    exact Part.stands_bare (isRun_before_space (String.toList_eq_nil_iff.not.mpr hne) hink ds) hhead

/-- The part that shows a plain token has no other token. -/
theorem IsPlain.tokensOf_eq (h : IsPlain token) :
    tokensOf (Part.ofToken token).chars = [token] := by
  cases token with
  | literal word =>
    obtain ⟨hne, hletters⟩ := h
    have hchars : word.toList ≠ [] := String.toList_eq_nil_iff.not.mpr hne
    have hlower : Text.lowerChars word.toList = word.toList :=
      Text.lowerAfter_eq_self (fun c hc => isSmall_of_isSmallLetter (hletters c hc)) []
    rw [Part.ofToken, Part.chars_quoted,
      tokensOf_inQuotes hchars (notMem_of_forall_isSmallLetter (by decide) hletters)
        (notMem_of_forall_isSmallLetter (by decide) hletters),
      hlower, Text.runs_of_forall_keep hletters, Text.close,
      if_neg (List.isEmpty_iff.not.mpr hchars), List.map_singleton, List.map_singleton,
      String.ofList_toList]
  | symbol name =>
    rw [Part.ofToken, Part.chars_bare, tokensOf_bare (h.stands []), String.ofList_toList]

/-- Plain tokens in front of others that are read again are read again. -/
theorem compile_shown_append (hplain : ∀ token ∈ tokens, IsPlain token)
    (hmore : compile (shown more) = more) : compile (shown (tokens ++ more)) = tokens ++ more := by
  induction tokens with
  | nil => exact hmore
  | cons token tokens ih =>
    obtain ⟨htoken, htokens⟩ := List.forall_mem_cons.mp hplain
    rw [List.cons_append, compile_shown_cons (htoken.stands _), htoken.tokensOf_eq, ih htokens,
      List.singleton_append]

/-! ### The tokens of a pattern -/

/-- The literals of a quoted part are plain. -/
theorem isPlain_of_mem_literals {word : String} (h : word ∈ literals text) :
    IsPlain (.literal word) := by
  obtain ⟨run, hrun, rfl⟩ := List.mem_map.mp h
  obtain ⟨hne, hletters⟩ := Text.of_mem_runs hrun
  rw [IsPlain, Ne, ← String.toList_eq_nil_iff, String.toList_ofList]
  exact ⟨hne, hletters⟩

/-- A symbol from a pattern is plain, unless it begins with a quote. -/
theorem isPlain_of_stands (h : (Part.bare text).Stands rest) (hhead : text.head? ≠ some '"') :
    IsPlain (.symbol (String.ofList text)) := by
  rw [IsPlain, Ne, ← String.toList_eq_nil_iff, String.toList_ofList]
  exact ⟨h.1.ne_nil, fun c hc => Text.isInk_iff_not_isBlank.mp (h.1.all c hc), hhead⟩

/-- A symbol from a pattern stands before a space and text without quotes, even if it begins with a
quote. -/
theorem Part.Stands.before_space (h : (bare text).Stands rest) (hquote : '"' ∉ ds) :
    (bare text).Stands (' ' :: ds) := by
  refine ⟨isRun_before_space h.1.ne_nil h.1.all ds, fun span hspan hpre => ?_⟩
  have hwithin : span <+: text := hspan.prefix_of_quote_notMem hpre (by simpa using hquote)
  exact h.2 span hspan (hwithin.trans (List.prefix_append text rest))

/-- **Behind an open quote there are no quotes** on the line: the first of them would close it. -/
theorem quote_notMem_of_open (h : (Part.bare text).Stands rest) (hhead : text.head? = some '"')
    (hline : '\n' ∉ text ++ rest) : '"' ∉ rest := by
  intro hmem
  obtain ⟨first, rfl⟩ := List.head?_eq_some_iff.mp hhead
  obtain ⟨before, behind, rfl⟩ := List.append_of_mem hmem
  by_cases hinside : first ++ before = []
  · -- the part is the quote alone, and a blank has to follow it
    obtain ⟨rfl, rfl⟩ := List.append_eq_nil_iff.mp hinside
    exact absurd (h.1.stops '"' rfl) (by decide)
  · have hspan : IsSpan ('"' :: (first ++ before ++ ['"'])) := by
      refine ⟨first ++ before, hinside, fun hfeed => hline ?_, rfl⟩
      rcases List.mem_append.mp hfeed with hfirst | hbefore
      · simp [hfirst]
      · simp [hbefore]
    exact h.2 _ hspan ⟨behind, by simp⟩

/-- No quotes are shown for the tokens of a text without quotes. -/
theorem HasParts.quote_notMem_shown {ps : List Part} (h : HasParts cs ps) (hquote : '"' ∉ cs) :
    '"' ∉ (shown (ps.flatMap fun part => tokensOf part.chars)).toList := by
  intro hmem
  rcases of_mem_toList_shown hmem with hspace | ⟨token, htoken, hchar⟩
  · exact absurd hspace (by decide)
  · obtain ⟨part, hpart, htoken⟩ := List.mem_flatMap.mp htoken
    obtain ⟨⟨rest, hstands⟩, hchars⟩ := h.of_mem hpart
    cases part with
    | quoted text =>
      obtain ⟨inside, -, -, rfl⟩ := hstands.1
      exact hquote (hchars '"' (List.mem_cons_self ..))
    | bare text =>
      rw [Part.chars_bare, tokensOf_bare hstands, List.mem_singleton] at htoken
      rw [htoken, Part.ofToken, Part.chars_bare, String.toList_ofList] at hchar
      exact hquote (hchars '"' hchar)

/-- **The tokens of a line are read again** from what is shown of them. -/
theorem HasParts.compile_shown {ps : List Part} (h : HasParts cs ps) (hline : '\n' ∉ cs) :
    compile (shown (ps.flatMap fun part => tokensOf part.chars)) =
      ps.flatMap fun part => tokensOf part.chars := by
  induction h with
  | nil => rfl
  | @cons gap rest part ps hgap hstands hrest ih =>
    rw [List.append_assoc, List.mem_append, not_or] at hline
    have hrestline : '\n' ∉ rest := fun hmem => hline.2 (List.mem_append_right _ hmem)
    rw [List.flatMap_cons]
    cases part with
    | quoted text =>
      rw [Part.chars_quoted, tokensOf, if_pos (isQuoted_of_isSpan hstands.1)]
      refine compile_shown_append ?_ (ih hrestline)
      intro token htoken
      obtain ⟨word, hword, rfl⟩ := List.mem_map.mp htoken
      exact isPlain_of_mem_literals hword
    | bare text =>
      rw [Part.chars_bare, tokensOf_bare hstands]
      by_cases hhead : text.head? = some '"'
      · -- the quote is open, and nothing that follows is shown with quotes
        have hquote := HasParts.quote_notMem_shown hrest
          (quote_notMem_of_open hstands hhead hline.2)
        have hopen : (Part.ofToken (.symbol (String.ofList text))).Stands
            (' ' :: (shown (ps.flatMap fun part => tokensOf part.chars)).toList) := by
          rw [Part.ofToken, String.toList_ofList]
          exact hstands.before_space hquote
        rw [List.singleton_append, compile_shown_cons hopen, ih hrestline, Part.ofToken,
          Part.chars_bare, String.toList_ofList, tokensOf_bare hstands, List.singleton_append]
      · refine compile_shown_append ?_ (ih hrestline)
        intro token htoken
        obtain rfl := List.mem_singleton.mp htoken
        exact isPlain_of_stands hstands hhead

/-- **Tokens are read again from what is shown of them**, if there are any: plain tokens in any
order, and the tokens of any pattern on one line, even if one of them is a symbol that begins with
an open quote. -/
theorem compile_describe :
    (∀ tokens : List Token, tokens ≠ [] → (∀ token ∈ tokens, IsPlain token) →
      compile (describe tokens) = tokens) ∧
    ∀ p : String, '\n' ∉ p.toList → compile p ≠ [] →
      compile (describe (compile p)) = compile p := by
  constructor
  · intro tokens hne hplain
    have hnone : compile (shown []) = [] := rfl
    have hshown := compile_shown_append hplain hnone
    rwa [List.append_nil, ← describe_eq_shown hne] at hshown
  · intro p hline hne
    obtain ⟨ps, hps⟩ := exists_hasParts p.toList
    have hshown := hps.compile_shown hline
    rwa [← compile_eq_of_hasParts hps, ← describe_eq_shown hne] at hshown

/-- A plain symbol may have a quote in its name. A symbol may also begin with two quotes, which are
as good as one: the second is not the end of a span, for there is nothing in between. -/
theorem compile_describe_old_man :
    (([.literal "up", .symbol "old\"man", .literal "on"] : List Token) ≠ [] ∧
      (∀ token ∈ [.literal "up", .symbol "old\"man", .literal "on"], IsPlain token) ∧
      compile "\"up\" old\"man \"on\"" = [.literal "up", .symbol "old\"man", .literal "on"]) ∧
    '\n' ∉ "\"Look, AT\"desk  \"\"old man".toList ∧ compile "\"Look, AT\"desk  \"\"old man" ≠ [] ∧
      compile "\"look\" \"at\" desk \"\"old man" =
        [.literal "look", .literal "at", .symbol "desk", .symbol "\"\"old", .symbol "man"] := by
  have hne : ([.literal "up", .symbol "old\"man", .literal "on"] : List Token) ≠ [] := by simp
  have hplain : ∀ token ∈ [.literal "up", .symbol "old\"man", .literal "on"], IsPlain token := by
    decide
  have hline : '\n' ∉ "\"Look, AT\"desk  \"\"old man".toList := by decide
  have hsaid : compile "\"Look, AT\"desk  \"\"old man" =
      [.literal "look", .literal "at", .symbol "desk", .symbol "\"\"old", .symbol "man"] := by
    decide +kernel
  have hsome : compile "\"Look, AT\"desk  \"\"old man" ≠ [] := by simp [hsaid]
  refine ⟨⟨hne, hplain, compile_describe.1 _ hne hplain⟩, hline, hsome, ?_⟩
  have hagain := compile_describe.2 _ hline hsome
  rw [hsaid] at hagain
  exact hagain

/-- On two lines there may be two open quotes, and what is shown of them on one line is a span. -/
example : compile (describe (compile "\"old\n\"man")) ≠ compile "\"old\n\"man" := by
  decide +kernel

end Pattern

end TextAdventure
