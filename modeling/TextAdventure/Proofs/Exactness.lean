import TextAdventure.Proofs.Dispatch

/-!
# A rule takes its words, no more and no fewer

A rule that matches some words matches neither a longer nor a shorter input of the same beginning.
This file says so for the two ways in which an input can be changed at its end.

*More words.* If the first word behind the old end is one that no symbol of the rule knows
(`TextAdventure.Sense.Knows`), then every symbol takes the segment that it took before, and the rule
fails at the old end, with exactly the new words left over (`TextAdventure.Rule.attempt_extended`).

*Fewer words.* Let the symbols of the rule all stand for entities, and let the input be cut where
the last token began (`TextAdventure.Match.reach?`) or before. A cut between two segments leaves a
token without words. A cut inside a segment leaves some of the words that name an entity, and they
may name it still or be ambiguous; but if they name anything, it is this entity, and the segment
takes all the words that are left (`TextAdventure.Reference.Names.rest_eq_nil_of_prefix`), so that
the tokens behind it go without. In each case the rule fails
(`TextAdventure.Rule.attempt_truncated`).
-/

namespace TextAdventure

/-- What a symbol takes is settled by the words ahead. -/
theorem Sense.Takes.unique {s : Sense} {segment segment' rest rest' : List String} {v v' : Value}
    (h : s.Takes segment rest v) (h' : s.Takes segment' rest' v')
    (hahead : segment ++ rest = segment' ++ rest') : segment = segment' ∧ rest = rest' := by
  have hout : s.outcome ((segment ++ rest).map .text) (0 : ℕ) = .resolved v (0 + segment.length) :=
    outcome_eq_resolved_iff.mpr ⟨segment, rest, rfl, h, rfl⟩
  have hout' : s.outcome ((segment ++ rest).map .text) (0 : ℕ) =
      .resolved v' (0 + segment'.length) :=
    outcome_eq_resolved_iff.mpr ⟨segment', rest', hahead, h', rfl⟩
  have hplace := (Outcome.resolved.inj (hout.symm.trans hout')).2
  exact List.append_inj hahead (by omega)

/-- A rule comes to a verdict exactly if its tokens do. -/
theorem Rule.attempt_eq_ok_iff {r : Rule} {resolves : String → Option Resolve}
    {input : List Document} {start : Int} {verdict : Verdict} :
    r.attempt resolves input start = .ok ⟨r, verdict⟩ ↔
      Match.tokens resolves input r.tokens start = .ok verdict := by
  rw [attempt]
  cases Match.tokens resolves input r.tokens start with
  | error f => simp
  | ok verdict' => simp

/-! ### More words -/

/-- Whether a symbol may stand for something that has the word `u`. -/
def Sense.Knows (u : String) : Sense → Prop
  | .entities scope _ => ∃ e ∈ scope, u ∈ e.words
  | .phrases known => ∃ p ∈ known, u ∈ Text.words p

section Extended

variable {u : String} {us : List String}

/-- A segment names its entity just as well if words follow that begin with none of the entity's. -/
theorem Reference.Names.append {scope : List Entity} {e : Entity} {segment rest : List String}
    (h : Names scope e segment rest) (hu : u ∉ e.words) :
    Names scope e segment (rest ++ u :: us) where
  nonempty := h.nonempty
  called := h.called
  alone := h.alone
  ended := by
    intro w hw
    cases rest with
    | nil =>
      obtain rfl : u = w := by simpa using hw
      exact hu
    | cons first others => exact h.ended w hw

/-- A list of words opens a longer input only if it opens the shorter one or has the word at which
the longer one goes on. -/
theorem prefix_of_prefix_append_cons {ps ws : List String} (h : ps <+: ws ++ u :: us)
    (hu : u ∉ ps) : ps <+: ws := by
  rcases List.prefix_or_prefix_of_prefix h (List.prefix_append ws (u :: us)) with hpre | hpre
  · exact hpre
  · obtain ⟨more, rfl⟩ := hpre
    have hmore : more <+: u :: us := (List.prefix_append_right_inj ws).mp h
    cases more with
    | nil => simp
    | cons m more =>
      obtain rfl : m = u := (List.cons_prefix_cons.mp hmore).1
      simp at hu

/-- No phrase comes to fit because of words that begin with a word of no phrase, not even one that
did not fit because the input was over. -/
theorem Phrase.Opens.append {known : List String} {p : String} {segment rest : List String}
    (h : Opens known p segment rest) (hu : ∀ q ∈ known, u ∉ Text.words q) :
    Opens known p segment (rest ++ u :: us) where
  words := h.words
  first := by
    obtain ⟨before, after, hknown, hbefore⟩ := h.first
    refine ⟨before, after, hknown, fun q hq hpre => hbefore q hq ?_⟩
    have hq' : q ∈ known := hknown ▸ List.mem_append_left _ hq
    rw [← List.append_assoc] at hpre
    exact prefix_of_prefix_append_cons hpre (hu q hq')

/-- **A symbol takes the same segment** when words are appended of which it does not know the
first. -/
theorem Sense.Takes.append {s : Sense} {segment rest : List String} {v : Value}
    (h : s.Takes segment rest v) (hu : ¬s.Knows u) : s.Takes segment (rest ++ u :: us) v := by
  cases s with
  | entities scope plain =>
    obtain ⟨e, hv, hnames⟩ := h
    obtain ⟨before, after, hscope, -⟩ := hnames.alone
    have he : e ∈ scope := by simp [hscope]
    exact ⟨e, hv, hnames.append fun hmem => hu ⟨e, he, hmem⟩⟩
  | phrases known =>
    obtain ⟨p, hv, hopens⟩ := h
    exact ⟨p, hv, hopens.append fun q hq hmem => hu ⟨q, hq, hmem⟩⟩

/-- **Trying tokens on more words than they read**: they read what they read before, and fail at the
old end. -/
theorem Match.tokens_of_reads_append {resolves : String → Option Resolve}
    {sense : String → Option Sense} {tokens : List Token} {ahead : List String} {vs : List Value}
    (hreads : Reads sense tokens ahead vs)
    (h : ∀ name ∈ Pattern.symbolsOf tokens, ∀ s, sense name = some s →
      resolves name = some s.resolve ∧ ¬s.Knows u)
    (ws : List String) (n : ℕ) (hahead : ws.drop n = ahead ++ u :: us) :
    Match.tokens resolves (ws.map .text) tokens n =
      .ok (.failed .inputRemaining ((u :: us).map .text)) := by
  induction hreads generalizing n with
  | done =>
    rw [Match.tokens, atEnd, itemAt?_words, itemsFrom_words, hahead]
    rfl
  | @literal word tokens rest vs _ ih =>
    have hrest : ws.drop (n + 1) = rest ++ u :: us := drop_add_one hahead
    rw [Match.tokens, itemAt?_words, hahead]
    simpa using ih h (n + 1) hrest
  | @symbol name s tokens segment rest v vs hs hv _ ih =>
    obtain ⟨hres, hu⟩ := h name (List.mem_cons_self ..) s hs
    rw [List.append_assoc] at hahead
    have hout : s.outcome (ws.map .text) n = .resolved v (n + segment.length) :=
      Sense.outcome_eq_resolved_iff.mpr ⟨segment, _, hahead, hv.append hu, rfl⟩
    have hrun := ih (fun name hname => h name (List.mem_cons_of_mem _ hname)) _
      (drop_add_length hahead)
    rw [Int.natCast_add] at hrun
    rw [Match.tokens, hres]
    simp only [s.resolve_words ws n, hout, hrun, Verdict.after]

end Extended

/-- **Extensions fail.** Let a rule whose symbols have senses match the words from a place on. When
words are appended, the first of which no symbol of the rule knows, the rule fails because input
remains, and the words left over are those that were appended. -/
theorem Rule.attempt_extended (r : Rule) (registry : Registry) (world : Option World)
    (ws : List String) (start : ℕ) (vs : List Value) (u : String) (us : List String)
    (hstart : start ≤ ws.length)
    (hsense : ∀ name ∈ r.symbols, (registry.sense? world name).isSome)
    (hmatch : r.attempt (registry.resolves world) (ws.map .text) start = .ok ⟨r, .matched vs⟩)
    (hu : ∀ name ∈ r.symbols, ∀ s, registry.sense? world name = some s → ¬s.Knows u) :
    r.attempt (registry.resolves world) ((ws ++ u :: us).map .text) start =
      .ok ⟨r, .failed .inputRemaining ((u :: us).map .text)⟩ := by
  have hresolves : ∀ name ∈ Pattern.symbolsOf r.tokens, ∃ s,
      registry.sense? world name = some s ∧ registry.resolves world name = some s.resolve :=
    fun name hname => Registry.exists_sense_of_isSome (hsense name hname)
  have hreads := (Match.tokens_eq_matched_iff r.tokens ws start vs hresolves).mp
    (attempt_eq_ok_iff.mp hmatch)
  have hahead : (ws ++ u :: us).drop start = ws.drop start ++ u :: us :=
    List.drop_append_of_le_length hstart
  exact attempt_eq_ok_iff.mpr <| Match.tokens_of_reads_append hreads
    (fun name hname s hs => ⟨Registry.resolves_of_sense? hs, hu name hname s hs⟩) _ _ hahead

/-- In the parlour, the words of both objects are known, and *now* is none of them. -/
theorem Parlour.not_knows_now : ∀ name ∈ giveTo.symbols, ∀ s,
    registry.sense? (some (.ofObjects [key, man])) name = some s → ¬s.Knows "now" := by
  intro name hname s hs
  obtain rfl : name = "single" := by simpa [Rule.symbols, giveTo, Pattern.symbolsOf] using hname
  obtain rfl := Option.some.inj hs
  rintro ⟨e, he, hnow⟩
  rcases List.mem_pair.mp he with rfl | rfl
  · exact absurd hnow (by decide)
  · exact absurd hnow (by decide)

open Parlour in
/-- *Give key to man* is matched, and *give key to man now* leaves *now* over. -/
theorem Rule.attempt_give_key_to_man_now :
    1 ≤ ["give", "key", "to", "man"].length ∧
      (∀ name ∈ giveTo.symbols, (registry.sense? (some (.ofObjects [key, man])) name).isSome) ∧
      giveTo.attempt (registry.resolves (some (.ofObjects [key, man])))
          (["give", "key", "to", "man"].map .text) 1 =
        .ok ⟨giveTo, .matched [.entity (.object key), .entity (.object man)]⟩ ∧
      giveTo.attempt (registry.resolves (some (.ofObjects [key, man])))
          (["give", "key", "to", "man", "now"].map .text) 1 =
        .ok ⟨giveTo, .failed .inputRemaining [.text "now"]⟩ := by
  have hlength : 1 ≤ ["give", "key", "to", "man"].length := by decide
  have hsense : ∀ name ∈ giveTo.symbols,
      (registry.sense? (some (.ofObjects [key, man])) name).isSome := by decide
  have hmatch : giveTo.attempt (registry.resolves (some (.ofObjects [key, man])))
      (["give", "key", "to", "man"].map .text) 1 =
      .ok ⟨giveTo, .matched [.entity (.object key), .entity (.object man)]⟩ := rfl
  exact ⟨hlength, hsense, hmatch, attempt_extended giveTo registry (some (.ofObjects [key, man]))
    ["give", "key", "to", "man"] 1 _ "now" [] hlength hsense hmatch not_knows_now⟩

/-! ### Fewer words -/

namespace Reference.Names

variable {scope : List Entity} {e e' : Entity} {segment segment' rest rest' : List String}

/-- A segment names its entity just as well if the words behind it are cut off somewhere. -/
theorem of_prefix (h : Names scope e segment rest) (hpre : rest' <+: rest) :
    Names scope e segment rest' where
  nonempty := h.nonempty
  called := h.called
  alone := h.alone
  ended := by
    intro w hw
    obtain ⟨behind, rfl⟩ := hpre
    cases rest' with
    | nil => simp at hw
    | cons first others => exact h.ended w hw

/-- **A cut inside a name leaves nothing behind it.** If the input ends inside a segment that names
an entity, then whatever is still named there takes all the words that are left. -/
theorem rest_eq_nil_of_prefix (h : Names scope e segment rest)
    (h' : Names scope e' segment' rest') (hpre : segment' ++ rest' <+: segment) : rest' = [] := by
  obtain ⟨before, after, rfl, -⟩ := h.alone
  obtain ⟨before', after', hscope, halone⟩ := h'.alone
  have hcalled : ∀ w ∈ segment' ++ rest', w ∈ e.words := fun w hw => h.called w (hpre.subset hw)
  have he : e ∈ before' ++ e' :: after' := by simp [← hscope]
  have hmem : e = e' ∨ e ∈ before' ++ after' := by
    rcases List.mem_append.mp he with hb | ha
    · exact Or.inr (List.mem_append_left _ hb)
    · exact (List.mem_cons.mp ha).imp_right (List.mem_append_right _)
  rcases hmem with rfl | hother
  · -- the entity itself goes on with the word behind the segment, if there is one
    cases rest' with
    | nil => rfl
    | cons w others => exact absurd (hcalled w (by simp)) (h'.ended w rfl)
  · -- nothing else can be named there, because the entity covers the segment, too
    obtain ⟨w, hw, hout⟩ := halone e hother
    exact absurd (hcalled w (List.mem_append_left _ hw)) hout

end Reference.Names

namespace Sense

/-- Whether a symbol stands for an entity of a scope. -/
def IsEntities : Sense → Prop
  | .entities _ _ => True
  | .phrases _ => False

namespace Takes

variable {s : Sense} {segment segment' rest rest' : List String} {v v' : Value}

/-- A symbol for entities takes a word at least. -/
theorem ne_nil (h : s.Takes segment rest v) (hs : s.IsEntities) : segment ≠ [] := by
  cases s with
  | entities scope plain =>
    obtain ⟨e, -, hnames⟩ := h
    exact hnames.nonempty
  | phrases known => exact hs.elim

/-- A symbol for entities takes the same segment if the words behind it are cut off somewhere. -/
theorem of_prefix (h : s.Takes segment rest v) (hs : s.IsEntities) (hpre : rest' <+: rest) :
    s.Takes segment rest' v := by
  cases s with
  | entities scope plain =>
    obtain ⟨e, hv, hnames⟩ := h
    exact ⟨e, hv, hnames.of_prefix hpre⟩
  | phrases known => exact hs.elim

/-- If the input ends inside the segment that a symbol for entities takes, the symbol takes nothing
any more or all that is left. -/
theorem rest_eq_nil_of_prefix (h : s.Takes segment rest v) (hs : s.IsEntities)
    (h' : s.Takes segment' rest' v') (hpre : segment' ++ rest' <+: segment) : rest' = [] := by
  cases s with
  | entities scope plain =>
    obtain ⟨e, -, hnames⟩ := h
    obtain ⟨e', -, hnames'⟩ := h'
    exact hnames.rest_eq_nil_of_prefix hnames' hpre
  | phrases known => exact hs.elim

end Takes

end Sense

namespace Match

variable (resolves : String → Option Resolve) (input : List Document)

/-- The place behind a token that fits at a place. -/
def next? (place : Int) : Token → Option Int
  | .literal word => if (itemAt? input place).any (·.isText word) then some (place + 1) else none
  | .symbol name =>
    match resolves name with
    | none => none
    | some resolve =>
      match resolve input place with
      | .ok ⟨.resolved _ next, _⟩ => some next
      | _ => none

/-- The place that the matcher reaches with some tokens, if they all fit: where the token behind
them begins. -/
def reach? : List Token → Int → Option Int
  | [], place => some place
  | token :: rest, place =>
    match next? resolves input place token with
    | some next => reach? rest next
    | none => none

variable {resolves} {ws : List String} {n : ℕ} {tokens : List Token} {rest : List String}

theorem reach?_literal {word : String} (hahead : ws.drop n = word :: rest) :
    reach? resolves (ws.map .text) (.literal word :: tokens) n =
      reach? resolves (ws.map .text) tokens (n + 1 : ℕ) := by
  rw [reach?, next?, itemAt?_words, hahead]
  simp

theorem reach?_symbol {name : String} {s : Sense} {segment : List String} {v : Value}
    (hres : resolves name = some s.resolve) (hv : s.Takes segment rest v)
    (hahead : ws.drop n = segment ++ rest) :
    reach? resolves (ws.map .text) (.symbol name :: tokens) n =
      reach? resolves (ws.map .text) tokens (n + segment.length : ℕ) := by
  have hout : s.outcome (ws.map .text) n = .resolved v (n + segment.length) :=
    Sense.outcome_eq_resolved_iff.mpr ⟨segment, rest, hahead, hv, rfl⟩
  rw [reach?, next?, hres]
  simp only [s.resolve_words ws n, hout, Int.natCast_add]

end Match

namespace Reads

variable {resolves : String → Option Resolve} {sense : String → Option Sense} {tokens : List Token}
  {ahead : List String} {vs : List Value}

/-- Tokens for entities and literals read no empty input. -/
theorem ne_nil (h : Reads sense tokens ahead vs) (hne : tokens ≠ [])
    (hs : ∀ name ∈ Pattern.symbolsOf tokens, ∀ s, sense name = some s → s.IsEntities) :
    ahead ≠ [] := by
  cases h with
  | done => exact absurd rfl hne
  | literal _ => simp
  | symbol hsense hv _ =>
    have hsegment := hv.ne_nil (hs _ (List.mem_cons_self ..) _ hsense)
    simp [hsegment]

/-- **One token less**: if a symbol for entities and the tokens behind it read an input that ends in
or behind the segment that the symbol took, then the tokens behind it read an input that ends
likewise. -/
theorem exists_prefix_of_symbol {name : String} {s : Sense} {segment read tail cut : List String}
    {v : Value} (hs : sense name = some s) (hentities : s.IsEntities)
    (hv : s.Takes segment (read ++ tail) v) (hcut : cut <+: segment ++ read)
    (hreads : Reads sense (.symbol name :: tokens) cut vs) :
    ∃ cut' vs', cut' <+: read ∧ Reads sense tokens cut' vs' := by
  obtain ⟨segment', rest', v', vs', rfl, -, hv', hreads'⟩ := (symbol_iff hs).mp hreads
  rcases List.prefix_or_prefix_of_prefix hcut (List.prefix_append segment read) with hin | hbehind
  · -- the input ends inside the segment, and the tokens behind it go without words
    obtain rfl := hv.rest_eq_nil_of_prefix hentities hv' hin
    exact ⟨[], vs', List.nil_prefix, hreads'⟩
  · -- the symbol takes the segment as before
    obtain ⟨cut', hcut'⟩ := hbehind
    have hpre : cut' <+: read := (List.prefix_append_right_inj segment).mp (hcut' ▸ hcut)
    have htakes := hv.of_prefix hentities (hpre.trans (List.prefix_append read tail))
    obtain ⟨-, rfl⟩ := htakes.unique hv' hcut'
    exact ⟨_, vs', hpre, hreads'⟩

/-- **Where the last token begins, and what is read up to there.** Words that are read by tokens for
entities and literals come in two parts: the matcher has read the first when it reaches the last
token, and the second is what this token reads. The tokens read no input that ends in the first part
or with it. -/
theorem exists_reach? (hreads : Reads sense tokens ahead vs) (hne : tokens ≠ [])
    (h : ∀ name ∈ Pattern.symbolsOf tokens, ∀ s, sense name = some s →
      resolves name = some s.resolve ∧ s.IsEntities)
    (ws : List String) (n : ℕ) (hahead : ws.drop n = ahead) :
    ∃ read tail, ahead = read ++ tail ∧ tail ≠ [] ∧
      Match.reach? resolves (ws.map .text) tokens.dropLast n = some ((n + read.length : ℕ) : Int) ∧
      (∀ word, tokens.getLast? = some (.literal word) → tail = [word]) ∧
      ∀ cut, cut <+: read → ∀ vs', ¬Reads sense tokens cut vs' := by
  have hentities : ∀ name ∈ Pattern.symbolsOf tokens, ∀ s, sense name = some s → s.IsEntities :=
    fun name hname s hs => (h name hname s hs).2
  induction hreads generalizing n with
  | done => exact absurd rfl hne
  | @literal word tokens rest vs hrest ih =>
    rcases eq_or_ne tokens [] with rfl | hmore
    · -- the literal is the last token
      obtain ⟨rfl, -⟩ := nil_iff.mp hrest
      refine ⟨[], [word], rfl, by simp, rfl, by simp, fun cut hcut vs' hcutreads => ?_⟩
      exact hcutreads.ne_nil hne hentities (List.prefix_nil.mp hcut)
    · obtain ⟨read, tail, rfl, htail, hreach, hlast, hcuts⟩ :=
        ih hmore h (n + 1) (drop_add_one hahead) hentities
      refine ⟨word :: read, tail, rfl, htail, ?_, ?_, fun cut hcut vs' hcutreads => ?_⟩
      · rw [List.dropLast_cons_of_ne_nil hmore, Match.reach?_literal hahead, hreach,
          List.length_cons, Nat.add_right_comm, Nat.add_assoc]
      · rwa [List.getLast?_cons_of_ne_nil hmore]
      · obtain ⟨cut', rfl, hcutreads'⟩ := literal_iff.mp hcutreads
        exact hcuts cut' (List.cons_prefix_cons.mp hcut).2 vs' hcutreads'
  | @symbol name s tokens segment rest v vs hs hv hrest ih =>
    obtain ⟨hres, hsentities⟩ := h name (List.mem_cons_self ..) s hs
    rcases eq_or_ne tokens [] with rfl | hmore
    · -- the symbol is the last token
      obtain ⟨rfl, -⟩ := nil_iff.mp hrest
      refine ⟨[], segment ++ [], rfl, ?_, rfl, by simp, fun cut hcut vs' hcutreads => ?_⟩
      · simpa using hv.ne_nil hsentities
      · exact hcutreads.ne_nil hne hentities (List.prefix_nil.mp hcut)
    · obtain ⟨read, tail, rfl, htail, hreach, hlast, hcuts⟩ :=
        ih hmore (fun name hname => h name (List.mem_cons_of_mem _ hname)) _
          (drop_add_length hahead) fun name hname => hentities name (List.mem_cons_of_mem _ hname)
      refine ⟨segment ++ read, tail, by simp, htail, ?_, ?_, fun cut hcut vs' hcutreads => ?_⟩
      · rw [List.dropLast_cons_of_ne_nil hmore, Match.reach?_symbol hres hv hahead, hreach,
          List.length_append, Nat.add_assoc]
      · rwa [List.getLast?_cons_of_ne_nil hmore]
      · obtain ⟨cut', vs'', hpre, hcutreads'⟩ :=
          exists_prefix_of_symbol hs hsentities hv hcut hcutreads
        exact hcuts cut' hpre vs'' hcutreads'

end Reads

/-- **Truncations fail.** Let a rule that is not blank and whose symbols all stand for entities
match the words from a place on. It fails on every input that is cut where the last token began to
read, or before; if the last token is a literal, it fails on every input that is cut at all. -/
theorem Rule.attempt_truncated (r : Rule) (registry : Registry) (world : Option World)
    (ws : List String) (start : ℕ) (vs : List Value) (hne : r.tokens ≠ [])
    (hsense : ∀ name ∈ r.symbols, ∃ scope plain,
      registry.sense? world name = some (.entities scope plain))
    (hmatch : r.attempt (registry.resolves world) (ws.map .text) start = .ok ⟨r, .matched vs⟩) :
    ∃ q : ℕ, Match.reach? (registry.resolves world) (ws.map .text) r.tokens.dropLast start =
        some (q : Int) ∧ start ≤ q ∧ q < ws.length ∧
      (∀ k, start ≤ k → k ≤ q →
        isFailure (r.attempt (registry.resolves world) ((ws.take k).map .text) start)) ∧
      ∀ word, r.tokens.getLast? = some (.literal word) → ∀ k, start ≤ k → k < ws.length →
        isFailure (r.attempt (registry.resolves world) ((ws.take k).map .text) start) := by
  have hresolves : ∀ name ∈ Pattern.symbolsOf r.tokens, ∃ s,
      registry.sense? world name = some s ∧ registry.resolves world name = some s.resolve := by
    intro name hname
    obtain ⟨scope, plain, hs⟩ := hsense name hname
    exact ⟨_, hs, Registry.resolves_of_sense? hs⟩
  have hentities : ∀ name ∈ Pattern.symbolsOf r.tokens, ∀ s, registry.sense? world name = some s →
      registry.resolves world name = some s.resolve ∧ s.IsEntities := by
    intro name hname s hs
    obtain ⟨scope, plain, hs'⟩ := hsense name hname
    obtain rfl := Option.some.inj (hs'.symm.trans hs)
    exact ⟨Registry.resolves_of_sense? hs, trivial⟩
  have hreads := (Match.tokens_eq_matched_iff r.tokens ws start vs hresolves).mp
    (attempt_eq_ok_iff.mp hmatch)
  obtain ⟨read, tail, hahead, htail, hreach, hlast, hcuts⟩ :=
    hreads.exists_reach? hne hentities ws start rfl
  have hlength : ws.length = start + read.length + tail.length := by
    have htaillength := List.length_pos_iff.mpr htail
    have := congrArg List.length hahead
    rw [List.length_drop, List.length_append] at this
    omega
  -- a cut up to the last token has a verdict, and it is not that the rule matches
  have hfails : ∀ k, start ≤ k → k ≤ start + read.length →
      isFailure (r.attempt (registry.resolves world) ((ws.take k).map .text) start) := by
    intro k hstart hk
    obtain ⟨verdict, hrun, -⟩ := Match.exists_verdict r.tokens (ws.take k) start hresolves
    rw [attempt_eq_ok_iff.mpr hrun]
    cases verdict with
    | failed cause leftover => rfl
    | matched vs' =>
      have hcutreads := (Match.tokens_eq_matched_iff r.tokens _ start vs' hresolves).mp hrun
      rw [List.drop_take, hahead, List.take_append_of_le_length (by omega)] at hcutreads
      exact absurd hcutreads (hcuts _ (List.take_prefix _ _) vs')
  refine ⟨start + read.length, hreach, by omega, ?_, hfails, fun word hword k hstart hk => ?_⟩
  · have htaillength := List.length_pos_iff.mpr htail
    omega
  · rw [hlast word hword, List.length_singleton] at hlength
    exact hfails k hstart (by omega)

open Parlour in
/-- *Give old key to man* is matched, and the man is named from the fourth word on. However the
command is cut before him, even inside the name of the key, it is not matched. -/
theorem Rule.attempt_give_old_key_to :
    giveTo.tokens ≠ [] ∧
      (∀ name ∈ giveTo.symbols, ∃ scope plain,
        registry.sense? (some (.ofObjects [key, man])) name = some (.entities scope plain)) ∧
      giveTo.attempt (registry.resolves (some (.ofObjects [key, man])))
          (["give", "old", "key", "to", "man"].map .text) 1 =
        .ok ⟨giveTo, .matched [.entity (.object key), .entity (.object man)]⟩ ∧
      ∀ k, 1 ≤ k → k ≤ 4 → isFailure (giveTo.attempt
        (registry.resolves (some (.ofObjects [key, man])))
        ((["give", "old", "key", "to", "man"].take k).map .text) 1) := by
  have hne : giveTo.tokens ≠ [] := by decide
  have hsense : ∀ name ∈ giveTo.symbols, ∃ scope plain,
      registry.sense? (some (.ofObjects [key, man])) name = some (.entities scope plain) := by
    intro name hname
    obtain rfl : name = "single" := by simpa [Rule.symbols, giveTo, Pattern.symbolsOf] using hname
    exact ⟨_, _, rfl⟩
  have hmatch : giveTo.attempt (registry.resolves (some (.ofObjects [key, man])))
      (["give", "old", "key", "to", "man"].map .text) 1 =
      .ok ⟨giveTo, .matched [.entity (.object key), .entity (.object man)]⟩ := rfl
  obtain ⟨q, hreach, -, -, hfails, -⟩ := attempt_truncated giveTo registry
    (some (.ofObjects [key, man])) ["give", "old", "key", "to", "man"] 1 _ hne hsense hmatch
  obtain rfl : q = 4 := Int.ofNat.inj (Option.some.inj hreach).symm
  exact ⟨hne, hsense, hmatch, hfails⟩

end TextAdventure
