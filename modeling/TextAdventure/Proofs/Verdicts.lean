import TextAdventure.Proofs.Exactness

/-!
# How an attempt ends

A game may bring resolvers of its own, and they may do as they like: take any number of words or
none, go back, name a place outside the input, and leave their own cursor anywhere. This file says
what trying a rule comes to with any resolvers that give an outcome at all.

The tokens of the rule are gone through once, from place to place (`TextAdventure.Match.Leads`): a
literal that is the next word leads one place on, and a symbol leads to the place that its resolver
returns. This goes on to the end of the rule, or as far as the first token that does not lead on.
There the attempt stops, for one of four reasons (`TextAdventure.Match.Stops`): a literal is not the
next word, a symbol has no resolver, its resolver refuses, or the tokens are over and there is a
word left.

The main statement, `TextAdventure.Rule.attempt_step_by_step`, is that an attempt always has a
verdict and that it is this one: the rule matches with the values that were met on the way if the
place behind its last token is outside the input, and it fails with the reason and the details of
the stop and with the words from that place on if it stops. The cursor of a resolver occurs nowhere
in it. If besides no resolver goes back, the places never go back either, and what is left over of
the input is an end of what was there.
-/

namespace TextAdventure

/-- There is no item outside a sequence. -/
theorem itemAt?_eq_none_iff {α : Type} {items : List α} {place : Int} :
    itemAt? items place = none ↔ place < 0 ∨ items.length ≤ place := by
  rw [itemAt?]
  split_ifs with h
  · simp [h]
  · rw [List.getElem?_eq_none_iff]
    omega

theorem itemsFrom_eq_drop_max {α : Type} (items : List α) (place : Int) :
    itemsFrom items place = items.drop (max place 0).toNat := by
  rw [itemsFrom]
  congr 1
  omega

/-! ### Values met on the way -/

/-- The verdict on a rule that goes on after some symbols, from their values and the verdict on the
rest of the rule. -/
def Verdict.afterAll (vs : List Value) (verdict : Verdict) : Verdict :=
  vs.foldr (fun v verdict => verdict.after v) verdict

@[simp] theorem Verdict.afterAll_matched (vs params : List Value) :
    (Verdict.matched params).afterAll vs = .matched (vs ++ params) := by
  induction vs with
  | nil => rfl
  | cons v vs ih => rw [afterAll, List.foldr_cons, ← afterAll, ih, after, List.cons_append]

@[simp] theorem Verdict.afterAll_failed (vs : List Value) (cause : Failure)
    (leftover : List Document) : (Verdict.failed cause leftover).afterAll vs =
      .failed cause leftover := by
  induction vs with
  | nil => rfl
  | cons v vs ih => rw [afterAll, List.foldr_cons, ← afterAll, ih, after]

namespace Match

/-! ### From place to place -/

section Ways

variable (resolves : String → Option Resolve) (input : List Document)

/-- **Tokens lead from place to place**, with the values of the symbols among them. -/
inductive Leads : List Token → Int → List Value → Int → Prop
  /-- Without tokens one stays where one is. -/
  | stay {place : Int} : Leads [] place [] place
  /-- A literal that is the next word leads one place on. -/
  | literal {word : String} {tokens : List Token} {place last : Int} {vs : List Value}
      (hword : itemAt? input place = some (.text word)) (h : Leads tokens (place + 1) vs last) :
      Leads (.literal word :: tokens) place vs last
  /-- A symbol that is resolved leads to the place that its resolver returns. -/
  | symbol {name : String} {resolve : Resolve} {tokens : List Token} {place next cursor last : Int}
      {v : Value} {vs : List Value} (hres : resolves name = some resolve)
      (hout : resolve input place = .ok ⟨.resolved v next, cursor⟩)
      (h : Leads tokens next vs last) :
      Leads (.symbol name :: tokens) place (v :: vs) last

/-- Whether all resolvers give an outcome on an input, wherever they are asked. -/
def AlwaysAnswers : Prop :=
  ∀ name resolve, resolves name = some resolve →
    ∀ place, ∃ resolution, resolve input place = .ok resolution

/-- Whether no resolver returns a place before the one where it was asked. -/
def NeverGoesBack : Prop :=
  ∀ name resolve, resolves name = some resolve → ∀ place v next cursor,
    resolve input place = .ok ⟨.resolved v next, cursor⟩ → place ≤ next

/-- **Tokens stop at a place**, for a reason and with details. -/
inductive Stops : List Token → Int → Document → Details → Prop
  /-- A literal is not the next word; if there is none, nothing is what was got. -/
  | literal {word : String} {tokens : List Token} {place : Int}
      (h : itemAt? input place ≠ some (.text word)) :
      Stops (.literal word :: tokens) place (.text "literal_mismatch")
        [("expected", .text word), ("got", (itemAt? input place).getD .null)]
  /-- A symbol has no resolver. -/
  | unregistered {name : String} {tokens : List Token} {place : Int} (h : resolves name = none) :
      Stops (.symbol name :: tokens) place (.text "unregistered_symbol") [("symbol", .text name)]
  /-- The resolver of a symbol refuses; the symbol is added to its details. -/
  | refused {name : String} {resolve : Resolve} {tokens : List Token} {place cursor : Int}
      {cause : Refusal} (hres : resolves name = some resolve)
      (hout : resolve input place = .ok ⟨.refused cause, cursor⟩) :
      Stops (.symbol name :: tokens) place cause.reason
        (cause.details.insert "symbol" (.text name))
  /-- The tokens are over, and a word is left. -/
  | remaining {place : Int} (h : itemAt? input place ≠ none) :
      Stops [] place (.text "input_remaining") []

end Ways

variable {resolves : String → Option Resolve} {input : List Document}
  {before rest tokens : List Token}
  {place last : Int} {vs : List Value}

/-- Where tokens lead is the place that the matcher reaches with them. -/
theorem reach?_eq_some_iff :
    reach? resolves input tokens place = some last ↔
      ∃ vs, Leads resolves input tokens place vs last := by
  constructor
  · intro h
    induction tokens generalizing place with
    | nil =>
      obtain rfl := Option.some.inj h
      exact ⟨[], .stay⟩
    | cons token tokens ih =>
      rw [reach?] at h
      split at h
      · rename_i next hnext
        obtain ⟨vs, hvs⟩ := ih h
        cases token with
        | literal word =>
          rw [next?] at hnext
          split_ifs at hnext with hword
          obtain ⟨d, hd, htext⟩ := (Option.any_eq_true _ _).mp hword
          obtain rfl := Document.isText_iff.mp htext
          obtain rfl := Option.some.inj hnext
          exact ⟨vs, .literal hd hvs⟩
        | symbol name =>
          rw [next?] at hnext
          split at hnext
          · simp at hnext
          · rename_i resolve hres
            split at hnext
            · rename_i v next' cursor hout
              obtain rfl := Option.some.inj hnext
              exact ⟨v :: vs, .symbol hres hout hvs⟩
            · simp at hnext
      · simp at h
  · rintro ⟨vs, h⟩
    induction h with
    | stay => rfl
    | literal hword _ ih =>
      rw [reach?, next?, hword]
      simpa using ih
    | symbol hres hout _ ih =>
      rw [reach?, next?, hres]
      simpa only [hout] using ih

theorem Leads.last_unique {last' : Int} {vs' : List Value}
    (h : Leads resolves input tokens place vs last)
    (h' : Leads resolves input tokens place vs' last') : last = last' := by
  have hreach := reach?_eq_some_iff.mpr ⟨vs, h⟩
  have hreach' := reach?_eq_some_iff.mpr ⟨vs', h'⟩
  exact Option.some.inj (hreach.symm.trans hreach')

/-- Tokens that lead somewhere lead there by the way of the first of them. -/
theorem Leads.exists_of_append (h : Leads resolves input (before ++ rest) place vs last) :
    ∃ vs₁ next vs₂, Leads resolves input before place vs₁ next ∧
      Leads resolves input rest next vs₂ last := by
  induction before generalizing place vs with
  | nil => exact ⟨[], place, vs, .stay, h⟩
  | cons token before ih =>
    cases h with
    | literal hword h =>
      obtain ⟨vs₁, next, vs₂, hfirst, hrest⟩ := ih h
      exact ⟨vs₁, next, vs₂, .literal hword hfirst, hrest⟩
    | symbol hres hout h =>
      obtain ⟨vs₁, next, vs₂, hfirst, hrest⟩ := ih h
      exact ⟨_ :: vs₁, next, vs₂, .symbol hres hout hfirst, hrest⟩

/-! ### What the matcher makes of it -/

/-- **The run as far as the tokens lead**: the verdict is that on the tokens behind, from the place
to which they lead, with the values that were met. -/
theorem tokens_of_leads (h : Leads resolves input before place vs last) (rest : List Token) :
    Match.tokens resolves input (before ++ rest) place =
      (Match.tokens resolves input rest last).map (Verdict.afterAll vs) := by
  induction h with
  | @stay place =>
    rw [List.nil_append]
    cases Match.tokens resolves input rest place with
    | error f => rfl
    | ok verdict => rfl
  | literal hword _ ih =>
    rw [List.cons_append, Match.tokens, hword]
    simpa using ih
  | @symbol name resolve tokens place next cursor last v vs hres hout _ ih =>
    rw [List.cons_append, Match.tokens, hres]
    simp only [hout, ih]
    cases Match.tokens resolves input rest last with
    | error f => rfl
    | ok verdict => rfl

/-- **The step that stops** gives its reason and its details, and the words from there on. -/
theorem tokens_of_stops {reason : Document} {details : Details}
    (h : Stops resolves input tokens place reason details) :
    ∃ cause, Match.tokens resolves input tokens place =
        .ok (.failed cause (itemsFrom input place)) ∧
      cause.reason = reason ∧ cause.details = details := by
  cases h with
  | @literal word rest place h =>
    refine ⟨.literalMismatch word (itemAt? input place), ?_, rfl, rfl⟩
    rw [Match.tokens]
    cases hitem : itemAt? input place with
    | none => rfl
    | some d =>
      have hno : d.isText word = false := by
        rw [← Bool.not_eq_true, Document.isText_iff]
        exact fun hd => h (by rw [hitem, hd])
      simp [hno]
  | @unregistered name rest place h =>
    refine ⟨.unregisteredSymbol name, ?_, rfl, rfl⟩
    rw [Match.tokens, h]
  | @refused name resolve rest place cursor cause hres hout =>
    refine ⟨.refused name cause, ?_, rfl, rfl⟩
    rw [Match.tokens, hres]
    simp only [hout]
  | remaining h =>
    obtain ⟨d, hd⟩ := Option.ne_none_iff_exists'.mp h
    exact ⟨.inputRemaining, by rw [Match.tokens, atEnd, hd], rfl, rfl⟩

/-- **The tokens lead out of the input or to a stop**, provided that all resolvers give an
outcome. -/
theorem leads_or_stops (h : AlwaysAnswers resolves input) (tokens : List Token) (place : Int) :
    (∃ vs last, Leads resolves input tokens place vs last ∧ itemAt? input last = none) ∨
      ∃ before rest vs last reason details, tokens = before ++ rest ∧
        Leads resolves input before place vs last ∧
        Stops resolves input rest last reason details := by
  induction tokens generalizing place with
  | nil =>
    by_cases hitem : itemAt? input place = none
    · exact Or.inl ⟨[], place, .stay, hitem⟩
    · exact Or.inr ⟨[], [], [], place, _, _, rfl, .stay, .remaining hitem⟩
  | cons token tokens ih =>
    cases token with
    | literal word =>
      by_cases hword : itemAt? input place = some (.text word)
      · rcases ih (place + 1) with ⟨vs, last, hleads, hitem⟩ |
          ⟨before, rest, vs, last, reason, details, rfl, hleads, hstops⟩
        · exact Or.inl ⟨vs, last, .literal hword hleads, hitem⟩
        · exact Or.inr ⟨_ :: before, rest, vs, last, reason, details, rfl, .literal hword hleads,
            hstops⟩
      · exact Or.inr ⟨[], _, [], place, _, _, rfl, .stay, .literal hword⟩
    | symbol name =>
      cases hres : resolves name with
      | none => exact Or.inr ⟨[], _, [], place, _, _, rfl, .stay, .unregistered hres⟩
      | some resolve =>
        obtain ⟨⟨out, cursor⟩, hout⟩ := h name resolve hres place
        cases out with
        | refused cause => exact Or.inr ⟨[], _, [], place, _, _, rfl, .stay, .refused hres hout⟩
        | resolved v next =>
          rcases ih next with ⟨vs, last, hleads, hitem⟩ |
            ⟨before, rest, vs, last, reason, details, rfl, hleads, hstops⟩
          · exact Or.inl ⟨v :: vs, last, .symbol hres hout hleads, hitem⟩
          · exact Or.inr ⟨_ :: before, rest, v :: vs, last, reason, details, rfl,
              .symbol hres hout hleads, hstops⟩

/-- Tokens that lead out of the input match. -/
theorem tokens_of_leads_out (hleads : Leads resolves input tokens place vs last)
    (hitem : itemAt? input last = none) :
    Match.tokens resolves input tokens place = .ok (.matched vs) := by
  have hrun := tokens_of_leads hleads []
  rw [List.append_nil, Match.tokens, atEnd, hitem] at hrun
  simpa [Except.map] using hrun

/-- Tokens that lead to a stop fail there. -/
theorem tokens_of_leads_stops {reason : Document} {details : Details}
    (hleads : Leads resolves input before place vs last)
    (hstops : Stops resolves input rest last reason details) :
    ∃ cause, Match.tokens resolves input (before ++ rest) place =
        .ok (.failed cause (input.drop (max last 0).toNat)) ∧
      cause.reason = reason ∧ cause.details = details := by
  obtain ⟨cause, hstop, hreason, hdetails⟩ := tokens_of_stops hstops
  have hrun := tokens_of_leads hleads rest
  rw [hstop, itemsFrom_eq_drop_max] at hrun
  exact ⟨cause, by simpa [Except.map] using hrun, hreason, hdetails⟩

/-- **When tokens match**: if they lead out of the input. -/
theorem tokens_eq_matched_iff_leads (h : AlwaysAnswers resolves input) :
    Match.tokens resolves input tokens place = .ok (.matched vs) ↔
      ∃ last, Leads resolves input tokens place vs last ∧ (last < 0 ∨ input.length ≤ last) := by
  simp only [← itemAt?_eq_none_iff]
  constructor
  · intro hrun
    rcases leads_or_stops h tokens place with ⟨vs', last, hleads, hitem⟩ |
      ⟨before, rest, vs', last, reason, details, rfl, hleads, hstops⟩
    · have hrun' := tokens_of_leads_out hleads hitem
      obtain rfl := Verdict.matched.inj (Except.ok.inj (hrun.symm.trans hrun'))
      exact ⟨last, hleads, hitem⟩
    · obtain ⟨cause, hrun', -, -⟩ := tokens_of_leads_stops hleads hstops
      simp [hrun] at hrun'
  · rintro ⟨last, hleads, hitem⟩
    exact tokens_of_leads_out hleads hitem

/-- **When tokens fail**: if some of them lead to a place where the others stop. -/
theorem exists_tokens_eq_failed_iff_stops (h : AlwaysAnswers resolves input) {reason : Document}
    {details : Details} {leftover : List Document} :
    (∃ cause, Match.tokens resolves input tokens place = .ok (.failed cause leftover) ∧
        cause.reason = reason ∧ cause.details = details) ↔
      ∃ before rest vs last, tokens = before ++ rest ∧ Leads resolves input before place vs last ∧
        Stops resolves input rest last reason details ∧
        leftover = input.drop (max last 0).toNat := by
  constructor
  · rintro ⟨cause, hrun, rfl, rfl⟩
    rcases leads_or_stops h tokens place with ⟨vs, last, hleads, hitem⟩ |
      ⟨before, rest, vs, last, reason, details, rfl, hleads, hstops⟩
    · simp [tokens_of_leads_out hleads hitem] at hrun
    · obtain ⟨cause', hrun', rfl, rfl⟩ := tokens_of_leads_stops hleads hstops
      obtain ⟨rfl, rfl⟩ := Verdict.failed.inj (Except.ok.inj (hrun.symm.trans hrun'))
      exact ⟨before, rest, vs, last, rfl, hleads, hstops, rfl⟩
  · rintro ⟨before, rest, vs, last, rfl, hleads, hstops, rfl⟩
    exact tokens_of_leads_stops hleads hstops

/-! ### Places that never go back -/

/-- **Places never go back** if no resolver does. -/
theorem Leads.le (hforward : NeverGoesBack resolves input)
    (h : Leads resolves input tokens place vs last) : place ≤ last := by
  induction h with
  | stay => exact le_rfl
  | literal _ _ ih => omega
  | symbol hres hout _ ih =>
    have hfirst := hforward _ _ hres _ _ _ _ hout
    omega

/-- The place behind some tokens is at most the place behind more of them. -/
theorem Leads.le_of_take {i j : ℕ} {vs' : List Value} {place' start : Int} (hij : i ≤ j)
    (hforward : NeverGoesBack resolves input)
    (h : Leads resolves input (tokens.take i) start vs place)
    (h' : Leads resolves input (tokens.take j) start vs' place') : place ≤ place' := by
  have hsplit : tokens.take j = tokens.take i ++ (tokens.take j).drop i := by
    conv_lhs => rw [← List.take_append_drop i (tokens.take j), List.take_take, min_eq_left hij]
  rw [hsplit] at h'
  obtain ⟨vs₁, next, vs₂, hfirst, hrest⟩ := h'.exists_of_append
  obtain rfl := h.last_unique hfirst
  exact hrest.le hforward

end Match

open Match in
/-- **How an attempt ends.** Let all resolvers give an outcome wherever they are asked. Then an
attempt at a rule has a verdict. The rule matches with some values if and only if all its tokens
lead on, with these values, and to a place outside the input. It fails for a reason, with details
and words left over, if and only if some of its tokens lead to a place where the others stop, for
this reason and with these details, and these are the words from there on. If no resolver returns a
place before the one where it was asked, then neither do the places of the attempt ever go back, and
the words left over are an end of those that were ahead at first. -/
theorem Rule.attempt_step_by_step (r : Rule) (resolves : String → Option Resolve)
    (input : List Document) (start : Int) (hanswers : AlwaysAnswers resolves input) :
    ∃ verdict, r.attempt resolves input start = .ok ⟨r, verdict⟩ ∧
      (∀ vs, verdict = .matched vs ↔ ∃ last, Leads resolves input r.tokens start vs last ∧
        (last < 0 ∨ input.length ≤ last)) ∧
      (∀ reason details leftover,
        (∃ cause, verdict = .failed cause leftover ∧ cause.reason = reason ∧
          cause.details = details) ↔
        ∃ before rest vs last, r.tokens = before ++ rest ∧
          Leads resolves input before start vs last ∧
          Stops resolves input rest last reason details ∧
          leftover = input.drop (max last 0).toNat) ∧
      (NeverGoesBack resolves input →
        (∀ i j vs vs' place place', i ≤ j → Leads resolves input (r.tokens.take i) start vs place →
          Leads resolves input (r.tokens.take j) start vs' place' → place ≤ place') ∧
        ∀ cause leftover, verdict = .failed cause leftover →
          leftover <:+ input.drop (max start 0).toNat) := by
  have hverdict : ∃ verdict, Match.tokens resolves input r.tokens start = .ok verdict := by
    rcases leads_or_stops hanswers r.tokens start with ⟨vs, last, hleads, hitem⟩ |
      ⟨before, rest, vs, last, reason, details, htokens, hleads, hstops⟩
    · exact ⟨_, tokens_of_leads_out hleads hitem⟩
    · obtain ⟨cause, hrun, -, -⟩ := tokens_of_leads_stops hleads hstops
      exact ⟨_, htokens ▸ hrun⟩
  obtain ⟨verdict, hrun⟩ := hverdict
  refine ⟨verdict, attempt_eq_ok_iff.mpr hrun, fun vs => ?_, fun reason details leftover => ?_,
    fun hforward => ⟨fun i j vs vs' place place' hij => Leads.le_of_take hij hforward,
      fun cause leftover hcause => ?_⟩⟩
  · rw [← tokens_eq_matched_iff_leads hanswers, hrun, Except.ok.injEq]
  · rw [← exists_tokens_eq_failed_iff_stops hanswers, hrun]
    simp only [Except.ok.injEq]
  · -- the words left over begin at a place to which some tokens lead
    have hrun' : Match.tokens resolves input r.tokens start = .ok (.failed cause leftover) := by
      rw [hrun, hcause]
    obtain ⟨before, rest, vs, last, -, hleads, -, rfl⟩ :=
      (exists_tokens_eq_failed_iff_stops hanswers).mp ⟨cause, hrun', rfl, rfl⟩
    have hle := hleads.le hforward
    exact List.drop_suffix_drop_left input (by omega)

/-! ### A walk

Symbols of a game's own: a leap takes two words and leaves its cursor far outside, and a rest is
always refused and leaves its cursor before the input.
-/

namespace Walk

/-- Takes two words. -/
def leap : Resolve := fun _ place => .ok ⟨.resolved (.document (.int 2)) (place + 2), 99⟩

/-- A cause of its own. -/
def tired : Refusal := .other (.text "tired") [("weight", .int 7)]

/-- Refuses whatever words there are. -/
def rest : Resolve := fun _ _ => .ok ⟨.refused tired, -5⟩

/-- The resolvers of a walk. -/
def resolves : String → Option Resolve
  | "leap" => some leap
  | "rest" => some rest
  | _ => none

/-- One leaps *on* and rests. -/
def walk : Rule where
  pattern := "leap \"on\" rest"
  tokens := [.symbol "leap", .literal "on", .symbol "rest"]
  action := Parlour.give
  label := .text "give"

/-- The words of a command, from before the first of which one leaps. -/
def input : List Document := ["go", "on", "then"].map .text

theorem alwaysAnswers : Match.AlwaysAnswers resolves input := by
  intro name resolve hres place
  rw [resolves.eq_def] at hres
  split at hres
  · obtain rfl := Option.some.inj hres
    exact ⟨_, rfl⟩
  · obtain rfl := Option.some.inj hres
    exact ⟨_, rfl⟩
  · simp at hres

end Walk

open Walk in
/-- From before the first word the leap leads to the second, and the literal leads to the third.
There the rest is refused, and the third word is left over, wherever the cursors are. -/
theorem Rule.attempt_walk :
    Match.AlwaysAnswers resolves input ∧
      ∃ cause, walk.attempt resolves input (-1) = .ok ⟨walk, .failed cause [.text "then"]⟩ ∧
        cause.reason = .text "tired" ∧
        cause.details = [("weight", .int 7), ("symbol", .text "rest")] := by
  obtain ⟨verdict, hrun, -, hfailed, -⟩ :=
    attempt_step_by_step walk resolves input (-1) alwaysAnswers
  have hleads : Match.Leads resolves input [.symbol "leap", .literal "on"] (-1)
      [.document (.int 2)] 2 := .symbol rfl rfl (.literal rfl .stay)
  have hstops : Match.Stops resolves input [.symbol "rest"] 2 tired.reason
      (tired.details.insert "symbol" (.text "rest")) := .refused rfl rfl
  obtain ⟨cause, rfl, hreason, hdetails⟩ :=
    (hfailed _ _ _).mpr ⟨_, _, _, _, rfl, hleads, hstops, rfl⟩
  exact ⟨alwaysAnswers, cause, hrun, hreason, hdetails⟩

end TextAdventure
