import TextAdventure.Proofs.Phrasing

/-!
# The first phrase that fits

A list of phrases is resolved wherever the cursor stands, on any input and at any place. What is
ahead of the place counts, and before the beginning of the input or past its end that is nothing:
there only a blank phrase fits. Of the phrases that fit, which are those whose words are next, the
one declared first is meant (`TextAdventure.Phrase.IsFirst`); the cursor ends behind its words. If
there is none, the cursor ends where it was.

Order, and not length, decides. So a phrase may be in the list and never be meant, on no input
whatever: a phrase that is declared before and begins it is always found first
(`TextAdventure.Phrase.exists_resolved_iff`). If there is no such phrase, the words of the phrase
themselves are an input on which it is meant. Both directions hold for the words of a phrase and not
for its place in the list, since phrases with the same words are one phrase when they are kept.
-/

namespace TextAdventure.Phrase

/-- **The first phrase of a list that fits** what is ahead: what is ahead begins with its words, and
not with those of any phrase declared before it. -/
structure IsFirst (ss : List String) (ahead : List Document) (s : String) : Prop where
  fits : (wordsOf s).map .text <+: ahead
  first : ∃ before after, ss = before ++ s :: after ∧
    ∀ t ∈ before, ¬(wordsOf t).map .text <+: ahead

section Search

variable {ss : List String} {ahead : List Document}

/-- The first phrase that fits is the one that a search finds. -/
theorem find?_eq_some_iff_isFirst {s : String} :
    (ss.find? fun t => begins (wordsOf t) ahead) = some s ↔ IsFirst ss ahead s := by
  rw [List.find?_eq_some_iff_append]
  constructor
  · rintro ⟨hs, before, after, hss, hbefore⟩
    refine ⟨begins_iff.mp hs, before, after, hss, fun t ht hpre => ?_⟩
    have hnot := hbefore t ht
    rw [begins_iff.mpr hpre] at hnot
    exact Bool.noConfusion hnot
  · rintro ⟨hs, before, after, hss, hbefore⟩
    refine ⟨begins_iff.mpr hs, before, after, hss, fun t ht => ?_⟩
    rw [Bool.not_eq_true', Bool.eq_false_iff, Ne, begins_iff]
    exact hbefore t ht

theorem find?_eq_none_iff_forall :
    (ss.find? fun t => begins (wordsOf t) ahead) = none ↔
      ∀ t ∈ ss, ¬(wordsOf t).map .text <+: ahead := by
  simp only [List.find?_eq_none, begins_iff]

end Search

section Kept

variable (ss : List String) (input : List Document) (place : Int)

/-- Searching the phrases as they are kept is searching them as they were given. -/
theorem find?_fits_canonical :
    ((ss.map canonical).find? fun p => fits p input place) =
      (ss.find? fun t => begins (wordsOf t) (Reference.ahead input place)).map canonical := by
  rw [List.find?_map]
  refine congrArg (fun test => (ss.find? test).map canonical) ?_
  funext t
  rw [Function.comp_apply, fits, words_canonical, Reference.ahead]

variable {ss input place}

/-- The first phrase that fits is meant, and the cursor ends behind its words. -/
theorem resolve_of_isFirst {s : String} (h : IsFirst ss (Reference.ahead input place) s) :
    resolve (ss.map canonical) input place =
      .ok ⟨.resolved (.document (.text (canonical s))) (place + (wordsOf s).length),
        place + (wordsOf s).length⟩ := by
  have hfind := find?_fits_canonical ss input place
  rw [find?_eq_some_iff_isFirst.mpr h, Option.map_some] at hfind
  rw [resolve, outcome, hfind]
  simp only [words_canonical]

/-- If no phrase fits, the list is refused, and the cursor ends where it was. -/
theorem resolve_of_forall_not_fits
    (h : ∀ t ∈ ss, ¬(wordsOf t).map .text <+: Reference.ahead input place) :
    resolve (ss.map canonical) input place =
      .ok ⟨.refused (.unknownPhrase (itemsFrom input place) (ss.map canonical)), place⟩ := by
  have hfind := find?_fits_canonical ss input place
  rw [find?_eq_none_iff_forall.mpr h, Option.map_none] at hfind
  rw [resolve, outcome, hfind]

variable (ss input place) in
/-- One of the two happens. -/
theorem exists_isFirst_or_forall_not_fits :
    (∃ s, IsFirst ss (Reference.ahead input place) s) ∨
      ∀ t ∈ ss, ¬(wordsOf t).map .text <+: Reference.ahead input place := by
  cases hfind : ss.find? fun t => begins (wordsOf t) (Reference.ahead input place) with
  | some s => exact Or.inl ⟨s, find?_eq_some_iff_isFirst.mp hfind⟩
  | none => exact Or.inr (find?_eq_none_iff_forall.mp hfind)

/-- A phrase that is meant is the first that fits, or has its words. -/
theorem exists_isFirst_of_resolve {s : String} {next cursor : Int}
    (h : resolve (ss.map canonical) input place =
      .ok ⟨.resolved (.document (.text (canonical s))) next, cursor⟩) :
    ∃ first, IsFirst ss (Reference.ahead input place) first ∧ wordsOf first = wordsOf s := by
  rcases exists_isFirst_or_forall_not_fits ss input place with ⟨first, hfirst⟩ | hnone
  · rw [resolve_of_isFirst hfirst] at h
    have hkept : canonical first = canonical s := by
      simp only [Except.ok.injEq, Resolution.mk.injEq, Outcome.resolved.injEq,
        Value.document.injEq, Document.text.injEq] at h
      exact h.1.1
    exact ⟨first, hfirst, by rw [← words_canonical, hkept, words_canonical]⟩
  · rw [resolve_of_forall_not_fits hnone] at h
    simp at h

end Kept

/-- **Which phrases can be meant at all**: those of the list that no phrase declared before the
first with the same words begins. -/
theorem exists_resolved_iff {ss : List String} {s : String} (h : s ∈ ss) :
    (∃ (ws : List String) (place next cursor : Int),
        resolve (ss.map canonical) (ws.map .text) place =
          .ok ⟨.resolved (.document (.text (canonical s))) next, cursor⟩) ↔
      ∀ t ∈ declaredBefore s ss, ¬wordsOf t <+: wordsOf s := by
  constructor
  · rintro ⟨ws, place, next, cursor, hres⟩ t ht hpre
    obtain ⟨first, ⟨hfits, before, after, rfl, hbefore⟩, hwords⟩ := exists_isFirst_of_resolve hres
    have hother : ∀ u ∈ before, wordsOf u ≠ wordsOf s := by
      intro u hu hsame
      refine hbefore u hu ?_
      rwa [hsame, ← hwords]
    rw [declaredBefore_eq hwords hother] at ht
    -- the phrase before fits wherever the phrase does
    refine hbefore t ht ((hpre.map _).trans ?_)
    rwa [← hwords]
  · intro hfree
    obtain ⟨first, after, hss, hwords⟩ := exists_eq_declaredBefore_append h
    -- the words of the phrase are an input on which the first phrase with these words is meant
    have hfirst : IsFirst ss ((wordsOf s).map .text) first := by
      refine ⟨⟨[], ?_⟩, declaredBefore s ss, after, hss, fun t ht hpre => ?_⟩
      · rw [List.append_nil, hwords]
      · exact hfree t ht ((List.prefix_map_iff_of_injective Document.text_injective).mp hpre)
    have hahead : Reference.ahead ((wordsOf s).map .text) 0 = (wordsOf s).map .text := rfl
    rw [← hahead] at hfirst
    rw [← canonical_eq_of_wordsOf_eq hwords]
    exact ⟨wordsOf s, 0, _, _, resolve_of_isFirst hfirst⟩

/-- **The first phrase that fits is meant.** Every list of texts is accepted as phrases. On any
input and at any place, be it before the beginning of the input or past its end, the phrases are
resolved in one of two ways. Either there is a first phrase that fits what is ahead; then it is
meant, as its words with single spaces between, and the cursor ends behind them. Or no phrase fits;
then the phrases are refused, and the cursor ends where it was. A phrase of the list is meant on
some input of words if and only if no phrase declared before the first one with the same words
begins it. -/
theorem resolve_first_phrase (ss : List String) :
    ∃ known, ofDocuments (ss.map .text) = .ok known ∧
      (∀ (input : List Document) (place : Int),
        (∃ s, IsFirst ss (Reference.ahead input place) s ∧
          resolve known input place =
            .ok ⟨.resolved (.document (.text (Text.spaced (wordsOf s))))
              (place + (wordsOf s).length), place + (wordsOf s).length⟩) ∨
        (∀ t ∈ ss, ¬(wordsOf t).map .text <+: Reference.ahead input place) ∧
          resolve known input place =
            .ok ⟨.refused (.unknownPhrase (itemsFrom input place) known), place⟩) ∧
      ∀ s ∈ ss,
        (∃ (ws : List String) (place next cursor : Int), resolve known (ws.map .text) place =
            .ok ⟨.resolved (.document (.text (Text.spaced (wordsOf s)))) next, cursor⟩) ↔
          ∀ t ∈ declaredBefore s ss, ¬wordsOf t <+: wordsOf s := by
  refine ⟨ss.map canonical, ofDocuments_eq_ok_iff.mpr ⟨ss, rfl, rfl⟩, fun input place => ?_,
    fun s hs => exists_resolved_iff hs⟩
  rcases exists_isFirst_or_forall_not_fits ss input place with ⟨s, hs⟩ | hnone
  · exact Or.inl ⟨s, hs, resolve_of_isFirst hs⟩
  · exact Or.inr ⟨hnone, resolve_of_forall_not_fits hnone⟩

/-- Of three styles of dancing, the second can be meant, and the third cannot, on whatever input:
the first one begins it. -/
theorem resolve_styles :
    ofDocuments (["Funky", "Waltz", "funky  Chicken"].map .text) =
        .ok ["funky", "waltz", "funky chicken"] ∧
      "Waltz" ∈ ["Funky", "Waltz", "funky  Chicken"] ∧
      "funky  Chicken" ∈ ["Funky", "Waltz", "funky  Chicken"] ∧
      (∃ (ws : List String) (place next cursor : Int),
        resolve ["funky", "waltz", "funky chicken"] (ws.map .text) place =
          .ok ⟨.resolved (.document (.text "waltz")) next, cursor⟩) ∧
      ¬∃ (ws : List String) (place next cursor : Int),
        resolve ["funky", "waltz", "funky chicken"] (ws.map .text) place =
          .ok ⟨.resolved (.document (.text "funky chicken")) next, cursor⟩ := by
  have hkept : ofDocuments (["Funky", "Waltz", "funky  Chicken"].map .text) =
      .ok ["funky", "waltz", "funky chicken"] := rfl
  have hwaltz : "Waltz" ∈ ["Funky", "Waltz", "funky  Chicken"] := by simp
  have hchicken : "funky  Chicken" ∈ ["Funky", "Waltz", "funky  Chicken"] := by simp
  have hwaltz' : Text.spaced (wordsOf "Waltz") = "waltz" := by decide +kernel
  have hchicken' : Text.spaced (wordsOf "funky  Chicken") = "funky chicken" := by decide +kernel
  obtain ⟨known, hknown, -, hmeant⟩ := resolve_first_phrase ["Funky", "Waltz", "funky  Chicken"]
  obtain rfl := Except.ok.inj (hkept.symm.trans hknown)
  have hsome := hmeant "Waltz" hwaltz
  have hnone := hmeant "funky  Chicken" hchicken
  rw [hwaltz'] at hsome
  rw [hchicken'] at hnone
  refine ⟨hkept, hwaltz, hchicken, hsome.mpr (by decide +kernel), fun hmeans => ?_⟩
  exact hnone.mp hmeans "Funky" (by decide +kernel) (by decide +kernel)

end TextAdventure.Phrase
