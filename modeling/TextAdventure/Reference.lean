import TextAdventure.Resolution

/-!
# References to entities

A reference is a run of words that names an entity of the scope. Each entity gets a score, the
number of words it covers from the place on:

* an entity that claims words gets as many as it claims, but not fewer than none and not more than
  there are;
* any other gets the longest run of words that are all among its own. Their order does not matter:
  `key rusty` covers two words of the old rusty key.

The entity with the highest score is meant. Several entities with the highest score make the
reference ambiguous, and a scope in which no score is positive makes it empty.
-/

namespace TextAdventure.Reference

/-- The words from a place on; none before the sequence. -/
def ahead (input : List Document) (start : Int) : List Document :=
  if start < 0 then [] else input.drop start.toNat

/-- The run of words from a place on that are all among an entity's words. -/
def run (e : Entity) (input : List Document) (start : Int) : List Document :=
  (ahead input start).takeWhile e.isCalled

/-- The number of words that an entity covers from a place on. -/
def score (e : Entity) (input : List Document) (start : Int) : Int :=
  match e.claimed? input start with
  | some n => max 0 (min n (input.length - start))
  | none => (run e input start).length

/-- Whether the word after an entity's run cannot be compared with any word, so that the run has no
end. -/
def isStuck (e : Entity) (input : List Document) (start : Int) : Bool :=
  (e.claimed? input start).isNone
    && (((ahead input start).dropWhile e.isCalled).head?.any fun d => !d.canBeKey)

/-- The entities that lead while a scope is gone through, and their score. -/
structure Lead where
  score : Int
  holders : List Entity

/-- Compares the next entity's score with the leading one. Entities without a positive score never
lead. -/
def Lead.next (lead : Lead) (e : Entity) (score : Int) : Lead :=
  if score ≤ 0 then lead
  else if score = lead.score then { lead with holders := lead.holders ++ [e] }
  else if lead.score < score then ⟨score, [e]⟩
  else lead

/-- The entities of a scope with the highest score, if it is positive. -/
def leaders (scope : List Entity) (input : List Document) (start : Int) : Lead :=
  scope.foldl (fun lead e => lead.next e (score e input start)) ⟨0, []⟩

/-- What a reference means in a scope. -/
def outcome (scope : List Entity) (input : List Document) (start : Int) : Outcome :=
  let lead := leaders scope input start
  match lead.holders with
  | [] => .refused (.noReference (itemsFrom input start))
  | [e] => .resolved (.entity e) (start + lead.score)
  | es => .refused (.ambiguous (es.map fun e => Text.spaced e.words) lead.score)

/-- Where the cursor is after an outcome: behind the words of the reference, or where it was. -/
def cursorAfter (start : Int) : Outcome → Int
  | .resolved _ position => position
  | .refused _ => start

/-- Resolves a reference in a scope. -/
def resolve (scope : List Entity) : Resolve := fun input start =>
  if scope.any fun e => isStuck e input start then .error .wrongKind
  else .ok ⟨outcome scope input start, cursorAfter start (outcome scope input start)⟩

/-- The number of words that an entity covers from a place on, as far as the words can be
compared. -/
def score? (e : Entity) (input : List Document) (start : Int) : Except Fault Int :=
  if isStuck e input start then .error .wrongKind else .ok (score e input start)

end TextAdventure.Reference
