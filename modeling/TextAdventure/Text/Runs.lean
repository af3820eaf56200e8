/-!
# Runs of characters

The maximal stretches of a text whose characters all belong to a class: the words of a text are its
runs of characters that are not blank, the letters of a quoted part of a pattern its runs of small
letters.

The cut is one pass from the right. `TextAdventure.Text.cut` returns the run that is still open at
the left end together with the runs already closed; a character outside the class closes the open
run, any other extends it. This form needs no counter and no position: every fact about runs is one
induction over the characters.
-/

namespace TextAdventure.Text

/-- Puts the open run in front of the closed ones, unless it is still empty. -/
def close (openRun : List Char) (closed : List (List Char)) : List (List Char) :=
  if openRun.isEmpty then closed else openRun :: closed

/-- The run open at the left end of a text, and the runs closed after it. -/
def cut (keep : Char → Bool) : List Char → List Char × List (List Char)
  | [] => ([], [])
  | c :: cs =>
    if keep c then (c :: (cut keep cs).1, (cut keep cs).2)
    else ([], close (cut keep cs).1 (cut keep cs).2)

/-- The maximal runs of characters of the class `keep`, in order. -/
def runs (keep : Char → Bool) (cs : List Char) : List (List Char) :=
  close (cut keep cs).1 (cut keep cs).2

@[simp] theorem runs_nil (keep : Char → Bool) : runs keep [] = [] := rfl

/-- A character outside the class in front of a text changes nothing in its runs. -/
theorem runs_cons_of_not_keep {keep : Char → Bool} {c : Char} (h : keep c = false)
    (cs : List Char) : runs keep (c :: cs) = runs keep cs := by
  simp [runs, cut, h, close]

end TextAdventure.Text
