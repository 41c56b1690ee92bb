import LintRepair.Text.Basic

/-!
# Suggestions

A mistyped word is compared with the words that would have been right. A word is close when few edits lead to it:
leaving out, adding or changing a unit, or swapping two neighbours.
-/
namespace LintRepair

namespace Text

/-- Whether at most `n` edits lead from one text to the other. -/
def isWithin : Nat → Text → Text → Bool
  | n, [], bs => bs.length ≤ n
  | n, as, [] => as.length ≤ n
  | n, a :: as, b :: bs =>
    if a = b then isWithin n as bs
    else match n with
      | 0 => false
      | n + 1 =>
        isWithin n as bs || isWithin n (a :: as) bs || isWithin n as (b :: bs)
          || match as, bs with
            | a' :: as', b' :: bs' => a = b' && b = a' && isWithin n as' bs'
            | _, _ => false
termination_by _ as bs => as.length + bs.length

theorem isWithin_refl (n : Nat) (t : Text) : isWithin n t t = true := by
  induction t with
  | nil => simp [isWithin]
  | cons a t ih => unfold isWithin; simp [ih]

end Text

namespace Suggestion

/-- Words that more edits lead to are not close. -/
def farthest : Nat := 3

/-- The number of edits between close words. -/
def distance? (word candidate : Text) : Option Nat :=
  (List.range (farthest + 1)).find? fun n => Text.isWithin n word candidate

/-- The number of edits to a candidate that is worth a suggestion: longer than a unit, and with more than two
fifths of the longer word in common. -/
def closeness? (word candidate : String) : Option Nat :=
  let w := Text.ofString word
  let c := Text.ofString candidate
  let length := max w.length c.length
  if c.length ≤ 1 then none
  else (distance? w c).filter fun d => 2 * length < 5 * (length - d)

/-- The closest candidates in the order of their units. -/
def closest (word : String) (candidates : List String) : List String :=
  let rated := candidates.eraseDups.filterMap fun c => (closeness? word c).map (·, c)
  let least := (rated.map (·.1)).foldl min farthest
  ((rated.filter (·.1 = least)).map (·.2)).mergeSort unitsLe

/-- The wording of a suggestion, on a line of its own. -/
def text (names : List String) : String :=
  match names with
  | [] => ""
  | [name] => "\n(Did you mean " ++ name ++ "?)"
  | names => "\n(Did you mean one of " ++ String.intercalate ", " names ++ "?)"

end Suggestion
end LintRepair
