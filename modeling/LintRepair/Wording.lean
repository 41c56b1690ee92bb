import LintRepair.Fault
import LintRepair.Value.Literal

/-!
# Wording

Small rules of how things are worded for people: shortened messages, counted nouns, padded columns,
lists of ids and whole numbers on the command line.
-/
namespace LintRepair

/-- At most `limit` units of a text; a cut is shown by three dots where they fit. -/
def Text.truncate (t : Text) (limit : Int) : Text :=
  if limit < 0 then []
  else if t.length ≤ limit then t
  else if limit ≤ 3 then t.take limit.toNat
  else t.take (limit - 3).toNat ++ Text.ofString "..."

theorem Text.length_truncate_le (t : Text) (limit : Int) (h : 0 ≤ limit) :
    (t.truncate limit).length ≤ limit := by
  have hdots : (Text.ofString "...").length = 3 := by decide
  unfold Text.truncate
  split
  · omega
  · split
    · assumption
    · split
      · simp only [List.length_take]; omega
      · simp only [List.length_append, List.length_take, hdots]; omega

def truncate (s : String) (limit : Int) : String := ((Text.ofString s).truncate limit).toString

/-- A count with its noun. -/
def counted (n : Number) (singular plural : String) : String :=
  n.text ++ " " ++ if n = .ofNat 1 then singular else plural

def pluralize (n : Nat) (singular : String) : String := counted (.ofNat n) singular (singular ++ "s")

/-- The text filled up with spaces to a width counted in units. -/
def padRight (s : String) (width : Nat) : String :=
  s ++ String.ofList (List.replicate (width - (Text.ofString s).length) ' ')

/-- The members of a comma-separated list, without blanks around them and without empty ones. -/
def parseRuleList (s : String) : List String :=
  (((Text.ofString s).splitOn 0x2C).map Text.trim |>.filter (fun t => !t.isEmpty)).map Text.toString

/-- A whole number on the command line. -/
def parseInteger (s : String) : Except Fault Int :=
  match (Number.ofText? s).bind Number.toInt? with
  | some n => .ok n
  | none => .error (.argument ("Expected an integer, got '" ++ s ++ "'."))

end LintRepair
