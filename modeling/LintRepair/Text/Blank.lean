import LintRepair.Text.Basic

/-!
# Blank units

The white space and line ends that trimming, separators and deletions look at: the Unicode spaces,
the line terminators, and the byte order mark.
-/
namespace LintRepair.Text

/-- White space or a line terminator. -/
def isBlank (u : UInt16) : Bool :=
  (0x09 ≤ u && u ≤ 0x0D) || u = 0x20 || u = 0xA0 || u = 0x1680 || (0x2000 ≤ u && u ≤ 0x200A)
    || u = 0x2028 || u = 0x2029 || u = 0x202F || u = 0x205F || u = 0x3000 || u = 0xFEFF

/-- A space or a tab. -/
def isSpace (u : UInt16) : Bool := u = 0x20 || u = 0x09

theorem isBlank_of_isSpace {u : UInt16} (h : isSpace u) : isBlank u := by
  simp only [isSpace, isBlank, Bool.or_eq_true, decide_eq_true_eq] at h ⊢
  rcases h with rfl | rfl <;> decide

/-- Every space of ASCII is blank. -/
example : ("\t\n\r ".toList.all fun c => isBlank (unit c)) = true := by decide

def trimLeft (t : Text) : Text := t.dropWhile isBlank

def trimRight (t : Text) : Text := t.dropRightWhile isBlank

def trim (t : Text) : Text := (t.trimLeft).trimRight

/-- The blank units that end a text. -/
def blankSuffix (t : Text) : Text := t.takeRightWhile isBlank

end LintRepair.Text
