import LintRepair.Syntax.Complaint
import LintRepair.Syntax.Kind
import LintRepair.Syntax.Trivia

/-!
# Tokens

A token with the trivia before it, and the lexemes from which tokens are put together.
-/
namespace LintRepair.Syntax

structure Token where
  kind : Kind := .unknown
  /-- Where the trivia before the token starts. -/
  fullStart : Nat := 0
  start : Nat := 0
  stop : Nat := 0
  /-- A line ends in the trivia before the token. -/
  afterLineEnd : Bool := false
  /-- What a name or a literal says; punctuation keeps the value of the token before it. -/
  value : Text := []
  /-- The token holds a Unicode escape. -/
  escaped : Bool := false
  /-- The token holds an escape that means nothing. -/
  malformed : Bool := false
  complaints : List Complaint := []
deriving Repr, Inhabited

/-- A stretch of source text that has been read up to `stop`. -/
structure Lexeme where
  stop : Nat
  value : Text := []
  complaints : List Complaint := []
  escaped : Bool := false
  malformed : Bool := false
deriving Repr, Inhabited

namespace Lexeme

/-- Two lexemes that meet. -/
def append (a b : Lexeme) : Lexeme :=
  ⟨b.stop, a.value ++ b.value, a.complaints ++ b.complaints, a.escaped || b.escaped,
    a.malformed || b.malformed⟩

/-- The lexeme with one more complaint behind the others. -/
def complain (a : Lexeme) (start : Nat) (cause : Cause) : Lexeme :=
  { a with complaints := a.complaints ++ [.of start cause] }

theorem le_ite {c : Prop} [Decidable c] {a b : Lexeme} {i : Nat} (ha : i ≤ a.stop) (hb : i ≤ b.stop) :
    i ≤ (if c then a else b).stop := by
  split
  · exact ha
  · exact hb

end Lexeme
end LintRepair.Syntax
