import LintRepair.Files.Route
import LintRepair.Files.Pattern.Spelling

/-!
# Parts of patterns

What a pattern tells before any path is compared with it: whether it has to be searched for at all, in which
directory the search starts, and by which names it leads down from there.
-/
namespace LintRepair.Pattern

/-! ## Signs -/

/-- Whether a text has what an expression describes. -/
def has (spelled : String) (s : String) : Bool := fits (Expression.read? (Text.ofString spelled)) s

/-- What makes a pattern one that is searched for: signs for any text, negation, sets and groups. -/
def signsOfSearch : List String :=
  ["[*?]|^!", "\\[[^[]*]", "(?:^|[^!*+?@])\\([^(]*\\|[^|]*\\)", "[!*+?@]\\([^(]*\\)"]

/-- Whether braces with alternatives or a range stand in a pattern. -/
def hasAlternatives (cs : List Char) : Bool :=
  match cs.dropWhile (· ≠ '{') with
  | _ :: rest =>
    let content := rest.takeWhile (· ≠ '}')
    content.length < rest.length && (content.contains ',' || has "\\.\\." (String.ofList content))
  | [] => false

/-- Whether a pattern has to be searched for, and not only looked up. -/
def isDynamic (pattern : String) : Bool :=
  pattern.toList.contains '\\' || signsOfSearch.any (has · pattern) || hasAlternatives pattern.toList

theorem isDynamic_of_backslash {pattern : String} (h : '\\' ∈ pattern.toList) : isDynamic pattern = true := by
  simp [isDynamic, h]

/-! ## Where a search starts -/

/-- Whether a sign stands in a text with no backslash in front of it. -/
def closesPlainly (c : Char) (cs : List Char) : Bool :=
  cs.contains c && !(cs.takeWhile (· ≠ c)).contains '\\'

/-- Whether parentheses behind one of `@?!+*` stand in a text. -/
def hasSignedGroup : List Char → Bool
  | '\\' :: _ :: cs => hasSignedGroup cs
  | c :: '(' :: cs => ("@?!+*".contains c && cs.contains ')') || hasSignedGroup ('(' :: cs)
  | _ :: cs => hasSignedGroup cs
  | [] => false

/-- Whether a bar with something behind it follows a parenthesis, and then the closing one. -/
def hasChoice (cs : List Char) : Bool :=
  let behind := cs.dropWhile (· ≠ '|')
  cs.head? ≠ some '|' && !behind.isEmpty && behind[1]? ≠ some ')' && closesPlainly ')' behind

/-- Whether a text begins with what stands for other texts. -/
def opensSearch : List Char → Bool
  | [] => false
  | c :: cs =>
    let next := cs.head?
    c = '*' || (next = some '?' && "].+)".contains c)
      || (c = '[' && next ≠ some ']' && closesPlainly ']' cs)
      || (c = '{' && next ≠ some '}' && closesPlainly '}' cs)
      || (c = '(' && next = some '?' && ((cs.drop 1).head?.any fun d => ":!=".contains d)
        && cs[2]? ≠ some ')' && closesPlainly ')' cs)
      || (c = '(' && hasChoice cs)

/-- Whether a text has something that stands for other texts. What is escaped does not, nor what is between
escaped brackets. -/
def hasSearch : Nat → List Char → Bool
  | 0, _ => false
  | _, [] => false
  | fuel + 1, c :: cs =>
    opensSearch (c :: cs) ||
      if c ≠ '\\' then hasSearch fuel cs
      else
        let rest := cs.drop 1
        let closing : Option Char := match cs.head? with
          | some '{' => some '}'
          | some '(' => some ')'
          | some '[' => some ']'
          | _ => none
        let rest := match closing with
          | some d => if rest.contains d then (rest.dropWhile (· ≠ d)).drop 1 else rest
          | none => rest
        rest.head? = some '!' || hasSearch fuel rest

/-- Whether a directory of a pattern is itself spelled by a pattern. -/
def isSearched (directory : String) : Bool :=
  let cs := directory.toList
  hasSignedGroup cs || cs.head? = some '!' || hasSearch (cs.length + 1) cs
    || has "(^|[^\\\\])([\\\x7b\\[]|\\([^\\)]+$)" directory

/-- A text without the backslashes of escaped signs. -/
def unescape : List Char → List Char
  | '\\' :: c :: cs => if "!*?|[]()\x7b\x7d".contains c then c :: unescape cs else '\\' :: unescape (c :: cs)
  | c :: cs => c :: unescape cs
  | [] => []

/-- The longest directory in front that is not spelled by a pattern. -/
def fixedDirectory : Nat → String → String
  | 0, path => path
  | fuel + 1, path =>
    let above := Path.parent path
    if isSearched above then fixedDirectory fuel above else above

/-- The directory in which the search for a pattern starts. -/
def base (pattern : String) : String :=
  let whole := if has "[\\\x7b\\[].*[\\\x7d\\]]$" pattern then pattern ++ "/" else pattern
  String.ofList (unescape (fixedDirectory (whole.length + 1) (whole ++ "a")).toList)

/-- A pattern without slashes that follow each other, but for those at its beginning. -/
def withoutEmptyParts (pattern : String) : String :=
  let rec go : List Char → List Char
    | '/' :: '/' :: cs => go ('/' :: cs)
    | c :: cs => c :: go cs
    | [] => []
  match pattern.toList with
  | c :: cs => String.ofList (c :: go cs)
  | [] => pattern

/-! ## Names on the way down -/

/-- What has been seen of a pattern. -/
structure Scan where
  /-- How many signs have been seen. -/
  place : Nat := 0
  /-- Where the pattern proper begins. -/
  start : Nat := 0
  /-- Something stands for other texts. -/
  searched : Bool := false
  /-- The beginning is past. -/
  settled : Bool := false
  braces : Nat := 0
  escapedBrace : Bool := false
  /-- The places of slashes between names, the last one first. -/
  slashes : List Nat := []
deriving Inhabited

/-- How many signs there are up to a closing one, with it, and whether it is there. -/
def upTo (closing escape : Char) : List Char → Nat × Bool
  | [] => (0, false)
  | [c] => (1, c = closing)
  | c :: d :: cs =>
    if c = escape then let (n, found) := upTo closing escape cs; (n + 2, found)
    else if c = closing then (1, true)
    else let (n, found) := upTo closing escape (d :: cs); (n + 1, found)

/-- Goes to the end of braces. A sign behind a dot opens and escapes nothing. -/
def pastBraces : Nat → Scan → List Char → Scan × List Char
  | 0, s, cs => (s, cs)
  | _, s, [] => (s, [])
  | fuel + 1, s, c :: cs =>
    let on (n : Nat) (s : Scan) (cs : List Char) : Scan × List Char :=
      pastBraces fuel { s with place := s.place + n } cs
    let close (n : Nat) (cs : List Char) : Scan × List Char :=
      if s.braces = 1 then
        ({ s with place := s.place + n, braces := 0, escapedBrace := false, settled := true }, cs)
      else on n { s with braces := s.braces - 1 } cs
    let settled := { s with searched := true, settled := true }
    match c, cs with
    | '\\', _ :: more => on 2 s more
    | '{', _ => on 1 { s with braces := s.braces + 1 } cs
    | '}', _ => close 1 cs
    | '.', d :: more =>
      if s.escapedBrace then on 1 s cs
      else if d = '.' || d = ',' then on 2 settled more
      else if d = '}' then close 2 more
      else on 2 s more
    | ',', _ => on 1 (if s.escapedBrace then s else settled) cs
    | _, _ => on 1 s cs

/-- Sees the rest of a pattern. `before` is the sign in front of it. -/
def scan : Nat → Scan → Option Char → List Char → Scan
  | 0, s, _, _ => s
  | _, s, _, [] => s
  | fuel + 1, s, before, c :: cs =>
    let on (s : Scan) (n : Nat) : Scan := scan fuel { s with place := s.place + 1 + n } (some c) (cs.drop n)
    let found (s : Scan) : Scan := { s with searched := true, settled := true }
    if c = '\\' then on (if cs.head? = some '{' then { s with escapedBrace := true } else s) 1
    else if s.escapedBrace || c = '{' then
      let (s, rest) := pastBraces (cs.length + 1) { s with place := s.place + 1, braces := s.braces + 1 } cs
      scan fuel s none rest
    else if c = '/' then
      let s' := { s with slashes := s.place :: s.slashes }
      on (if !s.settled && before = some '.' && s.place = s.start + 1 then { s' with start := s.start + 2 } else s') 0
    else if "+@*?!".contains c && cs.head? = some '(' then on (found s) (upTo ')' '\\' cs).1
    else if c = '*' || c = '?' then on (found s) 0
    else if c = '[' then
      let (n, closed) := upTo ']' '\\' cs
      on (if closed then found s else s) n
    else if c = '!' && s.place = s.start then on { s with start := s.start + 1 } 0
    else if c = '(' then
      let (n, closed) := upTo ')' '(' cs
      on { s with searched := true, settled := s.settled || closed } n
    else on (if s.searched then { s with settled := true } else s) 0

/-- The texts between places, where an empty first one is left out. -/
def between (cs : List Char) (start : Nat) : Bool → List Nat → List String
  | _, [] => if start ≠ 0 && start < cs.length then [String.ofList (cs.drop start)] else []
  | isFirst, place :: more =>
    let part := String.ofList ((cs.take place).drop start)
    let rest := between cs (if place = 0 then start else place + 1) false more
    if isFirst && part.isEmpty then rest else part :: rest

/-- The names of which a pattern consists, one for each level. -/
def names (pattern : String) : List String :=
  let cs := pattern.toList
  let s := scan (cs.length + 1) {} none cs
  let parts :=
    match s.slashes.reverse with
    | [] => []
    | [0] => []
    | places => between cs s.start true places
  match (if parts.isEmpty then [pattern] else parts) with
  | first :: more => if first.startsWith "/" then "" :: (first.drop 1).copy :: more else first :: more
  | [] => []

/-- A name that is compared as it is, or with an expression. -/
inductive Level where
  | plain (name : String)
  | searched (deep : Bool) (expression : Option Expression)

namespace Level

def ofName (name : String) : Level :=
  if isDynamic name then .searched (has "\\*\\*" name) (expression? false name) else .plain name

def admits : Level → String → Bool
  | plain name, part => name = part
  | searched _ e, part => fits e part

/-- It leads down to any depth. -/
def isDeep : Level → Bool
  | searched deep _ => deep
  | plain _ => false

theorem admits_plain (name part : String) : (plain name).admits part = decide (name = part) := rfl

end Level

/-- Whether files that fit a pattern with these levels can be in a directory or below it. -/
def leadsInto (levels : List Level) (directory : List String) : Bool :=
  let shallow := levels.takeWhile fun l => !l.isDeep
  let isShallow := shallow.length = levels.length
  if isShallow && levels.length ≤ directory.length then false
  else if !isShallow && shallow.length < directory.length then true
  else (levels.zip directory).all fun (l, part) => l.admits part

end LintRepair.Pattern
