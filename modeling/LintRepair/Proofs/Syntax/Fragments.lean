import LintRepair.Proofs.Rules.Effects
import LintRepair.Proofs.Syntax.Losslessness
import LintRepair.Proofs.Syntax.Statements
import LintRepair.Proofs.Tree.Origins

/-!
# Fragments

A snippet is put between two texts, the whole is read as a file, and one node of the file becomes the fragment,
which spells what that node takes of the whole. A statement is read with nothing around it, and has to be the only
one of its file, so it is all of the snippet. The others stand in the first statement, and are all of the snippet if
what is opened before it is closed behind it: a snippet that closes what was opened around it, and opens it again, is
cut.
-/
namespace LintRepair.Syntax

variable {source : Text} {path : String} {code : Text} {t : Template}

/-! ## The text of a template -/

theorem plain_assemble (xs : List (Span × Template)) {stop : Nat}
    (hxs : ∀ x ∈ xs, x.2.plain = source.slice x.1.start x.1.stop) (cursor : Nat) :
    (assemble (.ofText source) stop xs cursor).plain = source.slice cursor stop := by
  induction xs generalizing cursor with
  | nil =>
    rw [assemble, Source.slice_ofText]
    split
    · exact List.append_nil _
    · exact (Text.slice_eq_nil (by lia)).symm
  | cons x rest ih =>
    obtain ⟨hx, hrest⟩ := List.forall_mem_cons.mp hxs
    obtain ⟨span, template⟩ := x
    rw [assemble, Source.slice_ofText]
    split
    · exact ih hrest cursor
    · next hfits =>
      simp only [Bool.or_eq_true, decide_eq_true_eq, not_or] at hfits
      have hnode : (template.consPieces (assemble (.ofText source) stop rest span.stop)).plain =
          source.slice span.start stop := by
        change template.plain ++ _ = _
        rw [hx, ih hrest, Text.slice_append_slice _ (by lia) (by lia)]
      dsimp only
      split
      · change source.slice cursor span.start ++ _ = _
        rw [hnode, Text.slice_append_slice _ (by lia) (by lia)]
      · rw [hnode, (by lia : cursor = span.start)]

mutual

theorem plain_templateOf (source : Text) (rooted : Bool) (place : Place) (a : Ast)
    (hinner : Ast.filelessAll a.children = true) :
    (templateOf (.ofText source) rooted place a).plain = source.slice a.extent.start a.extent.stop := by
  match a with
  | .node info children =>
    rw [templateOf]
    refine plain_assemble _ (fun x hx => ?_) _
    exact plain_go source rooted place children 0 hinner x (List.mem_mergeSort.mp hx)

theorem plain_go (source : Text) (rooted : Bool) (place : Place) (cs : List Ast) (index : Nat)
    (hcs : Ast.filelessAll cs = true) : ∀ x ∈ templateOf.go (.ofText source) rooted place cs index,
      x.2.plain = source.slice x.1.start x.1.stop := by
  match cs with
  | [] =>
    rw [templateOf.go]
    exact fun x hx => absurd hx List.not_mem_nil
  | c :: rest =>
    rw [Ast.filelessAll, Bool.and_eq_true] at hcs
    rw [templateOf.go]
    refine List.forall_mem_cons.mpr ⟨?_, plain_go source rooted place rest _ hcs.2⟩
    have hc := plain_templateOf source rooted (index :: place) c (Ast.filelessAll_of_fileless hcs.1)
    rwa [Ast.extent_of_fileless hcs.1] at hc

end

theorem originFree_templateOf (text : Source) (place : Place) (a : Ast) :
    (templateOf text false place a).OriginFree := by
  rw [← templateOf_detached]
  exact ⟨rfl, Pieces.originFree_detached _⟩

/-! ## What is put around a snippet -/

/-- The sorts of snippets. -/
inductive Snippet where
  | statement | expression | clause | binaryOperator
deriving DecidableEq

namespace Snippet

def description : Snippet → String
  | statement => "statement"
  | expression => "expression"
  | clause => "clause"
  | binaryOperator => "binary operator"

/-- The text that is put before a snippet. -/
def before : Snippet → Text
  | statement => []
  | expression => .ofString "("
  | clause => .ofString "switch (0) \x7b\n"
  | binaryOperator => .ofString "(0 "

/-- The text that is put behind a snippet. -/
def behind : Snippet → Text
  | statement => []
  | expression => .ofString ");"
  | clause => .ofString "\n\x7d"
  | binaryOperator => .ofString " 0);"

def whole (s : Snippet) (code : Text) : Text := s.before ++ code ++ s.behind

/-- The dialect in which snippets for a file are read. -/
def dialect (path : String) : Dialect := .ofPath ("snippet" ++ snippetExtension path)

/-- What the grammar makes of a snippet for a file. -/
def reading (s : Snippet) (path : String) (code : Text) : SourceFile :=
  .read (dialect path) (.ofText (withoutMark (s.whole code)))

def build : Snippet → Fragments → Text → Except Fault Template
  | statement, f => f.statement
  | expression, f => f.expression
  | clause, f => f.clause
  | binaryOperator, f => f.binaryOperator

/-- The node that a snippet stands for: the only statement; or what is in the brackets of the first one, or
its only clause, or the operator in its brackets. -/
def Picks (f : SourceFile) (a : Ast) : Snippet → Prop
  | statement => f.ast.childrenOf .statements = [a]
  | expression => inBrackets f = some a
  | clause => ∃ statement rest block, f.ast.childrenOf .statements = statement :: rest ∧
      statement.kind = .switchStatement ∧ statement.child? .block = some block ∧
      block.childrenOf .clauses = [a]
  | binaryOperator => ∃ e, inBrackets f = some e ∧ e.kind = .binaryExpression ∧
      e.child? .operator = some a

/-- The child with the label that the first statement has. -/
def childOfFirst? (f : SourceFile) (label : Label) : Option Ast :=
  (f.ast.childrenOf .statements).head?.bind (·.child? label)

/-- What is opened before a snippet is closed behind it: the bracket before an expression by the one behind it, the
brace before a clause by the one behind it; and the operator stands between the two operands put around it. The node
between is not empty and ends in the snippet. Nothing is put around a statement, and no mark begins it. -/
def Closes (f : SourceFile) (code : Text) (a : Ast) : Snippet → Prop
  | statement => withoutMark code = code
  | expression => a.start < a.stop ∧
      ∃ p, childOfFirst? f .expression = some p ∧ p.start = 0 ∧ p.stop = code.length + 2
  | clause => a.start < a.stop ∧ a.stop ≤ code.length + 13 ∧
      ∃ p, childOfFirst? f .block = some p ∧ p.start = 11 ∧ p.stop = code.length + 15
  | binaryOperator => a.start < a.stop ∧ a.stop ≤ code.length + 3 ∧
      ∃ e l r, inBrackets f = some e ∧ e.child? .left = some l ∧ e.child? .right = some r ∧
        l.stop = 2 ∧ r.start = code.length + 4

/-- Nothing but trivia stands between the node and the two texts. -/
structure Snug (s : Snippet) (code : Text) (a : Ast) : Prop where
  left : (Source.ofText (s.whole code)).skipTrivia s.before.length = a.start
  ordered : a.start ≤ a.stop
  inside : a.stop ≤ s.before.length + code.length
  right : s.before.length + code.length ≤ (Source.ofText (s.whole code)).skipTrivia a.stop

/-- The text is the snippet without the trivia at its ends. -/
def Strips (s : Snippet) (code text : Text) : Prop :=
  ∃ i j, i ≤ j ∧ j ≤ code.length ∧ text = code.slice i j ∧
    (Source.ofText (s.whole code)).skipTrivia s.before.length = s.before.length + i ∧
    s.before.length + code.length ≤ (Source.ofText (s.whole code)).skipTrivia (s.before.length + j)

theorem slice_whole (s : Snippet) {code : Text} {i j : Nat} (hj : j ≤ code.length) :
    (s.whole code).slice (s.before.length + i) (s.before.length + j) = code.slice i j := by
  rw [whole, Text.slice, List.append_assoc, List.take_length_add_append, List.take_append_of_le_length hj,
    List.drop_append, List.drop_eq_nil_of_le (Nat.le_add_right _ _), List.nil_append,
    Nat.add_sub_cancel_left, Text.slice]

theorem Snug.strips {s : Snippet} {code : Text} {a : Ast} (h : s.Snug code a) :
    s.Strips code ((s.whole code).slice a.start a.stop) := by
  have hleft : s.before.length ≤ a.start := h.left ▸ Source.le_skipTrivia _ _
  have hordered := h.ordered
  have hinside := h.inside
  obtain ⟨i, hi⟩ := Nat.exists_eq_add_of_le hleft
  obtain ⟨j, hj⟩ := Nat.exists_eq_add_of_le (Nat.le_trans hleft hordered)
  refine ⟨i, j, by omega, by omega, ?_, ?_, ?_⟩
  · rw [hi, hj, s.slice_whole (by omega)]
  · rw [h.left, hi]
  · rw [← hj]
    exact h.right

end Snippet

variable {s : Snippet} {path : String} {code : Text} {t : Template}

/-- Each sort of snippet is read in the same way, but for the texts around it and the choice of the node. -/
theorem exists_snippet (s : Snippet) (path : String) : ∃ pick : SourceFile → Option Ast,
    (∀ code, s.build (fragments path) code = snippet path s.description code s.before s.behind pick) ∧
      ∀ f a, pick f = some a ↔ s.Picks f a := by
  cases s with
  | statement =>
    dsimp only [Snippet.build, fragments]
    refine ⟨_, fun code => rfl, fun f a => ?_⟩
    dsimp only [Snippet.Picks]
    rcases f.ast.childrenOf .statements with _ | ⟨b, _ | ⟨c, rest⟩⟩ <;> simp
  | expression =>
    dsimp only [Snippet.build, fragments]
    exact ⟨_, fun code => rfl, fun f a => Iff.rfl⟩
  | clause =>
    dsimp only [Snippet.build, fragments]
    refine ⟨_, fun code => rfl, fun f a => ?_⟩
    dsimp only [Snippet.Picks]
    cases f.ast.childrenOf .statements with
    | nil => simp
    | cons statement rest =>
      by_cases hk : statement.kind = .switchStatement
      · cases hblock : statement.child? .block with
        | none => simp [hk, hblock]
        | some block =>
          rcases hclauses : block.childrenOf .clauses with _ | ⟨b, _ | ⟨c, more⟩⟩ <;>
            simp [hk, hblock, hclauses]
      · simp [hk]
  | binaryOperator =>
    dsimp only [Snippet.build, fragments]
    refine ⟨_, fun code => rfl, fun f a => ?_⟩
    dsimp only [Snippet.Picks]
    cases inBrackets f with
    | none => simp
    | some e => by_cases hk : e.kind = .binaryExpression <;> simp [hk]

theorem Snippet.Picks.unique {f : SourceFile} {a b : Ast} (ha : s.Picks f a) (hb : s.Picks f b) : a = b := by
  obtain ⟨pick, -, hpick⟩ := exists_snippet s ""
  exact Option.some.inj (((hpick f a).mpr ha).symm.trans ((hpick f b).mpr hb))

theorem inBrackets_eq_some_iff {f : SourceFile} {a : Ast} : inBrackets f = some a ↔
    ∃ statement p, (f.ast.childrenOf .statements).head? = some statement ∧ statement.kind = .expressionStatement ∧
      statement.child? .expression = some p ∧ p.kind = .parenthesizedExpression ∧
        p.child? .expression = some a := by
  simp [inBrackets, Option.bind_eq_some_iff]

theorem fileless_inBrackets {f : SourceFile} {a : Ast} (hf : Ast.filelessAll f.ast.children = true)
    (ha : inBrackets f = some a) : a.fileless = true := by
  obtain ⟨statement, p, hstatement, -, hp, -, ha⟩ := inBrackets_eq_some_iff.mp ha
  have hinner := Ast.filelessAll_of_fileless (Ast.fileless_childrenOf hf (List.mem_of_head? hstatement))
  exact Ast.fileless_child? (Ast.filelessAll_of_fileless (Ast.fileless_child? hinner hp)) ha

theorem Snippet.Picks.fileless {f : SourceFile} {a : Ast} (ha : s.Picks f a)
    (hf : Ast.filelessAll f.ast.children = true) : a.fileless = true := by
  cases s with
  | statement =>
    have hmem : a ∈ f.ast.childrenOf .statements := by
      rw [ha]
      exact List.mem_singleton_self a
    exact Ast.fileless_childrenOf hf hmem
  | expression => exact fileless_inBrackets hf ha
  | clause =>
    obtain ⟨statement, rest, block, hstatement, -, hblock, hclause⟩ := ha
    have hfirst : statement ∈ f.ast.childrenOf .statements := hstatement ▸ List.mem_cons_self
    have hinner := Ast.fileless_child? (Ast.filelessAll_of_fileless (Ast.fileless_childrenOf hf hfirst)) hblock
    have hmem : a ∈ block.childrenOf .clauses := by
      rw [hclause]
      exact List.mem_singleton_self a
    exact Ast.fileless_childrenOf (Ast.filelessAll_of_fileless hinner) hmem
  | binaryOperator =>
    obtain ⟨e, he, -, ha⟩ := ha
    exact Ast.fileless_child? (Ast.filelessAll_of_fileless (fileless_inBrackets hf he)) ha

/-- A snippet is refused because of what the grammar complains about, or because no node stands for it, or it
becomes the template of the node that does. -/
theorem build_cases (s : Snippet) (path : String) (code : Text) :
    (∃ diagnostic, (s.reading path code).errors ≠ [] ∧
      s.build (fragments path) code =
        .error (.invalidFragment s.description code.toString diagnostic)) ∨
    ((s.reading path code).errors = [] ∧ (∀ a, ¬ s.Picks (s.reading path code) a) ∧
      s.build (fragments path) code = .error (.notSingleFragment s.description code.toString)) ∨
    ((s.reading path code).errors = [] ∧ ∃ a, s.Picks (s.reading path code) a ∧
      s.build (fragments path) code = .ok (templateOf (.ofText (s.whole code)) false [] a)) := by
  obtain ⟨pick, hbuild, hpick⟩ := exists_snippet s path
  simp only [← hpick, hbuild, snippet, Snippet.reading, Snippet.dialect, Snippet.whole]
  generalize SourceFile.read _ _ = f
  cases f.errors with
  | cons c rest => exact .inl ⟨_, List.cons_ne_nil c rest, rfl⟩
  | nil =>
    cases pick f with
    | none => exact .inr (.inl ⟨rfl, nofun, rfl⟩)
    | some a => exact .inr (.inr ⟨rfl, a, rfl, rfl⟩)

theorem plain_picked {a : Ast} (ha : s.Picks (s.reading path code) a) :
    (templateOf (.ofText (s.whole code)) false [] a).plain = (s.whole code).slice a.start a.stop := by
  have hfileless := ha.fileless (SourceFile.fileless_read _ _)
  rw [plain_templateOf _ false [] a (Ast.filelessAll_of_fileless hfileless), Ast.extent_of_fileless hfileless]

theorem data_dialect (path : String) : (Snippet.dialect path).data = false := by
  have hdata : ∀ ext ∈ [".ts", ".tsx", ".mts", ".cts", ".js", ".jsx", ".mjs", ".cjs"],
      (Dialect.ofPath ("snippet" ++ ext)).data = false := by
    simp only [Dialect.ofPath, Path.suffix, Path.basename, Path.components_eq]
    decide +kernel
  unfold Snippet.dialect snippetExtension
  dsimp only
  split
  · next hext => exact hdata _ (List.contains_iff_mem.mp hext)
  · exact hdata ".ts" List.mem_cons_self

/-- A statement that is the whole file takes all of the snippet, unless a mark begins it or it is read once
more. -/
theorem statement_strips {a : Ast} (ha : Snippet.statement.Picks (Snippet.statement.reading path code) a)
    (herrors : (Snippet.statement.reading path code).errors = []) (hplain : withoutMark code = code)
    (hread : SourceFile.isReread (Snippet.dialect path) (.ofText code) = false) :
    Snippet.statement.Strips code ((Snippet.statement.whole code).slice a.start a.stop) := by
  have hwhole : Snippet.statement.whole code = code := List.append_nil code
  have hreading : Snippet.statement.reading path code = .read (Snippet.dialect path) (.ofText code) := by
    rw [Snippet.reading, hwhole, hplain]
  dsimp only [Snippet.Picks] at ha
  rw [hreading] at ha herrors
  obtain ⟨hstart, hlong, hordered, hstop⟩ := SourceFile.sole_statement (data_dialect path) hread herrors ha
  have hsize : (Source.ofText code).size = code.length := List.size_toArray
  have hbefore : Snippet.statement.before.length = 0 := rfl
  rw [hsize] at hlong hstop
  refine ⟨a.start, min a.stop code.length, by omega, Nat.min_le_right _ _, ?_, ?_, ?_⟩
  · rw [hwhole, Text.slice, Text.slice, List.take_eq_take_min]
  · rw [hbefore, hwhole, Nat.zero_add, hstart]
  · rw [hbefore, hwhole, Nat.zero_add, Nat.zero_add]
    rcases Nat.le_total a.stop code.length with h | h
    · rwa [Nat.min_eq_left h]
    · rw [Nat.min_eq_right h]
      exact Source.le_skipTrivia _ _

/-! ### Snippets with something around them -/

theorem withoutMark_whole (hs : s ≠ .statement) : withoutMark (s.whole code) = s.whole code := by
  cases s with
  | statement => exact absurd rfl hs
  | expression | clause | binaryOperator => rfl

theorem unitAt_whole {i : Nat} (hi : i < s.before.length) :
    (Source.ofText (s.whole code)).unitAt i = (Source.ofText s.before).unitAt i := by
  rw [Source.unitAt, Source.unitAt, Source.ofText, Source.ofText, Snippet.whole, List.append_assoc,
    List.getElem?_toArray, List.getElem?_toArray, List.getElem?_append_left hi]

theorem skipTrivia_whole {i : Nat} (hi : i < s.before.length)
    (h : (isGap ((Source.ofText s.before).unitAt i) || isLineEnd ((Source.ofText s.before).unitAt i)) = true) :
    (Source.ofText (s.whole code)).skipTrivia i = (Source.ofText (s.whole code)).skipTrivia (i + 1) := by
  refine Source.skipTrivia_succ ?_ (by rwa [unitAt_whole hi])
  have hsize : (Source.ofText (s.whole code)).size = (s.before ++ code ++ s.behind).length := List.size_toArray
  rw [hsize, List.append_assoc, List.length_append]
  exact Nat.lt_of_lt_of_le hi (Nat.le_add_right _ _)

/-- What stands in the brackets of the first statement fills them, and an operation there keeps its parts
together. -/
theorem exists_fills_brackets {d : Dialect} {source : Source} {a : Ast} (hdata : d.data = false)
    (hread : SourceFile.isReread d source = false) (herrors : (SourceFile.read d source).errors = [])
    (ha : inBrackets (.read d source) = some a) : ∃ p,
      Snippet.childOfFirst? (.read d source) .expression = some p ∧ p.Fills source a ∧
        (a.kind = .binaryExpression → a.Joins source) := by
  obtain ⟨statement, p, hstatement, hkind, hp, hbrackets, ha⟩ := inBrackets_eq_some_iff.mp ha
  have hlaid := SourceFile.laid_first hdata hread herrors hstatement
  refine ⟨p, ?_, hlaid.statement hkind p hp hbrackets a ha⟩
  rw [Snippet.childOfFirst?, hstatement]
  exact hp

/-- Where what is opened before a snippet is closed behind it, nothing but trivia stands around the node. -/
theorem Snippet.Closes.snug {a : Ast} (h : s.Closes (s.reading path code) code a) (hs : s ≠ .statement)
    (ha : s.Picks (s.reading path code) a) (herrors : (s.reading path code).errors = [])
    (hread : SourceFile.isReread (Snippet.dialect path) (.ofText (s.whole code)) = false) : s.Snug code a := by
  have hreading : s.reading path code = .read (Snippet.dialect path) (.ofText (s.whole code)) := by
    rw [Snippet.reading, withoutMark_whole hs]
  rw [hreading] at h ha herrors
  have hdata := data_dialect path
  cases s with
  | statement => exact absurd rfl hs
  | expression =>
    obtain ⟨hwide, p, hp, hstart, hstop⟩ := h
    obtain ⟨q, hq, ⟨hleft, hright⟩, -⟩ := exists_fills_brackets hdata hread herrors ha
    obtain rfl := Option.some.inj (hp.symm.trans hq)
    rw [hstart, hstop] at hleft
    have hend : (Source.ofText (Snippet.expression.whole code)).skipTrivia a.stop = code.length + 1 := by omega
    have hle := Source.le_skipTrivia (.ofText (Snippet.expression.whole code)) a.stop
    have hbefore : Snippet.expression.before.length = 1 := rfl
    refine ⟨?_, Nat.le_of_lt hwide, by omega, by omega⟩
    obtain ⟨hzero, hempty⟩ | hbegin := hleft (Nat.succ_pos _)
    · omega
    · exact hbegin.symm
  | clause =>
    obtain ⟨hwide, hinside, p, hp, hstart, hstop⟩ := h
    obtain ⟨statement, rest, block, hstatements, hkind, hblock, hclause⟩ := ha
    have hfirst := congrArg List.head? hstatements
    have hlaid := SourceFile.laid_first hdata hread herrors hfirst
    rw [Snippet.childOfFirst?, hfirst] at hp
    obtain rfl := Option.some.inj (hblock.symm.trans hp)
    obtain ⟨hleft, hright⟩ := hlaid.clauses hkind block a hblock hclause
    rw [hstart, hstop] at hleft
    have hbefore : Snippet.clause.before.length = 13 := rfl
    refine ⟨?_, Nat.le_of_lt hwide, by omega, by omega⟩
    obtain ⟨hzero, hempty⟩ | hbegin := hleft (by omega)
    · omega
    · rw [hbegin]
      exact (skipTrivia_whole (s := .clause) (i := 12) (by decide) (by decide +kernel)).symm
  | binaryOperator =>
    obtain ⟨hwide, hinside, e, l, r, he, hl, hr, hstart, hstop⟩ := h
    obtain ⟨e', he', hkind, ha⟩ := ha
    obtain rfl := Option.some.inj (he.symm.trans he')
    obtain ⟨-, -, -, hjoins⟩ := exists_fills_brackets hdata hread herrors he
    obtain ⟨l', r', hl', hr', hleft, hright⟩ := hjoins hkind a ha
    obtain rfl := Option.some.inj (hl.symm.trans hl')
    obtain rfl := Option.some.inj (hr.symm.trans hr')
    rw [hstart] at hleft
    have hbefore : Snippet.binaryOperator.before.length = 3 := rfl
    have hend : (Source.ofText (Snippet.binaryOperator.whole code)).skipTrivia a.stop = code.length + 4 := by
      obtain ⟨hzero, -⟩ | hbegin := hright <;> omega
    refine ⟨?_, Nat.le_of_lt hwide, by omega, by omega⟩
    obtain ⟨hzero, hempty⟩ | hbegin := hleft
    · omega
    · rw [hbegin]
      exact (skipTrivia_whole (s := .binaryOperator) (i := 2) (by decide) (by decide +kernel)).symm

theorem Snippet.Closes.strips {a : Ast} (h : s.Closes (s.reading path code) code a)
    (ha : s.Picks (s.reading path code) a) (herrors : (s.reading path code).errors = [])
    (hread : SourceFile.isReread (Snippet.dialect path) (.ofText (s.whole code)) = false) :
    s.Strips code ((s.whole code).slice a.start a.stop) := by
  by_cases hs : s = .statement
  · subst hs
    have hwhole : Snippet.statement.whole code = code := List.append_nil code
    rw [hwhole] at hread
    exact statement_strips ha herrors h hread
  · exact (h.snug hs ha herrors hread).strips

/-- A fragment spells what its node takes of the text that is read, and comes from nowhere. It is the snippet
without the trivia at its ends if what is opened before the snippet is closed behind it, unless the whole is read once
more; and then still if nothing but trivia stands between the node and the texts put around the snippet. What becomes
no fragment is refused with the snippet and its sort. -/
theorem fragment_spec (s : Snippet) (path : String) (code : Text) :
    (∀ t, s.build (fragments path) code = .ok t → t.SpanFree ∧ t.OriginFree ∧
      (s.reading path code).errors = [] ∧ ∃ a, s.Picks (s.reading path code) a ∧
        t.plain = (s.whole code).slice a.start a.stop ∧
        ((s.Closes (s.reading path code) code a ∧
          SourceFile.isReread (Snippet.dialect path) (.ofText (s.whole code)) = false) ∨ s.Snug code a →
            s.Strips code t.plain)) ∧
    ∀ fault, s.build (fragments path) code = .error fault →
      fault.failure? = some ⟨.parse, "P002", fault.message,
        some (.record [("code", .text code.toString), ("description", .text s.description)])⟩ := by
  rcases build_cases s path code with
    ⟨diagnostic, -, hbuild⟩ | ⟨-, -, hbuild⟩ | ⟨herrors, a, ha, hbuild⟩
  · rw [hbuild]
    refine ⟨nofun, fun fault hfault => ?_⟩
    cases hfault
    rfl
  · rw [hbuild]
    refine ⟨nofun, fun fault hfault => ?_⟩
    cases hfault
    rfl
  · rw [hbuild]
    refine ⟨fun t ht => ?_, nofun⟩
    cases ht
    have hplain := plain_picked ha
    refine ⟨spanFree_templateOf _ _ _, originFree_templateOf _ _ _, herrors, a, ha, hplain, fun hwhole => ?_⟩
    rw [hplain]
    obtain ⟨hcloses, hread⟩ | hsnug := hwhole
    · exact hcloses.strips ha herrors hread
    · exact hsnug.strips

theorem build_of_picks {a : Ast} (herrors : (s.reading path code).errors = [])
    (ha : s.Picks (s.reading path code) a) :
    s.build (fragments path) code = .ok (templateOf (.ofText (s.whole code)) false [] a) := by
  rcases build_cases s path code with ⟨diagnostic, hbad, -⟩ | ⟨-, hnone, -⟩ | ⟨-, b, hb, hbuild⟩
  · exact absurd herrors hbad
  · exact absurd ha (hnone a)
  · rw [ha.unique hb, hbuild]

theorem reading_typed (hplain : withoutMark (s.whole code) = s.whole code) :
    s.reading "a.ts" code = .read {} (.ofText (s.whole code)) := by
  rw [Snippet.reading, Snippet.dialect, ofPath_snippet, hplain]

/-- A node of a typed file without errors, from one offset to another. -/
def isFound (pick : SourceFile → Option Ast) (text : Text) (start stop : Nat) : Bool :=
  withoutMark text = text && (SourceFile.read {} (.ofText text)).errors = [] &&
    (pick (.read {} (.ofText text))).any fun a => a.start = start && a.stop = stop

theorem exists_found {pick : SourceFile → Option Ast} {start stop : Nat}
    (h : isFound pick (s.whole code) start stop = true) : (s.reading "a.ts" code).errors = [] ∧
      ∃ a, pick (s.reading "a.ts" code) = some a ∧ a.start = start ∧ a.stop = stop := by
  simp only [isFound, Bool.and_eq_true, decide_eq_true_eq, Option.any_eq_true] at h
  obtain ⟨⟨hplain, herrors⟩, a, ha, hstart, hstop⟩ := h
  rw [← reading_typed hplain] at herrors ha
  exact ⟨herrors, a, ha, hstart, hstop⟩

theorem exists_fragment {pick : SourceFile → Option Ast} (hpick : ∀ f a, pick f = some a → s.Picks f a)
    {start stop : Nat} (h : isFound pick (s.whole code) start stop = true) :
    ∃ t a, s.build (fragments "a.ts") code = .ok t ∧ t.plain = (s.whole code).slice start stop ∧
      s.Picks (s.reading "a.ts" code) a ∧ a.start = start ∧ a.stop = stop := by
  obtain ⟨herrors, a, ha, hstart, hstop⟩ := exists_found h
  have hpicks := hpick _ a ha
  refine ⟨_, a, build_of_picks herrors hpicks, ?_, hpicks, hstart, hstop⟩
  rw [plain_picked hpicks, hstart, hstop]

/-- The only statement of a file. -/
def onlyStatement (f : SourceFile) : Option Ast :=
  match f.ast.childrenOf .statements with
  | [a] => some a
  | _ => none

theorem picks_onlyStatement (f : SourceFile) (a : Ast) (h : onlyStatement f = some a) :
    Snippet.statement.Picks f a := by
  unfold onlyStatement at h
  split at h
  · cases h
    assumption
  · cases h

/-- A sum with trivia around it. -/
def looseSum : Text := .ofString " a + 1 // more\n"

/-- The sum between trivia is what an expression or a statement takes of the snippet. -/
theorem fragment_spec_looseSum :
    (∃ t, Snippet.expression.build (fragments "a.ts") looseSum = .ok t ∧ t.SpanFree ∧ t.OriginFree ∧
      t.plain = .ofString "a + 1" ∧ Snippet.expression.Strips looseSum t.plain) ∧
    ∃ t, Snippet.statement.build (fragments "a.ts") looseSum = .ok t ∧ t.SpanFree ∧ t.OriginFree ∧
      t.plain = .ofString "a + 1" ∧ Snippet.statement.Strips looseSum t.plain := by
  constructor
  · have hfound : isFound inBrackets (Snippet.expression.whole looseSum) 2 7 = true := by decide +kernel
    have hbrackets : isFound (Snippet.childOfFirst? · .expression) (Snippet.expression.whole looseSum) 0
        (looseSum.length + 2) = true := by decide +kernel
    obtain ⟨t, a, hbuild, hplain, ha, hstart, hstop⟩ :=
      exists_fragment (s := .expression) (fun _ _ => id) hfound
    obtain ⟨hspan, horigin, -, b, hb, -, hstrips⟩ := (fragment_spec .expression "a.ts" looseSum).1 t hbuild
    obtain rfl := ha.unique hb
    refine ⟨t, hbuild, hspan, horigin, ?_, hstrips (.inl ⟨⟨by omega, (exists_found hbrackets).2⟩, ?_⟩)⟩
    · rw [hplain]
      decide +kernel
    · rw [Snippet.dialect, ofPath_snippet]
      decide +kernel
  · have hfound : isFound onlyStatement (Snippet.statement.whole looseSum) 1 6 = true := by decide +kernel
    obtain ⟨t, a, hbuild, hplain, ha, hstart, hstop⟩ :=
      exists_fragment (s := .statement) picks_onlyStatement hfound
    obtain ⟨hspan, horigin, -, b, hb, -, hstrips⟩ := (fragment_spec .statement "a.ts" looseSum).1 t hbuild
    obtain rfl := ha.unique hb
    refine ⟨t, hbuild, hspan, horigin, ?_, hstrips (.inl ⟨?_, ?_⟩)⟩
    · rw [hplain]
      decide +kernel
    · exact (by decide +kernel : withoutMark looseSum = looseSum)
    · rw [Snippet.dialect, ofPath_snippet]
      decide +kernel

/-- A snippet that closes the bracket put before it and opens another one. -/
def twoBrackets : Text := .ofString "a); (b"

/-- What stands behind the first statement is dropped. -/
theorem expression_drops : ∃ t, (fragments "a.ts").expression twoBrackets = .ok t ∧
    t.plain = .ofString "a" ∧ ¬ Snippet.expression.Strips twoBrackets t.plain := by
  have hfound : isFound inBrackets (Snippet.expression.whole twoBrackets) 1 2 = true := by decide +kernel
  obtain ⟨t, -, hbuild, hplain, -⟩ := exists_fragment (s := .expression) (fun _ _ => id) hfound
  have htext : t.plain = .ofString "a" := by
    rw [hplain]
    decide +kernel
  refine ⟨t, hbuild, htext, ?_⟩
  rintro ⟨i, j, -, hj, hslice, hleft, hright⟩
  have hwhole : ∀ j ≤ 6, 7 ≤ (Source.ofText (Snippet.expression.whole twoBrackets)).skipTrivia (1 + j) →
      j = 6 := by decide +kernel
  obtain rfl : i = 0 := Nat.add_left_cancel (hleft.symm.trans (by decide +kernel))
  obtain rfl := hwhole j hj hright
  rw [htext] at hslice
  exact absurd hslice (by decide +kernel)

end LintRepair.Syntax
