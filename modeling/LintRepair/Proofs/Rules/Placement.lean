import LintRepair.Proofs.Repair.Locality
import LintRepair.Proofs.Repair.Tallies
import LintRepair.Proofs.Syntax.Exactness

/-!
# Where the built-in repairs edit

Every built-in repair makes one edit, on the flagged node or on a node inside. A repair finds its node by
way of the syntax tree; there a place below another one is a place inside it, and the tree of a file
that was read mirrors that.
-/
namespace LintRepair.Rules

open Syntax

/-- The edits of an attempt that comes to some. -/
def Attempt.edits? (r : Attempt Outcome) : Option (List Edit) :=
  match r with
  | .ok (.applied edits) => some edits
  | _ => none

theorem eq_of_edits? {r : Attempt Outcome} {edits : List Edit} (h : r.edits? = some edits) :
    r = .ok (.applied edits) := by
  unfold Attempt.edits? at h
  split at h
  · cases h
    rfl
  · cases h

/-- If the attempt comes to edits, it comes to a single one, with this property. -/
def Attempt.Places (r : Attempt Outcome) (P : Edit → Prop) : Prop :=
  ∀ edits, r = .ok (.applied edits) → ∃ edit, edits = [edit] ∧ P edit

theorem places_declined (reason : String) {P : Edit → Prop} : (declined reason).Places P :=
  fun _ h => nomatch h

theorem places_applied {edit : Edit} {P : Edit → Prop} (h : P edit) : (applied [edit]).Places P := by
  intro edits heq
  cases heq
  exact ⟨edit, rfl, h⟩

theorem places_bind {α : Type} {x : Attempt α} {f : α → Attempt Outcome} {P : Edit → Prop}
    (h : ∀ a, x = .ok a → (f a).Places P) : Attempt.Places (x >>= f) P := by
  intro edits heq
  cases hx : x with
  | error thrown =>
    rw [hx] at heq
    cases heq
  | ok a =>
    rw [hx] at heq
    exact h a hx edits heq

theorem child?_spec {p q : Placed} {l : Label} (h : p.child? l = some q) : p.ast.child? l = some q.ast ∧
    ∃ i, q.place = i :: p.place ∧ p.ast.children[i]? = some q.ast := by
  simp only [Placed.child?, Option.bind_eq_bind, Option.bind_eq_some_iff] at h
  obtain ⟨i, hi, c, hc, hq⟩ := h
  cases hq
  obtain ⟨hlt, hlabel, hfirst⟩ := List.findIdx?_eq_some_iff_getElem.mp hi
  obtain ⟨_, hget⟩ := List.getElem?_eq_some_iff.mp hc
  rw [hget] at hlabel
  refine ⟨List.find?_eq_some_iff_getElem.mpr ⟨hlabel, i, hlt, hget, fun j hj => ?_⟩, i, rfl, hc⟩
  rw [Bool.eq_false_of_not_eq_true (hfirst j hj), Bool.not_false]

theorem childrenOf_spec {p q : Placed} {l : Label} (h : q ∈ p.childrenOf l) : q.ast ∈ p.ast.childrenOf l ∧
    ∃ i, q.place = i :: p.place ∧ p.ast.children[i]? = some q.ast := by
  obtain ⟨x, hx, rfl⟩ := List.mem_map.mp h
  obtain ⟨hmem, hlabel⟩ := List.mem_filter.mp hx
  have hget := List.mem_zipIdx_iff_getElem?.mp hmem
  exact ⟨List.mem_filter.mpr ⟨List.mem_of_getElem? hget, hlabel⟩, x.2, rfl, hget⟩

theorem exists_place_child? {p q : Placed} {l : Label} (h : p.child? l = some q) :
    ∃ i, q.place = i :: p.place :=
  have ⟨_, i, hi, _⟩ := child?_spec h
  ⟨i, hi⟩

theorem exists_place_childrenOf {p q : Placed} {l : Label} (h : q ∈ p.childrenOf l) :
    ∃ i, q.place = i :: p.place :=
  have ⟨_, i, hi, _⟩ := childrenOf_spec h
  ⟨i, hi⟩

theorem exists_place_clausesOf {p q : Placed} (h : q ∈ clausesOf p) :
    ∃ i j, q.place = i :: j :: p.place := by
  obtain ⟨block, hblock, hq⟩ := List.mem_flatMap.mp h
  obtain ⟨j, hj⟩ := exists_place_child? (Option.mem_toList.mp hblock)
  obtain ⟨i, hi⟩ := exists_place_childrenOf hq
  exact ⟨i, j, by rw [hi, hj]⟩

/-- The context is a file as it was read. -/
structure Sound (c : RepairContext SourceFile) (f : SourceFile) : Prop where
  parsed : c.parsed = some f
  wellFormed : c.tree.WellFormed
  mirrors : c.tree.Mirrors f.ast
  kind : f.ast.kind = .sourceFile

namespace Sound

variable {c : RepairContext SourceFile} {f : SourceFile} {p : Placed}

theorem of_parse {text : Text} {path : String} {template : Template}
    (hread : parse text path = .ok (template, f)) (htree : c.tree = .ofTemplate path text template)
    (hparsed : c.parsed = some f) : Sound c f := by
  refine ⟨hparsed, ?_, ?_, ?_⟩
  · rw [htree]
    exact Tree.wellFormed_ofTemplate path text template
  · rw [htree]
    exact mirrors_of_parse hread
  · rw [source_of_parse hread]
    exact (SourceFile.extent_ast ..).1

theorem parsed?_spec (hc : Sound c f) {x : SourceFile × Placed}
    (h : Context.parsed? c = .ok (some x)) : (∃ n, c.tree.node? c.node = some n ∧
      n.origin = some x.2.place) ∧ f.ast.at? x.2.place = some x.2.ast := by
  unfold Context.parsed? at h
  rw [hc.parsed, Tree.origin, Tree.get] at h
  cases hn : c.tree.node? c.node with
  | none =>
    rw [hn] at h
    cases h
  | some n =>
    rw [hn] at h
    simp only [bind, Except.bind, pure, Except.pure, orThrow, Except.mapError] at h
    split at h
    · next place g horigin hg =>
      cases hg
      obtain ⟨a, ha, rfl⟩ := Option.map_eq_some_iff.mp (Except.ok.inj h)
      exact ⟨⟨n, rfl, horigin⟩, ha⟩
    · cases h

theorem flagged?_spec (hc : Sound c f) {k : Kind} {x : SourceFile × Placed}
    (h : Context.flagged? c k = .ok (some x)) : (∃ n, c.tree.node? c.node = some n ∧
      n.origin = some x.2.place) ∧ (k ≠ .sourceFile → c.node ≠ Tree.root) := by
  simp only [Context.flagged?, bind, Except.bind, pure, Except.pure] at h
  split at h
  · cases h
  next y hy =>
  obtain ⟨rfl, hk⟩ := Option.filter_eq_some_iff.mp (Except.ok.inj h)
  obtain ⟨⟨n, hn, horigin⟩, hplace⟩ := hc.parsed?_spec hy
  refine ⟨⟨n, hn, horigin⟩, fun hne hroot => hne ?_⟩
  rw [hroot] at hn
  rw [hc.mirrors.root_origin n hn] at horigin
  rw [← Option.some.inj horigin] at hplace
  have hast : f.ast = x.2.ast := Option.some.inj ((Ast.at?_nil f.ast).symm.trans hplace)
  rw [← of_decide_eq_true hk, ← hast, hc.kind]

theorem parsed?_file (hc : Sound c f) {x : SourceFile × Placed}
    (h : Context.parsed? c = .ok (some x)) : x.1 = f := by
  unfold Context.parsed? at h
  simp only [hc.parsed, bind, Except.bind, pure, Except.pure] at h
  split at h
  · cases h
  split at h
  · next place g hg _ =>
    cases hg
    obtain ⟨a, -, rfl⟩ := Option.map_eq_some_iff.mp (Except.ok.inj h)
    rfl
  · cases h

theorem flagged?_parsed (hc : Sound c f) {k : Kind} {x : SourceFile × Placed}
    (h : Context.flagged? c k = .ok (some x)) :
    x.1 = f ∧ f.ast.at? x.2.place = some x.2.ast ∧ x.2.ast.kind = k := by
  simp only [Context.flagged?, bind, Except.bind, pure, Except.pure] at h
  split at h
  · cases h
  next y hy =>
  obtain ⟨rfl, hk⟩ := Option.filter_eq_some_iff.mp (Except.ok.inj h)
  exact ⟨hc.parsed?_file hy, (hc.parsed?_spec hy).2, of_decide_eq_true hk⟩

theorem exists_parent (hc : Sound c f) {k : Kind} {x : SourceFile × Placed}
    (h : Context.flagged? c k = .ok (some x)) (hk : k ≠ .sourceFile) :
    ∃ q, c.tree.IsParent q c.node := by
  obtain ⟨⟨n, hn, -⟩, hroot⟩ := hc.flagged?_spec h
  obtain ⟨q, -, hq⟩ := hc.wellFormed.exists_parent hn (hroot hk)
  exact ⟨q, hq⟩

theorem covers_of_handleAt? (hc : Sound c f) {place : Place} (inner : List Nat) {x : Handle}
    (h : ∃ n, c.tree.node? c.node = some n ∧ n.origin = some place)
    (hx : c.tree.handleAt? (inner ++ place) = some x) : c.tree.Covers c.node x := by
  obtain ⟨n, hn, horigin⟩ := h
  obtain ⟨m, hm, hinner⟩ := Tree.origin_of_handleAt? hx
  exact hc.mirrors.covers hc.wellFormed hn horigin inner hm hinner

end Sound

variable {c : RepairContext SourceFile} {f : SourceFile}

/-- The edit is on the flagged node or inside it. -/
def Within (c : RepairContext SourceFile) (edit : Edit) : Prop := c.tree.Covers c.node edit.touched

/-- What the repair of a rule makes of the flagged node: which node it edits, told by what the file has
there, and which code it reads to put there. -/
inductive Mends (c : RepairContext SourceFile) (f : SourceFile) : String → Edit → Prop where
  | noVar {statement : Placed} {list : Ast} {old : Text} {offset : Nat} {r : Template}
      (hflagged : Context.flagged? c .variableStatement = .ok (some (f, statement)))
      (hlist : statement.ast.child? .declarations = some list)
      (htoken : list.info.token = .varKeyword) (hoffset : offset = list.start - statement.ast.start)
      (hold : c.tree.textOf c.node = .ok old)
      (hword : old.slice offset (offset + (Text.ofString "var").length) = .ofString "var")
      (hread : c.fragments.statement (old.take offset ++ .ofString "let" ++
        old.drop (offset + (Text.ofString "var").length)) = .ok r) :
      Mends c f "no-var" (.replace c.node r)
  | eqeqeq {binary operator : Placed} {strict : String} {h : Handle} {r : Template}
      (hflagged : Context.flagged? c .binaryExpression = .ok (some (f, binary)))
      (hoperator : binary.child? .operator = some operator)
      (hstrict : strictForm? operator.ast.kind = some strict)
      (hhandle : c.tree.handleAt? operator.place = some h)
      (hread : c.fragments.binaryOperator (.ofString strict) = .ok r) :
      Mends c f "eqeqeq" (.replace h r)
  | noDebugger {statement : Placed}
      (hflagged : Context.flagged? c .debuggerStatement = .ok (some (f, statement)))
      (hholds : (f.around statement.place).head?.any (holdsStatements ·.ast) = true) :
      Mends c f "no-debugger" (.delete c.node)
  | useIsNaN {binary operator left right : Placed} {h : Handle} {old : Text} {r : Template}
      (hflagged : Context.flagged? c .binaryExpression = .ok (some (f, binary)))
      (hoperator : binary.child? .operator = some operator) (hleft : binary.child? .left = some left)
      (hright : binary.child? .right = some right) (hequality : isEquality operator.ast.kind = true)
      (hone : isNaN f left.ast ≠ isNaN f right.ast)
      (hhandle : c.tree.handleAt? (if isNaN f left.ast then right else left).place = some h)
      (hold : c.tree.textOf h = .ok old)
      (hread : c.fragments.expression (.ofString ((if isNegatedEquality operator.ast.kind then "!" else "")
        ++ "Number.isNaN(") ++ old ++ .ofString ")") = .ok r) :
      Mends c f "use-isnan" (.replace c.node r)
  | radix {call argument : Placed} {h : Handle} {r : Template}
      (hflagged : Context.flagged? c .callExpression = .ok (some (f, call)))
      (harguments : call.childrenOf .arguments = [argument])
      (hspread : argument.ast.kind ≠ .spreadElement)
      (hhandle : c.tree.handleAt? argument.place = some h)
      (hread : c.fragments.expression (.ofString "10") = .ok r) :
      Mends c f "radix" (.insertAfter h r (some (.ofString ", ")))
  | curly {body : Placed} {old : Text} {r : Template}
      (hparsed : Context.parsed? c = .ok (some (f, body))) (hblock : body.ast.kind ≠ .block)
      (hold : c.tree.textOf c.node = .ok old)
      (hread : c.fragments.statement (.ofString "\x7b " ++ old ++ .ofString " \x7d") = .ok r) :
      Mends c f "curly" (.replace c.node r)
  | noThrowLiteral {statement thrown : Placed} {h : Handle} {old : Text} {r : Template}
      (hflagged : Context.flagged? c .throwStatement = .ok (some (f, statement)))
      (hthrown : statement.child? .expression = some thrown) (hstring : isStringLike thrown.ast = true)
      (hhandle : c.tree.handleAt? thrown.place = some h) (hold : c.tree.textOf h = .ok old)
      (hread : c.fragments.expression (.ofString "new Error(" ++ old ++ .ofString ")") = .ok r) :
      Mends c f "no-throw-literal" (.replace h r)
  | defaultCase {statement clause : Placed} {h : Handle} {r : Template}
      (hflagged : Context.flagged? c .switchStatement = .ok (some (f, statement)))
      (hnone : hasDefault statement = false) (hclause : (clausesOf statement).getLast? = some clause)
      (hhandle : c.tree.handleAt? clause.place = some h)
      (hread : c.fragments.clause (.ofString "default:\n    break;") = .ok r) :
      Mends c f "default-case" (.insertAfter h r none)

theorem eq_ok_of_orThrow {α : Type} {r : Except Fault α} {a : α} (h : orThrow r = .ok a) :
    r = .ok a := by
  cases r with
  | error fault => cases h
  | ok b =>
    cases h
    rfl

theorem Mends.within (hc : Sound c f) {id : String} {edit : Edit} (h : Mends c f id edit) :
    Within c edit := by
  cases h with
  | noVar | noDebugger | useIsNaN | curly => exact c.tree.covers_refl c.node
  | eqeqeq hflagged hoperator _ hhandle =>
    obtain ⟨i, hplace⟩ := exists_place_child? hoperator
    rw [hplace] at hhandle
    exact hc.covers_of_handleAt? [i] (hc.flagged?_spec hflagged).1 hhandle
  | radix hflagged harguments _ hhandle =>
    obtain ⟨i, hplace⟩ := exists_place_childrenOf (harguments ▸ List.mem_singleton_self _)
    rw [hplace] at hhandle
    exact hc.covers_of_handleAt? [i] (hc.flagged?_spec hflagged).1 hhandle
  | noThrowLiteral hflagged hthrown _ hhandle =>
    obtain ⟨i, hplace⟩ := exists_place_child? hthrown
    rw [hplace] at hhandle
    exact hc.covers_of_handleAt? [i] (hc.flagged?_spec hflagged).1 hhandle
  | defaultCase hflagged _ hclause hhandle =>
    obtain ⟨i, j, hplace⟩ := exists_place_clausesOf (List.mem_of_getLast? hclause)
    rw [hplace] at hhandle
    exact hc.covers_of_handleAt? [i, j] (hc.flagged?_spec hflagged).1 hhandle

theorem curly_mends (hc : Sound c f) : (curly c).Places fun edit =>
    Mends c f "curly" edit ∧ ∃ n, c.tree.node? c.node = some n := by
  refine places_bind fun body hbody => ?_
  split
  · exact places_declined _
  next file body =>
  obtain rfl : file = f := hc.parsed?_file hbody
  split
  · exact places_declined _
  next hblock =>
  refine places_bind fun text htext => places_bind fun block hread => places_applied
    ⟨.curly hbody hblock (eq_ok_of_orThrow htext) (eq_ok_of_orThrow hread), ?_⟩
  obtain ⟨⟨n, hn, -⟩, -⟩ := hc.parsed?_spec hbody
  exact ⟨n, hn⟩

theorem defaultCase_mends (hc : Sound c f) : (defaultCase c).Places fun edit =>
    Mends c f "default-case" edit ∧ ∃ q, c.tree.IsParent q c.node := by
  refine places_bind fun flagged hflagged => ?_
  split
  · exact places_declined _
  next file statement =>
  obtain rfl : file = f := (hc.flagged?_parsed hflagged).1
  split
  · exact places_declined _
  next hnone =>
  split
  · exact places_declined _
  next clause hclause =>
  split
  · exact places_declined _
  next h hhandle =>
  exact places_bind fun added hadded => places_applied
    ⟨.defaultCase hflagged (eq_false_of_ne_true hnone) hclause hhandle (eq_ok_of_orThrow hadded),
      hc.exists_parent hflagged nofun⟩

theorem eqeqeq_mends (hc : Sound c f) : (eqeqeq c).Places fun edit =>
    Mends c f "eqeqeq" edit ∧ ∃ q, c.tree.IsParent q c.node := by
  refine places_bind fun flagged hflagged => ?_
  split
  · exact places_declined _
  next file binary =>
  obtain rfl : file = f := (hc.flagged?_parsed hflagged).1
  split
  · exact places_declined _
  next operator hoperator =>
  split
  · exact places_declined _
  next strict hstrict =>
  split
  · exact places_declined _
  next h hhandle =>
  exact places_bind fun mended hmended => places_applied
    ⟨.eqeqeq hflagged hoperator hstrict hhandle (eq_ok_of_orThrow hmended),
      hc.exists_parent hflagged nofun⟩

theorem noDebugger_mends (hc : Sound c f) : (noDebugger c).Places fun edit =>
    Mends c f "no-debugger" edit ∧ ∃ q, c.tree.IsParent q c.node := by
  refine places_bind fun flagged hflagged => ?_
  split
  · exact places_declined _
  next file statement =>
  obtain rfl : file = f := (hc.flagged?_parsed hflagged).1
  split
  · next hholds => exact places_applied ⟨.noDebugger hflagged hholds, hc.exists_parent hflagged nofun⟩
  · exact places_declined _

theorem noThrowLiteral_mends (hc : Sound c f) : (noThrowLiteral c).Places fun edit =>
    Mends c f "no-throw-literal" edit ∧ ∃ q, c.tree.IsParent q c.node := by
  refine places_bind fun flagged hflagged => ?_
  split
  · exact places_declined _
  next file statement =>
  obtain rfl : file = f := (hc.flagged?_parsed hflagged).1
  split
  · exact places_declined _
  next thrown hthrown =>
  obtain ⟨hthrown, hstring⟩ := Option.filter_eq_some_iff.mp hthrown
  split
  · exact places_declined _
  next h hhandle =>
  exact places_bind fun text htext => places_bind fun wrapped hwrapped => places_applied
    ⟨.noThrowLiteral hflagged hthrown hstring hhandle (eq_ok_of_orThrow htext)
      (eq_ok_of_orThrow hwrapped), hc.exists_parent hflagged nofun⟩

/-- What the repair of a var statement makes sure of, and what it reads. -/
theorem noVar_places (hc : Sound c f) : (noVar c).Places fun edit => ∃ statement list old offset r,
    edit = .replace c.node r ∧ Context.flagged? c .variableStatement = .ok (some (f, statement)) ∧
    (statement.ast.child? .declarations = some list ∧ list.info.token = .varKeyword ∧
      offset = list.start - statement.ast.start) ∧
    (∀ name ∈ namesOf f statement,
      ¬ 1 < (namesInScope f (scopeOf f statement.place)).count name) ∧
    c.tree.textOf c.node = .ok old ∧
    old.slice offset (offset + (Text.ofString "var").length) = .ofString "var" ∧
    c.fragments.statement (old.take offset ++ .ofString "let" ++
      old.drop (offset + (Text.ofString "var").length)) = .ok r := by
  refine places_bind fun flagged hflagged => ?_
  split
  · exact places_declined _
  next file statement =>
  obtain rfl : file = f := (hc.flagged?_parsed hflagged).1
  split
  · exact places_declined _
  next list hlist =>
  obtain ⟨hlist, htoken⟩ := Option.filter_eq_some_iff.mp hlist
  dsimp only
  split
  · exact places_declined _
  next hnone =>
  refine places_bind fun text htext => ?_
  split
  · next hword =>
    refine places_bind fun replacement hreplacement => places_applied ?_
    refine ⟨statement, list, text, _, replacement, rfl, hflagged,
      ⟨hlist, of_decide_eq_true htoken, rfl⟩, fun name hname => ?_,
      eq_ok_of_orThrow htext, hword, eq_ok_of_orThrow hreplacement⟩
    simpa using List.find?_eq_none.mp hnone name hname
  · exact places_declined _

theorem noVar_mends (hc : Sound c f) : (noVar c).Places fun edit =>
    Mends c f "no-var" edit ∧ ∃ q, c.tree.IsParent q c.node := by
  intro edits hedits
  obtain ⟨edit, rfl, statement, list, old, offset, r, rfl, hflagged, ⟨hlist, htoken, hoffset⟩, -, hold,
    hword, hcode⟩ := noVar_places hc edits hedits
  exact ⟨_, rfl, .noVar hflagged hlist htoken hoffset hold hword hcode,
    hc.exists_parent hflagged nofun⟩

theorem radix_mends (hc : Sound c f) : (radix c).Places fun edit =>
    Mends c f "radix" edit ∧ ∃ q, c.tree.IsParent q c.node := by
  refine places_bind fun flagged hflagged => ?_
  split
  · exact places_declined _
  next file call =>
  obtain rfl : file = f := (hc.flagged?_parsed hflagged).1
  split
  · next argument harguments =>
    split
    · exact places_declined _
    next hspread =>
    split
    · exact places_declined _
    next h hhandle =>
    exact places_bind fun ten hten => places_applied
      ⟨.radix hflagged harguments hspread hhandle (eq_ok_of_orThrow hten),
        hc.exists_parent hflagged nofun⟩
  · exact places_declined _

theorem useIsNaN_mends (hc : Sound c f) : (useIsNaN c).Places fun edit =>
    Mends c f "use-isnan" edit ∧ ∃ q, c.tree.IsParent q c.node := by
  refine places_bind fun flagged hflagged => ?_
  split
  · exact places_declined _
  next file binary =>
  obtain rfl : file = f := (hc.flagged?_parsed hflagged).1
  split
  · next operator left right hoperator hleft hright =>
    split
    · exact places_declined _
    next hequality =>
    split
    · exact places_declined _
    next hone =>
    dsimp only
    split
    · exact places_declined _
    next h hhandle =>
    refine places_bind fun text htext => places_bind fun call hcall => places_applied
      ⟨.useIsNaN hflagged hoperator hleft hright ?_ hone hhandle (eq_ok_of_orThrow htext)
        (eq_ok_of_orThrow hcall), hc.exists_parent hflagged nofun⟩
    simpa using hequality
  · exact places_declined _

/-- What a built-in repair makes of the flagged node, which only one of them allows to be the root. -/
theorem mends_of_get? (hc : Sound c f) {id : String} {p : Processor SourceFile}
    (hp : sharedProcessors.get? id = some p) : Attempt.Places (p.apply c) fun edit =>
      Mends c f id edit ∧ (∃ n, c.tree.node? c.node = some n) ∧
        (c.node = Tree.root → id = "curly") := by
  have hinner : ∀ {r : Attempt Outcome} {id : String},
      (r.Places fun edit => Mends c f id edit ∧ ∃ q, c.tree.IsParent q c.node) →
        r.Places fun edit => Mends c f id edit ∧ (∃ n, c.tree.node? c.node = some n) ∧
          (c.node = Tree.root → id = "curly") := by
    intro r id hr edits hedits
    obtain ⟨edit, hedit, hmends, q, hq⟩ := hr edits hedits
    exact ⟨edit, hedit, hmends, hq.inner_live,
      fun hroot => absurd (hroot ▸ hq) hc.wellFormed.not_isParent_root⟩
  have hmem := Register.mem_entries_of_get? hp
  simp only [sharedProcessors, builtinProcessors, Register.freeze, Register.ofList, List.map_cons,
    List.map_nil, List.mem_cons, List.not_mem_nil, or_false, Prod.mk.injEq] at hmem
  rcases hmem with ⟨rfl, rfl⟩ | ⟨rfl, rfl⟩ | ⟨rfl, rfl⟩ | ⟨rfl, rfl⟩ | ⟨rfl, rfl⟩ | ⟨rfl, rfl⟩ |
    ⟨rfl, rfl⟩ | ⟨rfl, rfl⟩
  · exact hinner (noVar_mends hc)
  · exact hinner (eqeqeq_mends hc)
  · exact hinner (noDebugger_mends hc)
  · exact hinner (useIsNaN_mends hc)
  · exact hinner (radix_mends hc)
  · intro edits hedits
    obtain ⟨edit, hedit, hmends, hlive⟩ := curly_mends hc edits hedits
    exact ⟨edit, hedit, hmends, hlive, fun _ => rfl⟩
  · exact hinner (noThrowLiteral_mends hc)
  · exact hinner (defaultCase_mends hc)

theorem places_of_get? (hc : Sound c f) {id : String} {p : Processor SourceFile}
    (hp : sharedProcessors.get? id = some p) : Attempt.Places (p.apply c) fun edit =>
      Within c edit ∧ (c.node = Tree.root → id = "curly") := by
  intro edits hedits
  obtain ⟨edit, hedit, hmends, -, hcurly⟩ := mends_of_get? hc hp edits hedits
  exact ⟨edit, hedit, hmends.within hc, hcurly⟩

/-- The engine over the built-in repairs, with any checks. -/
def engineOver (analyzer : Analyzer SourceFile) (indentSize : Nat) : Engine SourceFile :=
  ⟨sourceLanguage indentSize, analyzer, sharedProcessors⟩

section Runs

variable {analyzer : Analyzer SourceFile} {indentSize : Nat} {file : String} {d : Document SourceFile}

theorem exists_sound (hd : (engineOver analyzer indentSize).Fresh file d) :
    ∃ f, ∀ v fragments, Sound ⟨d.tree, d.parsed, v.node, v, fragments⟩ f := by
  obtain ⟨template, f, hparse, htree, hparsed⟩ := hd
  have hparse : parse d.tree.source file = .ok (template, f) := hparse
  exact ⟨f, fun v fragments => .of_parse hparse htree hparsed⟩

theorem localOn_of_fresh (hd : (engineOver analyzer indentSize).Fresh file d) :
    Workshop.LocalOn ⟨sourceLanguage indentSize, sharedProcessors⟩ d := by
  obtain ⟨f, hf⟩ := exists_sound hd
  intro id p hp v edits hedits edit hmem
  obtain ⟨edit, rfl, hwithin, -⟩ := places_of_get? (hf v _) hp edits hedits
  rwa [List.mem_singleton.mp hmem]

theorem singleOn_of_fresh (hd : (engineOver analyzer indentSize).Fresh file d) :
    Workshop.SingleOn ⟨sourceLanguage indentSize, sharedProcessors⟩ d := by
  obtain ⟨f, hf⟩ := exists_sound hd
  intro id p hp v edits hedits
  obtain ⟨edit, hedit, -⟩ := places_of_get? (hf v _) hp edits hedits
  exact ⟨edit, hedit⟩

/-- A batch that can be made fails only if its text cannot be read. -/
theorem code_of_batch {t edited : Tree} {sets : List EditSet} {mode : RenderMode} {fault : Fault}
    (hedited : t.applyEditSets sets = .ok edited)
    (h : (sourceLanguage indentSize).batch t sets mode = .error fault) :
    fault.codeText = FailureCode.syntaxError.text := by
  have hparse : ∀ text path, parse text path = .error fault →
      fault.codeText = FailureCode.syntaxError.text := by
    intro text path herror
    unfold parse at herror
    dsimp only at herror
    split at herror
    · cases herror
    · cases herror
      rfl
  cases mode with
  | targeted =>
    simp only [Language.batch, hedited, sourceLanguage, bind, Except.bind] at h
    split at h
    · next herror =>
      cases h
      exact hparse _ _ herror
    · cases h
  | full =>
    simp only [Language.batch, hedited, sourceLanguage, bind, Except.bind] at h
    split at h
    · next herror =>
      cases h
      exact hparse _ _ herror
    · cases h

/-- A run with the built-in repairs makes every batch, and fails only where a text cannot be read. -/
theorem repair_engineOver (hd : (engineOver analyzer indentSize).Fresh file d)
    (options : RepairOptions) (j : Journal) :
    (∀ rules d' st st' outcome,
      (engineOver analyzer indentSize).Makes rules options d j d' st st' outcome →
        st'.pass.selected = st'.pass.produced ∧ st'.pass.conflicts = [] ∧
        (∀ s ∈ st'.pass.produced, s.SingleInner d'.tree) ∧
        ∃ edited, d'.tree.applyEditSets st'.pass.selected = .ok edited) ∧
    ∀ ids r j', ((engineOver analyzer indentSize).repair d ids options).Yields j r j' →
      (∀ s ∈ r.passes, s.conflicts = 0) ∧
      ∀ failure ∈ r.statistics.failures, failure.code = FailureCode.syntaxError.text := by
  have hfresh : ∀ rules d' st, (engineOver analyzer indentSize).Begins rules options d j d' st →
      (engineOver analyzer indentSize).Fresh file d' := by
    rintro rules d' st ⟨number, p, remaining, k, k', hreached, -, rfl, -⟩
    exact hreached.fresh hd
  have hmade : ∀ rules d' st st' outcome,
      (engineOver analyzer indentSize).Makes rules options d j d' st st' outcome →
        st'.pass.selected = st'.pass.produced ∧ st'.pass.conflicts = [] ∧
        (∀ s ∈ st'.pass.produced, s.SingleInner d'.tree) ∧
        ∃ edited, d'.tree.applyEditSets st'.pass.selected = .ok edited := by
    intro rules d' st st' outcome hmakes
    have hd' := hfresh rules d' st hmakes.1
    obtain ⟨hselected, hnone, happlied⟩ := hmakes.local hd.wellFormed (localOn_of_fresh hd')
    exact ⟨hselected, hnone, happlied (singleOn_of_fresh hd')⟩
  refine ⟨hmade, fun ids r j' hrun => ⟨(Engine.repair_local hd.wellFormed fun rules d' st hbegins =>
    localOn_of_fresh (hfresh rules d' st hbegins)).2 ids r j' hrun, fun failure hfailure => ?_⟩⟩
  obtain ⟨rules, n, q, p, k, k', hrules, hreached, hturn, -, -, -, hstatistics⟩ :=
    Engine.repair_cases hrun
  obtain ⟨rs, hrecords⟩ := p.statistics.exists_rules_setRemaining p.remaining
  rw [hstatistics, hrecords] at hfailure
  obtain ⟨d', st, st', outcome, fault, hmakes, hbatch, hcode⟩ :=
    Engine.exists_makes_of_failure hreached hturn hfailure (by
      rw [hreached.kept.2]
      exact List.not_mem_nil)
  obtain ⟨-, -, -, edited, hedited⟩ := hmade rules d' st st' outcome hmakes
  rw [hcode]
  exact code_of_batch hedited hbatch

end Runs

/-- Local repairs never conflict: if the processors of a run are local on the files that it works on,
each of its passes selects every edit set that it has produced. The built-in repairs are local: each is
a single edit within the flagged node, and it is on the root only if a body to be wrapped was the root,
which a pass takes for a crash. So a run with them, whatever its checks, produces single edits on inner
nodes only, rejects nothing and makes every batch, and where one of its passes fails, the reason is that
the new text cannot be read. -/
theorem local_repairs_selected :
    (∀ {σ : Type} (e : Engine σ) (options : RepairOptions) (d : Document σ) (j : Journal),
      d.tree.WellFormed → (∀ rules d' st, e.Begins rules options d j d' st →
        Workshop.LocalOn ⟨e.language, e.processors⟩ d') →
      (∀ rules d' st st' outcome, e.Makes rules options d j d' st st' outcome →
        st'.pass.selected = st'.pass.produced ∧ st'.pass.conflicts = []) ∧
      ∀ ids r j', (e.repair d ids options).Yields j r j' → ∀ s ∈ r.passes, s.conflicts = 0) ∧
    ∀ (analyzer : Analyzer SourceFile) (indentSize : Nat),
      (∀ file d, (engineOver analyzer indentSize).Fresh file d →
        (∀ id p, sharedProcessors.get? id = some p → ∀ v edits,
          p.apply ⟨d.tree, d.parsed, v.node, v, fragments d.tree.filePath⟩ = .ok (.applied edits) →
          ∃ edit, edits = [edit] ∧ d.tree.Covers v.node edit.touched ∧
            (edit.touched = Tree.root → id = "curly" ∧ v.node = Tree.root)) ∧
        ∀ rules options j d' st st' outcome,
          (engineOver analyzer indentSize).Makes rules options d j d' st st' outcome →
          st'.pass.selected = st'.pass.produced ∧ st'.pass.conflicts = [] ∧
          (∀ s ∈ st'.pass.produced, s.SingleInner d'.tree) ∧
          ∃ edited, d'.tree.applyEditSets st'.pass.selected = .ok edited) ∧
      ∀ text file ids options j r j',
        ((engineOver analyzer indentSize).repairSource text file ids options).Yields j r j' →
        (∀ s ∈ r.passes, s.conflicts = 0) ∧
        ∀ failure ∈ r.statistics.failures, failure.code = FailureCode.syntaxError.text := by
  refine ⟨fun e options d j hd hlocal => Engine.repair_local hd hlocal, fun analyzer indentSize =>
    ⟨fun file d hd => ⟨fun id p hp v edits hedits => ?_, fun rules options j =>
      (repair_engineOver hd options j).1 rules⟩, fun text file ids options j r j' hrun => ?_⟩⟩
  · obtain ⟨f, hf⟩ := exists_sound hd
    obtain ⟨edit, hedit, hwithin, hcurly⟩ := places_of_get? (hf v _) hp edits hedits
    refine ⟨edit, hedit, hwithin, fun hroot => ?_⟩
    have hcovers : d.tree.Covers v.node edit.touched := hwithin
    rw [hroot] at hcovers
    have hnode := hd.wellFormed.eq_root_of_covers hcovers
    exact ⟨hcurly hnode, hnode⟩
  · obtain ⟨rules, d, k, k', -, hread, hrepair⟩ := Engine.repair_of_repairSource hrun
    obtain ⟨template, f, hparse, rfl, -⟩ := Engine.read_yields_iff.mp hread
    have hd : (engineOver analyzer indentSize).Fresh file
        ⟨.ofTemplate file text template, some f, j.parsed⟩ := ⟨template, f, hparse, rfl, rfl⟩
    exact (repair_engineOver hd options k).2 rules r k' hrepair

/-- A file with a single statement, which has to go. -/
def debuggerText : Text := .ofString "debugger;"

def debuggerViolation : Violation :=
  ⟨"no-debugger", "a.ts", 1, "DebuggerStatement", "m", .error, ⟨1, 1, 0, 9⟩⟩

theorem exists_debugger : ∃ template f edits, parse debuggerText "a.ts" = .ok (template, f) ∧
    noDebugger ⟨.ofTemplate "a.ts" debuggerText template, some f, debuggerViolation.node,
      debuggerViolation, fragments "a.ts"⟩ = .ok (.applied edits) ∧ edits.map Edit.touched = [1] := by
  have hplain : withoutMark debuggerText = debuggerText := rfl
  have hparse := parse_of_ordered ofPath_typed hplain (by decide +kernel) (by decide +kernel)
  have htouched : ((noDebugger ⟨.ofTemplate "a.ts" debuggerText (templateAsListed (.ofText debuggerText)
      [] (SourceFile.read {} (.ofText debuggerText)).ast), some (.read {} (.ofText debuggerText)),
      debuggerViolation.node, debuggerViolation, fragments "a.ts"⟩).edits?.map
        fun edits => edits.map Edit.touched) = some [1] := by decide +kernel
  obtain ⟨edits, hedits, hmap⟩ := Option.map_eq_some_iff.mp htouched
  exact ⟨_, _, edits, hparse, eq_of_edits? hedits, hmap⟩

theorem localOn_relabeling (d : Document Unit) :
    Workshop.LocalOn ⟨Engine.relabeling.language, Engine.relabeling.processors⟩ d := by
  intro id p hp v edits hedits edit hedit
  cases List.mem_singleton.mp (Register.mem_entries_of_get? hp)
  cases hedits
  rw [List.mem_singleton.mp hedit]
  exact d.tree.covers_refl v.node

theorem local_repairs_selected_debugger :
    (∃ r j', (Engine.relabeling.repair nestedDocument ["r"] Engine.frugal).Yields {} r j' ∧
      r.passes.map (fun s => (s.committed, s.conflicts)) = [(true, 0)]) ∧
    (∃ template f edit, parse debuggerText "a.ts" = .ok (template, f) ∧
      noDebugger ⟨.ofTemplate "a.ts" debuggerText template, some f, debuggerViolation.node,
        debuggerViolation, fragments "a.ts"⟩ = .ok (.applied [edit]) ∧
      (Tree.ofTemplate "a.ts" debuggerText template).Covers debuggerViolation.node edit.touched ∧
      edit.touched = 1) ∧
    ∃ r j', ((engine 4).repairSource debuggerText "a.ts" ["no-debugger"] {}).Yields {} r j' ∧
      (∀ s ∈ r.passes, s.conflicts = 0) ∧
      ∀ failure ∈ r.statistics.failures, failure.code = FailureCode.syntaxError.text := by
  obtain ⟨template, f, edits, hparse, hedits, htouched⟩ := exists_debugger
  have hfresh : (engineOver (Catalog.analyzer sharedChecks) 4).Fresh "a.ts"
      ⟨.ofTemplate "a.ts" debuggerText template, some f, 0⟩ := ⟨template, f, hparse, rfl, rfl⟩
  obtain ⟨hgeneral, hbuiltin⟩ := @local_repairs_selected
  refine ⟨?_, ?_, ?_⟩
  · obtain ⟨r, j', hrun, -, hcommitted⟩ := Engine.relabeling_run
    have hnone := (hgeneral Engine.relabeling Engine.frugal nestedDocument {}
      (Tree.wellFormed_ofTemplate ..) fun _ d' _ _ => localOn_relabeling d').2 _ r j' hrun
    obtain ⟨s, hs⟩ : ∃ s, r.passes = [s] := by
      rw [← List.length_eq_one_iff]
      simpa using congrArg List.length hcommitted
    refine ⟨r, j', hrun, ?_⟩
    rw [hs] at hcommitted ⊢
    have hconflicts := hnone s (by rw [hs]; exact List.mem_singleton_self s)
    simpa [hconflicts] using hcommitted
  · obtain ⟨edit, rfl, hwithin, -⟩ := ((hbuiltin (Catalog.analyzer sharedChecks) 4).1 _ _
      hfresh).1 "no-debugger" _ rfl debuggerViolation _ hedits
    exact ⟨template, f, edit, hparse, hedits, hwithin, (List.cons.inj htouched).1⟩
  · have hrules : (engine 4).validateRules ["no-debugger"] = .ok ["no-debugger"] := rfl
    have hread : ((engine 4).language.read debuggerText "a.ts").Yields {}
        ⟨.ofTemplate "a.ts" debuggerText template, some f, 0⟩ { parsed := 1 } :=
      Engine.read_yields_iff.mpr ⟨template, f, hparse, rfl, rfl⟩
    obtain ⟨r, k, hrepair⟩ : ∃ r k, ((engine 4).repair
        ⟨.ofTemplate "a.ts" debuggerText template, some f, 0⟩ ["no-debugger"] {}).Yields
          { parsed := 1 } r k := by
      refine Engine.exists_result hrules (fun n q k hreached => ?_) (.inl nofun)
      have hq := hreached.fresh hfresh
      obtain ⟨_, parsed, -, -, hparsed⟩ := id hq
      refine Engine.gives_turn (Catalog.gives_holds hparsed fun id hid check hcheck => ?_)
        hq.wellFormed {} n
      obtain rfl := List.mem_singleton.mp hid
      cases hcheck
      exact ⟨_, rfl⟩
    obtain ⟨j', hrun⟩ := Engine.repairSource_of_repair hrules hread hrepair
    obtain ⟨hnone, hfailures⟩ := (hbuiltin (Catalog.analyzer sharedChecks) 4).2 _ _ _ _ _ r j' hrun
    exact ⟨r, j', hrun, hnone, hfailures⟩

end LintRepair.Rules
