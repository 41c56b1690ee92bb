import LintRepair.Syntax.Comments
import LintRepair.Syntax.Walk

/-!
# Forms that rules look for

What checks and repairs ask about nodes.
-/
namespace LintRepair.Rules

open Syntax

/-- A comparison that converts its operands first. -/
def isLooseEquality (k : Kind) : Bool := k = .equalsEqualsToken || k = .exclamationEqualsToken

def isEquality (k : Kind) : Bool :=
  isLooseEquality k || k = .equalsEqualsEqualsToken || k = .exclamationEqualsEqualsToken

def isNegatedEquality (k : Kind) : Bool :=
  k = .exclamationEqualsToken || k = .exclamationEqualsEqualsToken

/-- The strict form of a loose comparison. -/
def strictForm? : Kind → Option String
  | .equalsEqualsToken => some "==="
  | .exclamationEqualsToken => some "!=="
  | _ => none

/-- The node is the name or the member of `Number` with the given name. -/
def isGlobal (f : SourceFile) (a : Ast) (name : String) : Bool :=
  let text := (f.textOf a).toString
  (a.kind = .identifier && text = name)
    || (a.kind = .propertyAccessExpression && text = "Number." ++ name)

def isNaN (f : SourceFile) (a : Ast) : Bool := isGlobal f a "NaN"

/-- Text in quotes, with or without substitutions. -/
def isStringLike (a : Ast) : Bool :=
  match a.kind with
  | .stringLiteral | .noSubstitutionTemplateLiteral | .templateExpression => true
  | _ => false

/-- A literal value, or the name `undefined`. -/
def isLiteralValue (f : SourceFile) (a : Ast) : Bool :=
  match a.kind with
  | .numericLiteral | .bigIntLiteral | .trueKeyword | .falseKeyword | .nullKeyword => true
  | .identifier => (f.textOf a).toString = "undefined"
  | _ => isStringLike a

/-- The bodies of a branch or loop that have to be blocks; a branch that follows `else` is not one. -/
def controlledBodies (p : Placed) : List Placed :=
  match p.ast.kind with
  | .ifStatement =>
    (p.child? .statement).toList
      ++ ((p.child? .otherwise).filter fun e => e.ast.kind ≠ .ifStatement).toList
  | .forStatement | .forInStatement | .forOfStatement | .whileStatement | .doStatement =>
    (p.child? .statement).toList
  | _ => []

/-- What a statement begins with: the comment that documents it, or its first word. -/
def opening (f : SourceFile) (a : Ast) : Text :=
  match (f.source.leadingComments a.fullStart).filter f.source.isDoc with
  | c :: _ => f.source.slice c.start c.stop
  | [] => f.source.slice a.start (f.source.nameParts a.start).stop

/-- A node from which statements can be taken away. -/
def holdsStatements (a : Ast) : Bool :=
  match a.kind with
  | .block | .sourceFile | .caseClause | .defaultClause | .moduleBlock => true
  | _ => false

/-! ## Declared names -/

/-- A node that bounds the scope of a variable. -/
def boundsScope (a : Ast) : Bool :=
  match a.kind with
  | .sourceFile | .moduleBlock | .functionDeclaration | .functionExpression | .arrowFunction
  | .methodDeclaration | .constructorDeclaration | .getAccessor | .setAccessor => true
  | _ => false

/-- The names that a name or a pattern declares. -/
def boundNames (f : SourceFile) (a : Ast) : List String :=
  match a with
  | .node i children =>
    match i.kind with
    | .identifier => [(f.source.slice i.start i.stop).toString]
    | .objectBindingPattern | .arrayBindingPattern => ofElements children
    | _ => []
where
  /-- The names that the elements of a pattern declare. -/
  ofElements : List Ast → List String
    | [] => []
    | .node i parts :: rest =>
      (if i.kind = .bindingElement then ofParts parts else []) ++ ofElements rest
  /-- The names that the target of an element declares. -/
  ofParts : List Ast → List String
    | [] => []
    | .node i inner :: rest =>
      if i.label = .name then boundNames f (.node i inner) else ofParts rest

/-- The names that a node itself declares. -/
def declaredNames (f : SourceFile) (a : Ast) : List String :=
  match a.kind, a.child? .name with
  | .variableDeclaration, some name | .parameter, some name => boundNames f name
  | .functionDeclaration, some name | .classDeclaration, some name => [(f.textOf name).toString]
  | _, _ => []

/-- The names declared in a scope, repeated ones included; of functions inside it only their own. -/
def namesInScope (f : SourceFile) (scope : Placed) : List String :=
  (scope.ast.descendants boundsScope scope.place).flatMap fun p => declaredNames f p.ast

end LintRepair.Rules
