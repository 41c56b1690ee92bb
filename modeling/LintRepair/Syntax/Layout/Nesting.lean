import LintRepair.Syntax.Layout.Lines
import LintRepair.Syntax.Layout.Reading

/-!
# What is indented inside what

Which nodes set their children on further lines one level in, and where a line starts that belongs to a node
but is not indented against it.
-/
namespace LintRepair.Syntax.Layout

namespace Lines

/-- A node starts and ends on one line. -/
def isOnOneLine (l : Lines) (a : Ast) : Bool := l.together (l.source.skipTrivia a.fullStart) a.stop

/-- The line on which a node starts. -/
def lineOfNode (l : Lines) (a : Ast) : Nat := l.lineOf a.start

end Lines

/-- Decorators stand before the node. -/
def isDecorated (a : Ast) : Bool := a.hasModifier .decorator

/-- The line on which a node starts without its decorators. -/
def Lines.undecoratedLine (l : Lines) (a : Ast) : Nat :=
  match ((a.childrenOf .modifiers).filter (·.kind = .decorator)).getLast? with
  | some d => l.lineOf (l.source.skipTrivia d.stop)
  | none => l.lineOfNode a

/-- A node whose children on further lines are one level in, whatever they are. -/
def alwaysIndents : Kind → Bool
  | .expressionStatement | .classDeclaration | .classExpression | .interfaceDeclaration | .enumDeclaration
  | .typeAliasDeclaration | .arrayLiteralExpression | .block | .moduleBlock | .objectLiteralExpression
  | .typeLiteral | .mappedType | .tupleType | .caseBlock | .defaultClause | .caseClause
  | .parenthesizedExpression | .propertyAccessExpression | .callExpression | .newExpression
  | .variableStatement | .exportAssignment | .returnStatement | .conditionalExpression
  | .arrayBindingPattern | .objectBindingPattern | .jsxOpeningElement | .jsxOpeningFragment
  | .jsxSelfClosingElement | .jsxExpression | .methodSignature | .callSignature | .constructSignature
  | .parameter | .functionType | .constructorType | .parenthesizedType | .taggedTemplateExpression
  | .awaitExpression | .namedExports | .namedImports | .exportSpecifier | .importSpecifier
  | .propertyDeclaration => true
  | _ => false

/-- Whether a child, or any where none is given, is one level in on further lines; `unsaid` is the answer for
nodes about which there is no rule. -/
def indents (l : Lines) (parent : Ast) (child : Option Ast) (unsaid : Bool) : Bool :=
  let childKind := (child.map (·.kind)).getD .unknown
  let onOneLine : Bool := child.any l.isOnOneLine
  match parent.kind with
  | .variableDeclaration | .propertyAssignment => if childKind = .objectLiteralExpression then onOneLine else true
  | .binaryExpression =>
    if childKind = .objectLiteralExpression then onOneLine
    else if childKind = .jsxElement then
      !child.any fun c => l.together (l.source.skipTrivia parent.fullStart) (l.source.skipTrivia c.fullStart)
    else unsaid
  | .doStatement | .whileStatement | .forInStatement | .forOfStatement | .forStatement | .ifStatement
  | .functionDeclaration | .functionExpression | .methodDeclaration | .constructorDeclaration | .getAccessor
  | .setAccessor => childKind ≠ .block
  | .arrowFunction => if childKind = .parenthesizedExpression then onOneLine else childKind ≠ .block
  | .exportDeclaration => childKind ≠ .namedExports
  | .importDeclaration =>
    childKind ≠ .importClause
      || (child.bind (·.child? .bindings)).any fun b => b.kind ≠ .namedImports
  | .jsxElement => childKind ≠ .jsxClosingElement
  | .jsxFragment => childKind ≠ .jsxClosingFragment
  | .intersectionType | .unionType | .satisfiesExpression =>
    if childKind = .typeLiteral || childKind = .tupleType || childKind = .mappedType then false else unsaid
  | .tryStatement => if childKind = .block then false else unsaid
  | k => alwaysIndents k || unsaid

/-- The child is the branch behind `else`, on the line of that word. -/
def followsElse (l : Lines) (parent child : Ast) : Bool :=
  parent.kind = .ifStatement && child.info.label = .otherwise
    && (parent.child? .statement).any fun before => l.together (l.source.skipTrivia before.stop) child.start

/-- The child is a branch of a conditional expression that starts where the part before it ends. -/
def isLevelBranch (l : Lines) (parent child : Ast) : Bool :=
  parent.kind = .conditionalExpression &&
    match child.info.label, parent.child? .condition, parent.child? .whenTrue with
    | .whenTrue, some condition, _ => l.together condition.stop child.start
    | .whenFalse, some condition, some yes =>
      l.together condition.stop yes.start && l.together yes.stop child.start
    | _, _, _ => false

/-- The argument before a place among arguments. -/
def argumentBefore? (arguments : List Ast) (place : Nat) : Option Ast :=
  match arguments with
  | a :: b :: rest => if b.fullStart = place then some a else argumentBefore? (b :: rest) place
  | _ => none

/-- The child is an argument that starts on the line on which the one before it ends. -/
def followsArgument (l : Lines) (parent child : Ast) : Bool :=
  (parent.kind = .callExpression || parent.kind = .newExpression)
    && (argumentBefore? (parent.childrenOf .arguments) child.fullStart).any fun before =>
      l.together before.stop child.start

/-- The brackets around a list of a node, where its lines are indented against the opening one. -/
def bracketsOf (parent : Kind) (list : Label) : Option (Kind × Kind) :=
  let angles : Option (Kind × Kind) := some (.lessThanToken, .greaterThanToken)
  let rounds : Option (Kind × Kind) := some (.openParenToken, .closeParenToken)
  match parent, list with
  | .constructorDeclaration, l | .functionDeclaration, l | .functionExpression, l | .methodDeclaration, l
  | .methodSignature, l | .arrowFunction, l | .callSignature, l | .constructSignature, l | .functionType, l
  | .constructorType, l | .getAccessor, l | .setAccessor, l =>
    if l = .typeParameters then angles else if l = .parameters then rounds else none
  | .callExpression, l | .newExpression, l =>
    if l = .typeArguments then angles else if l = .arguments then rounds else none
  | .classDeclaration, .typeParameters | .classExpression, .typeParameters
  | .interfaceDeclaration, .typeParameters | .typeAliasDeclaration, .typeParameters
  | .typeReference, .typeArguments | .taggedTemplateExpression, .typeArguments | .typeQuery, .typeArguments
  | .expressionWithTypeArguments, .typeArguments | .importType, .typeArguments => angles
  | .typeLiteral, _ => some (.openBraceToken, .closeBraceToken)
  | _, _ => none

/-- The kind of the token with which a decorated node goes on behind its decorators. -/
def firstUndecorated (a : Ast) : Option Kind :=
  let modifiers := a.childrenOf .modifiers
  match (modifiers.dropWhile (·.kind ≠ .decorator)).find? (·.kind ≠ .decorator) with
  | some m => some m.kind
  | none =>
    match a.kind with
    | .classDeclaration => some .classKeyword
    | .interfaceDeclaration => some .interfaceKeyword
    | .functionDeclaration => some .functionKeyword
    | .getAccessor => some .getKeyword
    | .setAccessor => some .setKeyword
    | .methodDeclaration =>
      if a.has .asterisk then some .asteriskToken else (a.child? .name).map (·.kind)
    | .propertyDeclaration | .parameter => (a.child? .name).map (·.kind)
    | _ => none

end LintRepair.Syntax.Layout
