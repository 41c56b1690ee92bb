import LintRepair.Syntax.Layout.Nesting

/-!
# The site between two stretches

Two neighbouring tokens or comments, the nodes that they belong to and the node in which they meet, and what
the rules of spacing ask about them.
-/
namespace LintRepair.Syntax.Layout

structure Site where
  lines : Lines
  before : Stretch
  /-- The node that the stretch before belongs to. -/
  beforeIn : Branch
  behind : Stretch
  /-- The node that the stretch behind belongs to. -/
  behindIn : Branch
  /-- The node in which the two meet. -/
  within : Branch
deriving Inhabited

namespace Site

variable (t : Site)

def beforeIs (k : Kind) : Bool := t.before.kind = .token k

def behindIs (k : Kind) : Bool := t.behind.kind = .token k

/-- One of the two is a token of the kind. -/
def eitherIs (k : Kind) : Bool := t.beforeIs k || t.behindIs k

/-- Both start on one line. -/
def onOneLine : Bool := t.lines.together t.before.start t.behind.start

/-- Both start on one line, and not in a text of markup. -/
def onPlainLine : Bool := t.onOneLine && t.within.kind ≠ .jsxText

/-! ## The node in which they meet -/

/-- A function or whatever has a list of parameters. -/
def hasParameters : Kind → Bool
  | .methodSignature | .callSignature | .constructSignature | .indexSignature | .functionType
  | .jsDocFunctionType | .constructorType | .functionDeclaration | .methodDeclaration
  | .constructorDeclaration | .getAccessor | .setAccessor | .functionExpression | .arrowFunction => true
  | _ => false

/-- Marks between the two are operators between operands, or may be formatted as if they were. -/
def inOperation : Bool :=
  match t.within.kind with
  | .binaryExpression => !(t.within.node.child? .operator).any (·.kind = .commaToken)
  | .conditionalExpression | .conditionalType | .asExpression | .exportSpecifier | .importSpecifier
  | .typePredicate | .unionType | .intersectionType | .satisfiesExpression => true
  | .bindingElement | .typeAliasDeclaration | .importEqualsDeclaration | .exportAssignment
  | .variableDeclaration | .parameter | .enumMember | .propertyDeclaration | .propertySignature =>
    t.eitherIs .equalsToken
  | .forInStatement | .typeParameter => t.eitherIs .inKeyword || t.eitherIs .equalsToken
  | .forOfStatement => t.eitherIs .ofKeyword
  | _ => false

/-- A mark between the two may belong to the type of what is declared. -/
def inAnnotated : Bool :=
  match t.within.kind with
  | .propertyDeclaration | .propertySignature | .parameter | .variableDeclaration => true
  | k => hasParameters k

def inOptionalProperty : Bool := t.within.kind = .propertyDeclaration && t.within.node.has .question

def inConditional : Bool := t.within.kind = .conditionalExpression || t.within.kind = .conditionalType

/-- Members or names stand in braces of the node itself. -/
def isBraced : Kind → Bool
  | .classDeclaration | .classExpression | .interfaceDeclaration | .enumDeclaration | .typeLiteral
  | .moduleDeclaration | .exportDeclaration | .namedExports | .importDeclaration | .namedImports => true
  | _ => false

/-- Lines in braces. -/
def isBlock (k : Kind) : Bool :=
  isBraced k || k = .block || k = .caseBlock || k = .objectLiteralExpression || k = .moduleBlock

/-- Where the opening brace of a node ends and its closing brace starts. -/
def braces? (a : Ast) : Option (Nat × Nat) :=
  match a.kind with
  | .block | .caseBlock | .objectLiteralExpression | .moduleBlock | .typeLiteral | .namedExports
  | .namedImports => some (a.start + 1, a.stop - 1)
  | .classDeclaration | .classExpression | .interfaceDeclaration | .enumDeclaration =>
    (a.list? .members).map fun extent => (extent.start, a.stop - 1)
  | _ => none

/-- The node, or all between its braces, is on one line. -/
def isLow (l : Lines) (a : Ast) : Bool :=
  l.together a.start a.stop || (braces? a).any fun (i, j) => l.together i j

def inBlock : Bool := isBlock t.within.kind

def inHighBlock : Bool := t.inBlock && !isLow t.lines t.within.node

def inLowBlock : Bool := t.inBlock && isLow t.lines t.within.node

/-- A blank belongs inside the braces of the node. -/
def inPaddedBraces : Bool :=
  t.within.kind = .objectBindingPattern || t.within.kind = .mappedType || t.inLowBlock

/-- What stands behind belongs to lines in braces. -/
def beforeBlock : Bool := isBlock t.behindIn.kind

def inFunction : Bool :=
  match t.within.kind with
  | .functionDeclaration | .methodDeclaration | .methodSignature | .getAccessor | .setAccessor
  | .callSignature | .functionExpression | .constructorDeclaration | .arrowFunction
  | .interfaceDeclaration => true
  | _ => false

def inNamedFunction : Bool :=
  t.within.kind = .functionDeclaration || t.within.kind = .functionExpression

def inBraced : Bool := isBraced t.within.kind

/-- What stands before closes lines of code. -/
def afterCode : Bool :=
  match t.beforeIn.kind with
  | .classDeclaration | .moduleDeclaration | .enumDeclaration | .catchClause | .moduleBlock
  | .switchStatement => true
  | .block => t.beforeIn.parentKind ≠ .arrowFunction && t.beforeIn.parentKind ≠ .functionExpression
  | _ => false

/-- A statement that decides what runs. -/
def inControl : Bool :=
  match t.within.kind with
  | .ifStatement | .switchStatement | .forStatement | .forInStatement | .forOfStatement | .whileStatement
  | .tryStatement | .doStatement | .withStatement | .catchClause => true
  | _ => false

/-- A statement with a condition in brackets. -/
def inCondition : Bool :=
  match t.within.kind with
  | .ifStatement | .forStatement | .forInStatement | .forOfStatement | .doStatement | .whileStatement => true
  | _ => false

def inKind (k : Kind) : Bool := t.within.kind = k

def inCall : Bool := t.inKind .callExpression || t.inKind .newExpression

def inMarkup : Bool := t.inKind .jsxElement || t.inKind .jsxFragment

def inMarkupExpression : Bool := t.inKind .jsxExpression || t.inKind .jsxSpreadAttribute

/-- What stands behind belongs to an attribute of markup. -/
def beforeAttribute : Bool :=
  t.behindIn.kind = .jsxAttribute
    || (t.behindIn.kind = .jsxNamespacedName && t.behindIn.parentKind = .jsxAttribute)

def beforeSpacedName : Bool := t.behindIn.kind = .jsxNamespacedName

/-- A value: what a statement may be made of. -/
def isValue : Kind → Bool
  | .conditionalExpression | .yieldExpression | .arrowFunction | .binaryExpression | .spreadElement
  | .asExpression | .omittedExpression | .satisfiesExpression | .prefixUnaryExpression
  | .postfixUnaryExpression | .deleteExpression | .typeOfExpression | .voidExpression | .awaitExpression
  | .typeAssertionExpression | .propertyAccessExpression | .elementAccessExpression | .newExpression
  | .callExpression | .jsxElement | .jsxSelfClosingElement | .jsxFragment | .taggedTemplateExpression
  | .arrayLiteralExpression | .parenthesizedExpression | .objectLiteralExpression | .classExpression
  | .functionExpression | .identifier | .privateIdentifier | .regularExpressionLiteral | .numericLiteral
  | .bigIntLiteral | .stringLiteral | .noSubstitutionTemplateLiteral | .templateExpression | .falseKeyword
  | .nullKeyword | .thisKeyword | .trueKeyword | .superKeyword | .nonNullExpression
  | .expressionWithTypeArguments | .metaProperty | .importKeyword | .missingDeclaration => true
  | _ => false

/-- The innermost node around that is no value is a decorator. -/
def isDecoration (b : Branch) : Bool :=
  ((b.node :: b.above).dropWhile fun a => isValue a.kind).head?.any (·.kind = .decorator)

def atDecorationEnd : Bool :=
  t.onOneLine && isDecorated t.within.node && isDecoration t.beforeIn && !isDecoration t.behindIn

/-- The stretch before is the word with which a declaration of variables starts. -/
def atVariables : Bool :=
  t.beforeIn.kind = .variableDeclarationList && t.beforeIn.node.start = t.before.start

/-- A bracket of types belongs to a node with parameters, arguments or an asserted type. -/
def isTypeBracket (x : Stretch) (b : Branch) : Bool :=
  (x.kind = .token .lessThanToken || x.kind = .token .greaterThanToken) &&
    match b.kind with
    | .typeReference | .typeAssertionExpression | .typeAliasDeclaration | .classDeclaration
    | .classExpression | .interfaceDeclaration | .functionDeclaration | .functionExpression
    | .arrowFunction | .methodDeclaration | .methodSignature | .callSignature | .constructSignature
    | .callExpression | .newExpression | .expressionWithTypeArguments => true
    | _ => false

def atTypeBracket : Bool := isTypeBracket t.before t.beforeIn || isTypeBracket t.behind t.behindIn

def atVoid : Bool := t.beforeIs .voidKeyword && t.beforeIn.kind = .voidExpression

def inFilledYield : Bool := t.inKind .yieldExpression && t.within.node.has .expression

/-- A property of a number that is written without a point. -/
def inWholeNumber : Bool :=
  t.inKind .propertyAccessExpression && (t.within.node.child? .expression).any fun e =>
    e.kind = .numericLiteral && !(t.lines.source.slice e.start e.stop).contains (Text.unit '.')

end Site
end LintRepair.Syntax.Layout
