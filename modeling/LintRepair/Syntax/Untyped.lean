import LintRepair.Syntax.Ast
import LintRepair.Syntax.Complaint
import LintRepair.Syntax.Trivia

/-!
# Files without types

A file without types may be read in full and still use forms that only a typed file has. They are
reported in the order in which they stand, a node before what is in it, and nothing inside a reported node
is looked at.
-/
namespace LintRepair.Syntax.Untyped

/-- Nodes that are reported at their name. -/
def isNamed : Kind → Bool
  | .interfaceDeclaration | .moduleDeclaration | .enumDeclaration | .functionDeclaration
  | .methodDeclaration | .typeAliasDeclaration => true
  | _ => false

/-- A report on a node stands at its name, if it has one. -/
def report (a : Ast) (cause : Cause) : Option (List Complaint) :=
  let at_ := match isNamed a.kind, a.child? .name with
    | true, some name => name
    | _, _ => a
  some [{ start := at_.start, cause, empty := at_.isMissing }]

/-- What is wrong with a node, if that is all there is to say about it. -/
def nodeComplaint (parent a : Ast) : Option (List Complaint) :=
  let typed := match parent.kind with
    | .parameter | .propertyDeclaration | .methodDeclaration | .methodSignature
    | .constructorDeclaration | .getAccessor | .setAccessor | .functionExpression
    | .functionDeclaration | .arrowFunction | .variableDeclaration => true
    | _ => false
  let asked := match parent.kind with
    | .parameter | .propertyDeclaration | .methodDeclaration => true
    | _ => false
  if asked && a.info.label = .question then report a (.typedModifier "?")
  else if typed && a.info.label = .type then report a .annotatedType
  else match a.kind with
    | .importClause => if a.info.typeOnly then report parent (.typedDeclaration "import type") else none
    | .exportDeclaration => if a.info.typeOnly then report a (.typedDeclaration "export type") else none
    | .importSpecifier =>
      if a.info.typeOnly then report a (.typedDeclaration "import...type") else none
    | .exportSpecifier =>
      if a.info.typeOnly then report a (.typedDeclaration "export...type") else none
    | .importEqualsDeclaration => report a .typedImportAssignment
    | .exportAssignment =>
      if a.info.token = .equalsToken then report a .typedExportAssignment else none
    | .heritageClause =>
      if a.info.token = .implementsKeyword then report a .typedImplements else none
    | .interfaceDeclaration => report a (.typedDeclaration "interface")
    | .moduleDeclaration =>
      report a (.typedDeclaration (if a.info.token = .namespaceKeyword then "namespace" else "module"))
    | .typeAliasDeclaration => report a .typedAlias
    | .constructorDeclaration | .methodDeclaration | .functionDeclaration =>
      if a.has .body then none else report a .typedSignature
    | .enumDeclaration => report a (.typedDeclaration "enum")
    | .nonNullExpression => report a .typedNonNull
    | .asExpression => (a.child? .type).bind fun t => report t .typedAssertion
    | .satisfiesExpression => (a.child? .type).bind fun t => report t .typedSatisfaction
    | _ => none

/-- Modifiers that only a typed file has. -/
def modifierComplaints (ms : List Ast) (constToo : Bool) : List Complaint :=
  ms.filterMap fun m =>
    match m.kind with
    | .constKeyword => if constToo then none else some (.of m.start (.typedModifier "const"))
    | .publicKeyword | .privateKeyword | .protectedKeyword | .readonlyKeyword | .declareKeyword
    | .abstractKeyword | .overrideKeyword | .inKeyword | .outKeyword =>
      some (.of m.start (.typedModifier m.kind.text))
    | _ => none

/-- Decorators where none may be; they are reported once for every list of the node. -/
def decoratorComplaints (parent : Ast) : List Complaint :=
  let ms := parent.childrenOf .modifiers
  let first? (k : Kind) : Option Nat := ms.findIdx? (·.kind = k)
  let at_ (i : Nat) (cause : Cause) : List Complaint :=
    match ms[i]? with
    | some m => [.of m.start cause]
    | none => []
  match first? .decorator with
  | none => []
  | some i =>
    match parent.kind with
    | .propertyAssignment | .shorthandPropertyAssignment | .functionDeclaration
    | .constructorDeclaration | .indexSignature | .classStaticBlockDeclaration | .missingDeclaration
    | .variableStatement | .interfaceDeclaration | .typeAliasDeclaration | .enumDeclaration
    | .moduleDeclaration | .importEqualsDeclaration | .importDeclaration
    | .namespaceExportDeclaration | .exportDeclaration | .exportAssignment =>
      at_ i .decoratorMisplaced
    | .parameter => at_ i .decoratorMisplaced
    | .classDeclaration =>
      match first? .exportKeyword with
      | none => []
      | some e =>
        if i > e && (first? .defaultKeyword).any (i < ·) then at_ i .decoratorMisplaced
        else if i < e then
          match (ms.drop e).findIdx? (·.kind = .decorator) with
          | some j => at_ (e + j) .decoratorsAroundExport
          | none => []
        else []
    | _ => []

/-- What is wrong with a list of a node, and whether that is all there is to say about it. -/
def listComplaints (s : Source) (parent : Ast) (l : ListExtent) : List Complaint × Bool :=
  let decorators := decoratorComplaints parent
  let whole (cause : Cause) : List Complaint × Bool :=
    (decorators ++ [.of (s.skipTrivia l.start) cause], true)
  let nodes := parent.childrenOf l.label
  match parent.kind, l.label with
  | .classDeclaration, .typeParameters | .classExpression, .typeParameters
  | .methodDeclaration, .typeParameters | .constructorDeclaration, .typeParameters
  | .getAccessor, .typeParameters | .setAccessor, .typeParameters
  | .functionExpression, .typeParameters | .functionDeclaration, .typeParameters
  | .arrowFunction, .typeParameters => whole .typedTypeParameters
  | .variableStatement, .modifiers => (decorators ++ modifierComplaints nodes true, true)
  | .classDeclaration, .modifiers | .classExpression, .modifiers | .methodDeclaration, .modifiers
  | .constructorDeclaration, .modifiers | .getAccessor, .modifiers | .setAccessor, .modifiers
  | .functionExpression, .modifiers | .functionDeclaration, .modifiers
  | .arrowFunction, .modifiers => (decorators ++ modifierComplaints nodes false, true)
  | .propertyDeclaration, .modifiers =>
    let wrong := nodes.filter fun m =>
      m.kind ≠ .decorator && m.kind ≠ .staticKeyword && m.kind ≠ .accessorKeyword
    (decorators ++ wrong.map fun m => .of m.start (.typedModifier m.kind.text), true)
  | .parameter, .modifiers =>
    if nodes.any (·.kind ≠ .decorator) then whole .typedParameterModifier else (decorators, false)
  | .callExpression, .typeArguments | .newExpression, .typeArguments
  | .expressionWithTypeArguments, .typeArguments | .jsxSelfClosingElement, .typeArguments
  | .jsxOpeningElement, .typeArguments | .taggedTemplateExpression, .typeArguments =>
    whole .typedTypeArguments
  | _, _ => (decorators, false)

/-- The lists of a node that begin before its child of the given index. -/
def listsAt (a : Ast) (index : Nat) : List ListExtent := a.info.lists.filter (·.index = index)

/-- The child of the given index is part of a list about which all is said. -/
def isSettled (s : Source) (a : Ast) (child : Ast) : Bool :=
  a.info.lists.any fun l => l.label = child.info.label && (listComplaints s a l).2

/-- What is wrong inside a node. -/
def inside (s : Source) (a : Ast) : List Complaint :=
  match a with
  | .node info children => go (.node info children) children 0
where
  /-- What is wrong with the children from the given index on. -/
  go (parent : Ast) : List Ast → Nat → List Complaint
    | [], index => (listsAt parent index).flatMap fun l => (listComplaints s parent l).1
    | c :: rest, index =>
      let lists := (listsAt parent index).flatMap fun l => (listComplaints s parent l).1
      let own := if isSettled s parent c then []
        else match nodeComplaint parent c with
          | some cs => cs
          | none => inside s c
      lists ++ own ++ go parent rest (index + 1)

end LintRepair.Syntax.Untyped
