import LintRepair.Syntax.Layout.Site

/-!
# Rules of spacing

Each rule says for which pairs of neighbours, and where, a blank or a line end stands between them or nothing.
The first rule that fits a site holds; rules for given pairs come before those for a token beside any other.
-/
namespace LintRepair.Syntax.Layout

/-- What is to stand between two neighbours. -/
inductive Spacing where
  | asIs | blank | nothing | lineEnd
deriving DecidableEq, Repr, Inhabited

/-- The stretches for which one side of a rule is made. -/
inductive Side where
  | any
  /-- Any but these tokens. -/
  | anyBut (ks : List Kind)
  | these (ks : List Kind)
  /-- Tokens from one kind to another. -/
  | between (first last : Kind)
  | remark
  | lineRemark
  /-- These tokens, or a comment with a closing mark. -/
  | remarkOr (ks : List Kind)
  /-- Any token or comment, but as if they were listed. -/
  | listed
deriving Repr, Inhabited

namespace Side

/-- The side lists its tokens. -/
def isSpecific : Side → Bool
  | any | anyBut _ => false
  | _ => true

def covers : Side → StretchKind → Bool
  | any, .token k => k ≠ .endOfFileToken
  | any, _ => true
  | anyBut ks, .token k => k ≠ .endOfFileToken && !ks.contains k
  | anyBut _, _ => true
  | these ks, .token k => ks.contains k
  | these _, _ => false
  | between first last, .token k => first.ctorIdx ≤ k.ctorIdx && k.ctorIdx ≤ last.ctorIdx
  | between .., _ => false
  | remark, x => x.isRemark
  | lineRemark, x => x = .lineRemark
  | remarkOr ks, .token k => ks.contains k
  | remarkOr _, x => x = .blockRemark
  | listed, .token k => k ≠ .endOfFileToken
  | listed, _ => true

end Side

structure SpacingRule where
  before : Side
  behind : Side
  applies : Site → Bool
  spacing : Spacing
  /-- The rule may take away line ends. -/
  joins : Bool := false

namespace SpacingRule

def isSpecific (r : SpacingRule) : Bool := r.before.isSpecific && r.behind.isSpecific

def fits (r : SpacingRule) (t : Site) : Bool :=
  r.before.covers t.before.kind && r.behind.covers t.behind.kind && r.applies t

end SpacingRule

open Site

/-- A rule for two tokens on one line. -/
def onLine (before behind : Side) (spacing : Spacing) (also : Site → Bool := fun _ => true) : SpacingRule :=
  ⟨before, behind, fun t => t.onPlainLine && also t, spacing, false⟩

def keywords : Side := .between .breakKeyword .ofKeyword

def operators : Side := .between .lessThanToken .caretEqualsToken

def wordOperators : Side :=
  .these [.inKeyword, .instanceOfKeyword, .ofKeyword, .asKeyword, .isKeyword, .satisfiesKeyword]

/-- Names of types. -/
def typeNames : List Kind :=
  [.identifier, .anyKeyword, .assertsKeyword, .bigIntKeyword, .booleanKeyword, .falseKeyword, .inferKeyword,
    .keyOfKeyword, .neverKeyword, .nullKeyword, .numberKeyword, .objectKeyword, .readonlyKeyword,
    .stringKeyword, .symbolKeyword, .typeOfKeyword, .trueKeyword, .voidKeyword, .undefinedKeyword,
    .uniqueKeyword, .unknownKeyword]

/-- What stands before the brace of a statement that decides what runs. -/
def controlEnds : Side :=
  .remarkOr [.closeParenToken, .doKeyword, .tryKeyword, .finallyKeyword, .elseKeyword, .catchKeyword]

/-- What stands before the brace of a declaration. -/
def headEnds : Side :=
  .remarkOr [.identifier, .greaterThanToken, .classKeyword, .exportKeyword, .importKeyword]

/-- Words of declarations behind which a blank stands. -/
def declaringWords : List Kind :=
  [.abstractKeyword, .accessorKeyword, .classKeyword, .declareKeyword, .defaultKeyword, .enumKeyword,
    .exportKeyword, .extendsKeyword, .getKeyword, .implementsKeyword, .importKeyword, .interfaceKeyword,
    .moduleKeyword, .namespaceKeyword, .overrideKeyword, .privateKeyword, .publicKeyword, .protectedKeyword,
    .readonlyKeyword, .setKeyword, .staticKeyword, .typeKeyword, .fromKeyword, .keyOfKeyword, .inferKeyword]

/-- Colons, question marks, dots and signs. -/
def markRules : List SpacingRule :=
  let steppedBefore : List Kind := [.identifier, .openParenToken, .thisKeyword, .newKeyword]
  let steppedBehind : List Kind := [.identifier, .closeParenToken, .closeBracketToken, .newKeyword]
  let signs (a b : Kind) : SpacingRule := onLine (.these [a]) (.these [b]) .blank inOperation
  [ onLine .any (.these [.colonToken]) .nothing fun t => !t.inOperation && !t.inAnnotated
  , onLine (.these [.colonToken]) .any .blank fun t => !t.inOperation && !t.beforeSpacedName
  , onLine .any (.these [.questionToken]) .nothing fun t => !t.inOperation && !t.inAnnotated
  , onLine (.these [.questionToken]) .any .blank inConditional
  , onLine (.these [.questionToken]) .any .nothing fun t => !t.inOptionalProperty
  , onLine .any (.these [.dotToken, .questionDotToken]) .nothing fun t => !t.inWholeNumber
  , onLine (.these [.dotToken, .questionDotToken]) .any .nothing
  , onLine (.these [.importKeyword]) (.these [.openParenToken]) .nothing fun t => t.inKind .importType
  , onLine (.these [.plusPlusToken, .minusMinusToken, .tildeToken, .exclamationToken])
      (.these [.numericLiteral, .bigIntLiteral, .identifier, .openParenToken, .openBracketToken,
        .openBraceToken, .thisKeyword, .newKeyword]) .nothing fun t => !t.inOperation
  , onLine (.these [.plusPlusToken]) (.these steppedBefore) .nothing
  , onLine (.these [.minusMinusToken]) (.these steppedBefore) .nothing
  , onLine (.these steppedBehind) (.these [.plusPlusToken]) .nothing fun t => !t.inCondition
  , onLine (.these steppedBehind) (.these [.minusMinusToken]) .nothing fun t => !t.inCondition
  , signs .plusPlusToken .plusToken
  , signs .plusToken .plusToken
  , signs .plusToken .plusPlusToken
  , signs .minusMinusToken .minusToken
  , signs .minusToken .minusToken
  , signs .minusToken .minusMinusToken ]

/-- Braces, and words of statements. -/
def statementRules : List SpacingRule :=
  [ onLine (.these [.closeBraceToken]) (.these [.commaToken, .semicolonToken]) .nothing
  , ⟨.listed, .these [.closeBraceToken], inHighBlock, .lineEnd, false⟩
  , onLine (.these [.closeBraceToken]) (.anyBut [.closeParenToken]) .blank afterCode
  , onLine (.these [.closeBraceToken]) (.these [.elseKeyword]) .blank
  , onLine (.these [.closeBraceToken]) (.these [.whileKeyword]) .blank
  , onLine (.these [.openBraceToken]) (.these [.closeBraceToken]) .nothing fun t =>
      t.inKind .objectLiteralExpression
  , ⟨.these [.closeParenToken], .these [.openBracketToken], inControl, .blank, false⟩
  , ⟨.these [.functionKeyword], .these [.asteriskToken], inNamedFunction, .nothing, false⟩
  , ⟨.these [.asteriskToken], .these [.identifier], inNamedFunction, .blank, false⟩
  , ⟨.these [.functionKeyword], .any, inFunction, .blank, false⟩
  , ⟨.these [.openBraceToken], .any, inHighBlock, .lineEnd, false⟩
  , ⟨.these [.getKeyword, .setKeyword], .these [.identifier], inFunction, .blank, false⟩
  , onLine (.these [.yieldKeyword]) (.these [.asteriskToken]) .nothing inFilledYield
  , onLine (.these [.yieldKeyword, .asteriskToken]) .any .blank inFilledYield
  , onLine (.these [.returnKeyword]) (.these [.semicolonToken]) .nothing
  , onLine (.these [.varKeyword, .throwKeyword, .newKeyword, .deleteKeyword, .returnKeyword, .typeOfKeyword,
      .awaitKeyword]) .any .blank
  , onLine (.these [.letKeyword, .constKeyword]) .any .blank atVariables
  , onLine .any (.these [.openParenToken]) .nothing fun t => t.inCall && !t.beforeIs .commaToken
  , onLine .any wordOperators .blank inOperation
  , onLine wordOperators .any .blank inOperation
  , onLine (.these [.voidKeyword]) .any .blank atVoid
  , onLine (.these [.asyncKeyword]) (.these [.openParenToken]) .blank fun t => t.inKind .arrowFunction
  , onLine (.these [.asyncKeyword]) (.these [.functionKeyword, .identifier]) .blank
  , onLine (.these [.identifier, .closeParenToken]) (.these [.noSubstitutionTemplateLiteral, .templateHead])
      .nothing ]

/-- Markup, types and decorators. -/
def declarationRules : List SpacingRule :=
  [ onLine .any (.these [.identifier]) .blank beforeAttribute
  , onLine .any (.these [.slashToken]) .blank fun t => t.inKind .jsxSelfClosingElement
  , onLine (.these [.slashToken]) (.these [.greaterThanToken]) .nothing fun t =>
      t.inKind .jsxSelfClosingElement
  , onLine .any (.these [.equalsToken]) .nothing fun t => t.inKind .jsxAttribute
  , onLine (.these [.equalsToken]) .any .nothing fun t => t.inKind .jsxAttribute
  , ⟨.these [.identifier], .these [.colonToken], beforeSpacedName, .nothing, false⟩
  , ⟨.these [.colonToken], .these [.identifier], beforeSpacedName, .nothing, false⟩
  , onLine (.these [.moduleKeyword, .requireKeyword]) (.these [.openParenToken]) .nothing
  , onLine (.these declaringWords) .any .blank
  , onLine .any (.these [.extendsKeyword, .implementsKeyword, .fromKeyword]) .blank
  , ⟨.these [.stringLiteral], .these [.openBraceToken], fun t => t.inKind .moduleDeclaration, .blank, false⟩
  , onLine .any (.these [.equalsGreaterThanToken]) .blank
  , onLine (.these [.equalsGreaterThanToken]) .any .blank
  , onLine (.these [.dotDotDotToken]) (.these [.identifier]) .nothing
  , onLine (.these [.questionToken]) (.these [.closeParenToken, .commaToken]) .nothing fun t => !t.inOperation
  , onLine (.these [.openBraceToken]) (.these [.closeBraceToken]) .nothing fun t => t.inKind .typeLiteral
  , onLine (.these typeNames) (.these [.lessThanToken]) .nothing atTypeBracket
  , onLine (.these [.closeParenToken]) (.these [.lessThanToken]) .nothing atTypeBracket
  , onLine (.these [.lessThanToken]) .any .nothing atTypeBracket
  , onLine .any (.these [.greaterThanToken]) .nothing atTypeBracket
  , onLine (.these [.greaterThanToken])
      (.these [.openParenToken, .openBracketToken, .greaterThanToken, .commaToken]) .nothing fun t =>
      t.atTypeBracket && !t.inFunction && !t.inKind .typeAssertionExpression
  , onLine (.these [.closeParenToken, .identifier]) (.these [.atToken]) .blank
  , onLine (.these [.atToken]) .any .nothing
  , ⟨.any, .these [.abstractKeyword, .identifier, .exportKeyword, .defaultKeyword, .classKeyword,
      .staticKeyword, .publicKeyword, .privateKeyword, .protectedKeyword, .getKeyword, .setKeyword,
      .openBracketToken, .asteriskToken], atDecorationEnd, .blank, false⟩
  , onLine .any (.these [.exclamationToken]) .nothing fun t => t.inKind .nonNullExpression
  , onLine (.these [.newKeyword]) (.these [.openParenToken]) .nothing fun t => t.inKind .constructSignature
  , onLine (.these [.lessThanToken]) (.these [.lessThanToken]) .blank ]

/-- Brackets, commas and operators. -/
def bracketRules : List SpacingRule :=
  [ onLine (.these [.constructorKeyword]) (.these [.openParenToken]) .nothing
  , onLine (.these [.commaToken]) .any .blank fun t =>
      !t.inMarkup && !t.behindIs .closeBracketToken && !t.behindIs .closeParenToken
  , ⟨.these [.functionKeyword, .asteriskToken], .these [.openParenToken], inFunction, .nothing, false⟩
  , ⟨keywords, .these [.openParenToken], inControl, .blank, false⟩
  , onLine (.these [.openParenToken]) (.these [.closeParenToken]) .nothing
  , onLine (.these [.openParenToken]) .any .nothing
  , onLine .any (.these [.closeParenToken]) .nothing
  , onLine (.these [.openBracketToken]) (.these [.closeBracketToken]) .nothing
  , onLine (.these [.openBracketToken]) .any .nothing
  , onLine .any (.these [.closeBracketToken]) .nothing
  , ⟨.these [.openBraceToken], .any, inPaddedBraces, .blank, false⟩
  , ⟨.any, .these [.closeBraceToken], inPaddedBraces, .blank, false⟩
  , ⟨.these [.templateHead, .templateMiddle], .any, fun t => !t.inKind .jsxText, .nothing, true⟩
  , onLine .any (.these [.templateMiddle, .templateTail]) .nothing
  , onLine (.these [.openBraceToken]) .any .nothing inMarkupExpression
  , onLine .any (.these [.closeBraceToken]) .nothing inMarkupExpression
  , onLine (.these [.semicolonToken]) .any .blank fun t => t.inKind .forStatement
  , onLine .any operators .blank inOperation
  , onLine operators .any .blank inOperation
  , onLine .any (.these [.openParenToken]) .nothing inFunction
  , onLine (.these [.greaterThanToken]) .any .nothing fun t => t.inKind .typeAssertionExpression
  , onLine .any (.these [.questionToken, .colonToken]) .nothing inAnnotated ]

/-- What holds where nothing else is said. -/
def plainRules : List SpacingRule :=
  let joined (t : Site) : Bool := t.onOneLine || t.beforeBlock
  [ onLine .any (.these [.semicolonToken]) .nothing
  , ⟨controlEnds, .these [.openBraceToken], fun t => t.inControl && joined t, .blank, true⟩
  , ⟨.listed, .these [.openBraceToken], fun t => t.inFunction && t.beforeBlock, .blank, true⟩
  , ⟨headEnds, .these [.openBraceToken], fun t => t.inBraced && joined t, .blank, true⟩
  , onLine .any (.these [.commaToken]) .nothing
  , onLine (.anyBut [.asyncKeyword, .caseKeyword]) (.these [.openBracketToken]) .nothing
  , onLine (.these [.closeBracketToken]) .any .nothing fun t => !t.inFunction && !t.beforeBlock
  , onLine (.these [.semicolonToken]) .any .blank
  , onLine (.these [.forKeyword]) (.these [.awaitKeyword]) .blank
  , onLine (.these [.dotDotDotToken]) (.these typeNames) .nothing
  , onLine (.these [.closeParenToken, .doKeyword, .elseKeyword, .caseKeyword]) .any .blank fun t =>
      !t.inMarkup && !t.inKind .forStatement
  , onLine (.these [.tryKeyword, .catchKeyword, .finallyKeyword]) (.these [.openBraceToken]) .blank ]

def spacingRules : List SpacingRule :=
  markRules ++ statementRules ++ declarationRules ++ bracketRules ++ plainRules

/-- Comments are left where they are. -/
def remarkRules : List SpacingRule :=
  [ ⟨.any, .remark, fun _ => true, .asIs, false⟩, ⟨.lineRemark, .any, fun _ => true, .asIs, false⟩ ]

/-- The rule that holds at a site. -/
def ruleAt? (t : Site) : Option SpacingRule :=
  let first? (rules : List SpacingRule) : Option SpacingRule := rules.find? (·.fits t)
  (first? remarkRules).orElse fun _ =>
    (first? (spacingRules.filter (·.isSpecific))).orElse fun _ =>
      first? (spacingRules.filter (!·.isSpecific))

end LintRepair.Syntax.Layout
