import LintRepair.Syntax.Print.Declarations

/-!
# Printed markup

Elements keep their texts as they are; attributes stand on the line of their tag.
-/
namespace LintRepair.Syntax.Print.Printer

variable (emit : Ast → Printer Unit)

/-- The name of an opening tag with type arguments and attributes. -/
def tagHead (a : Ast) : Printer Unit := do
  part emit a .tag
  typeArguments emit a
  if (a.child? .attributes).any (!·.children.isEmpty) then space
  part emit a .attributes

/-- Prints markup or a part of it. -/
def markup (a : Ast) : Printer Unit := do
  match a.kind with
  | .jsxText => put ((← source).slice a.fullStart a.stop)
  | .jsxElement | .jsxFragment => do
    part emit a .opening
    (a.childrenOf .children).forM emit
    part emit a .closing
  | .jsxOpeningElement => do
    token .lessThanToken
    tagHead emit a
    token .greaterThanToken
  | .jsxSelfClosingElement => do
    token .lessThanToken
    part emit a .tag
    typeArguments emit a
    space
    part emit a .attributes
    write "/>"
  | .jsxClosingElement => do
    write "</"
    part emit a .tag
    token .greaterThanToken
  | .jsxOpeningFragment => write "<>"
  | .jsxClosingFragment => write "</>"
  | .jsxAttributes => listOf emit a { quiet := true } .attributes
  | .jsxAttribute => do
    part emit a .name
    if a.has .initializer then
      token .equalsToken
      part emit a .initializer
  | .jsxSpreadAttribute => do
    token .openBraceToken
    token .dotDotDotToken
    part emit a .expression
    token .closeBraceToken
  | .jsxExpression => do
    let s ← source
    let silent := (s.trailingComments (a.start + 1) ++ s.leadingComments (a.start + 1)).isEmpty
    if a.has .expression || !silent then
      indentedIf (!(← sameLine a.fullStart a.stop)) do
        let stop ← tokenAt .openBraceToken a.fullStart a
        part emit a .rest
        part emit a .expression
        tokenOf .closeBraceToken (((a.child? .expression).map (·.stop)).getD stop) a
  | .jsxNamespacedName => do
    part emit a .space
    token .colonToken
    part emit a .name
  | _ => declaration emit a

end LintRepair.Syntax.Print.Printer
