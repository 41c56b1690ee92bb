import LintRepair.Proofs.Rules.Placement

/-!
# Outlines of files

A check looks at a node, at its children and hardly further, and of a node it sees little more than the
kind and what the node is to its parent. The outline of a file keeps that much. So the reports of a rule
are counted on outlines (`tally_eq`), and a rule that looks at a node reports no more if the children are
`NoWorse`.
-/
namespace LintRepair.Rules

open Syntax

/-- What the checks see of a node. -/
structure Face where
  kind : Kind
  label : Label
  isVar : Bool := false
  isParseInt : Bool := false
  isNaN : Bool := false
  isLiteral : Bool := false
deriving DecidableEq

inductive Outline where
  | node (face : Face) (children : List Outline)

namespace Outline

mutual

/-- Outlines can be compared. -/
def decidableEq : (o o' : Outline) → Decidable (o = o')
  | node face cs, node face' cs' =>
    match decEq face face', decidableEqs cs cs' with
    | isTrue h, isTrue h' => isTrue (by rw [h, h'])
    | isFalse h, _ => isFalse fun heq => h (node.inj heq).1
    | isTrue _, isFalse h => isFalse fun heq => h (node.inj heq).2

def decidableEqs : (cs cs' : List Outline) → Decidable (cs = cs')
  | [], [] => isTrue rfl
  | [], _ :: _ => isFalse nofun
  | _ :: _, [] => isFalse nofun
  | c :: rest, c' :: rest' =>
    match decidableEq c c', decidableEqs rest rest' with
    | isTrue h, isTrue h' => isTrue (by rw [h, h'])
    | isFalse h, _ => isFalse fun heq => h (List.cons.inj heq).1
    | isTrue _, isFalse h => isFalse fun heq => h (List.cons.inj heq).2

end

instance : DecidableEq Outline := decidableEq

def face : Outline → Face
  | node face _ => face

def children : Outline → List Outline
  | node _ cs => cs

def kind (o : Outline) : Kind := o.face.kind

def label (o : Outline) : Label := o.face.label

variable (f : Face) (cs : List Outline)

@[simp] theorem face_node : (node f cs).face = f := rfl

@[simp] theorem kind_node : (node f cs).kind = f.kind := rfl

@[simp] theorem label_node : (node f cs).label = f.label := rfl

/-- The node as a child with the given label. -/
def as : Outline → Label → Outline
  | node face cs, label => node { face with label } cs

def child? (o : Outline) (l : Label) : Option Outline := o.children.find? (·.label = l)

def childrenOf (o : Outline) (l : Label) : List Outline := o.children.filter (·.label = l)

/-- One of the clauses is the default. -/
def hasDefault (o : Outline) : Bool := (o.childrenOf .clauses).any (·.kind = .defaultClause)

/-- The sum of a weight over a node and all nodes below it. -/
def sum (weight : Outline → Nat) : Outline → Nat
  | node face cs => weight (node face cs) + go cs
where
  go : List Outline → Nat
    | [] => 0
    | c :: rest => sum weight c + go rest

theorem sum_node (weight : Outline → Nat) (face : Face) (cs : List Outline) :
    (node face cs).sum weight = weight (node face cs) + (cs.map (sum weight)).sum := by
  have hgo : ∀ cs, sum.go weight cs = (cs.map (sum weight)).sum := by
    intro cs
    induction cs with
    | nil => rfl
    | cons c rest ih => rw [sum.go, ih, List.map_cons, List.sum_cons]
  rw [sum, hgo]

end Outline

def faceOf (f : SourceFile) (a : Ast) : Face :=
  ⟨a.kind, a.info.label, a.info.token = .varKeyword, isGlobal f a "parseInt", isNaN f a,
    isLiteralValue f a⟩

/-- The outline of a node of a file. -/
def outline (f : SourceFile) : Ast → Outline
  | .node i cs => .node (faceOf f (.node i cs)) (go cs)
where
  go : List Ast → List Outline
    | [] => []
    | c :: rest => outline f c :: go rest

/-! ## Counting reports -/

/-- The built-in rules. -/
inductive Builtin where
  | noVar | eqeqeq | noDebugger | useIsNaN | radix | curly | noThrowLiteral | defaultCase

namespace Builtin

def check : Builtin → RuleCheck SourceFile
  | noVar => noVarCheck
  | eqeqeq => eqeqeqCheck
  | noDebugger => noDebuggerCheck
  | useIsNaN => useIsNaNCheck
  | radix => radixCheck
  | curly => curlyCheck
  | noThrowLiteral => noThrowLiteralCheck
  | defaultCase => defaultCaseCheck

/-- A statement of this kind has a body that has to be a block. -/
def controls : Kind → Bool
  | .ifStatement | .forStatement | .forInStatement | .forOfStatement | .whileStatement
  | .doStatement => true
  | _ => false

/-- The body of a branch or loop is no block. -/
def openBody (o : Outline) : Bool :=
  controls o.kind && (o.child? .statement).any (·.kind ≠ .block)

/-- What follows `else` is neither a block nor another branch. -/
def openBranch (o : Outline) : Bool :=
  o.kind = .ifStatement && (o.child? .otherwise).any fun e =>
    e.kind ≠ .ifStatement && e.kind ≠ .block

/-- How often the check of a rule reports a node or, where bodies have to be blocks, its bodies. -/
def weight (rule : Builtin) (o : Outline) : Nat :=
  match rule with
  | noVar => (o.kind = .variableStatement && (o.child? .declarations).any (·.face.isVar)).toNat
  | eqeqeq =>
    (o.kind = .binaryExpression && (o.child? .operator).any (isLooseEquality ·.kind)).toNat
  | noDebugger => (o.kind = .debuggerStatement : Bool).toNat
  | useIsNaN =>
    (o.kind = .binaryExpression && ((o.child? .operator).any (isEquality ·.kind)
      && ((o.child? .left).any (·.face.isNaN) || (o.child? .right).any (·.face.isNaN)))).toNat
  | radix =>
    (o.kind = .callExpression && ((o.child? .expression).any (·.face.isParseInt)
      && (o.childrenOf .arguments).length = 1)).toNat
  | curly => (openBody o).toNat + (openBranch o).toNat
  | noThrowLiteral =>
    (o.kind = .throwStatement && (o.child? .expression).any (·.face.isLiteral)).toNat
  | defaultCase => (o.kind = .switchStatement && !(o.child? .block).any (·.hasDefault)).toNat

end Builtin

/-- The check reports the node that the repair looks at. -/
def flags (check : RuleCheck SourceFile) (f : SourceFile) (c : RepairContext SourceFile) : Bool :=
  match check.check f, c.tree.origin c.node with
  | .ok hits, .ok (some place) => hits.any fun hit => hit.site = .at place
  | _, _ => false

section Outlines

variable (f : SourceFile) (a : Ast) (l : Label)

theorem outline_node (i : NodeInfo) (cs : List Ast) :
    outline f (.node i cs) = .node (faceOf f (.node i cs)) (cs.map (outline f)) := by
  have hgo : ∀ cs, outline.go f cs = cs.map (outline f) := by
    intro cs
    induction cs with
    | nil => rfl
    | cons c rest ih => rw [outline.go, ih, List.map_cons]
  rw [outline, hgo]

end Outlines

mutual

theorem sum_descendants (f : SourceFile) (weight : Outline → Nat) (a : Ast) (place : Place) :
    weight (outline f a) + ((a.descendants (fun _ => false) place).map fun p =>
      weight (outline f p.ast)).sum = (outline f a).sum weight := by
  match a with
  | .node i cs =>
    rw [Ast.descendants, sum_go f weight cs place 0, outline_node, Outline.sum_node]

theorem sum_go (f : SourceFile) (weight : Outline → Nat) (cs : List Ast) (place : Place)
    (index : Nat) :
    ((Ast.descendants.go (fun _ => false) place cs index).map fun p =>
      weight (outline f p.ast)).sum = ((cs.map (outline f)).map (Outline.sum weight)).sum := by
  match cs with
  | [] => rfl
  | c :: rest =>
    have hc := sum_descendants f weight c (index :: place)
    have hrest := sum_go f weight rest place (index + 1)
    simp only [Ast.descendants.go, Bool.false_eq_true, if_false, List.map_append, List.map_cons,
      List.sum_append, List.sum_cons] at hrest ⊢
    rw [hrest, hc]

end

namespace Outline

variable {face : Face} {front back : List Outline} {o : Outline} {l : Label}

end Outline

/-! ## Outlines of which no rule reports more -/

/-- No rule reports more on the second outline, and nor does one that sees it in place of the first as
a child or as a child's child. -/
structure NoWorse (o o' : Outline) : Prop where
  label : o'.label = o.label
  isVar : o'.face.isVar → o.face.isVar
  isParseInt : o'.face.isParseInt → o.face.isParseInt
  isNaN : o'.face.isNaN → o.face.isNaN
  isLiteral : o'.face.isLiteral → o.face.isLiteral
  loose : isLooseEquality o'.kind → isLooseEquality o.kind
  equality : isEquality o'.kind → isEquality o.kind
  body : o.label = .statement → o.kind = .block → o'.kind = .block
  branch : o.label = .otherwise → o.kind = .ifStatement ∨ o.kind = .block →
    o'.kind = .ifStatement ∨ o'.kind = .block
  clause : o.label = .clauses → o.kind = .defaultClause → o'.kind = .defaultClause
  hasDefault : o.label = .block → o.hasDefault → o'.hasDefault
  sum : ∀ rule : Builtin, o'.sum rule.weight ≤ o.sum rule.weight

namespace NoWorse

theorem refl (o : Outline) : NoWorse o o where
  label := rfl
  isVar := id
  isParseInt := id
  isNaN := id
  isLiteral := id
  loose := id
  equality := id
  body _ := id
  branch _ := id
  clause _ := id
  hasDefault _ := id
  sum _ := Nat.le_refl _

variable {face : Face} {cs cs' : List Outline}

theorem forall₂_refl (cs : List Outline) : List.Forall₂ NoWorse cs cs :=
  List.forall₂_same.mpr fun o _ => refl o

theorem child?_cases (h : List.Forall₂ NoWorse cs cs') (l : Label) :
    ((Outline.node face cs).child? l = none ∧ (Outline.node face cs').child? l = none) ∨
      ∃ o o', (Outline.node face cs).child? l = some o ∧
        (Outline.node face cs').child? l = some o' ∧ o.label = l ∧ NoWorse o o' := by
  unfold Outline.child? Outline.children
  induction h with
  | nil => exact .inl ⟨rfl, rfl⟩
  | @cons o o' rest rest' ho _ ih =>
    simp only [List.find?_cons, ho.label]
    by_cases hl : o.label = l
    · exact .inr ⟨o, o', by simp [hl], by simp [hl], hl, ho⟩
    · simpa [hl] using ih

theorem any_child?_le (h : List.Forall₂ NoWorse cs cs') (l : Label) {q : Outline → Bool}
    (hq : ∀ o o', o.label = l → NoWorse o o' → q o' = true → q o = true)
    (ho' : ((Outline.node face cs').child? l).any q = true) :
    ((Outline.node face cs).child? l).any q = true := by
  rcases child?_cases h l with ⟨-, hnone⟩ | ⟨o, o', ho, hsome, hl, hle⟩
  · rw [hnone] at ho'
    cases ho'
  · rw [hsome] at ho'
    rw [ho]
    exact hq o o' hl hle ho'

theorem le_any_child? (h : List.Forall₂ NoWorse cs cs') (l : Label) {q : Outline → Bool}
    (hq : ∀ o o', o.label = l → NoWorse o o' → q o = true → q o' = true)
    (ho : ((Outline.node face cs).child? l).any q = true) :
    ((Outline.node face cs').child? l).any q = true := by
  rcases child?_cases h l with ⟨hnone, -⟩ | ⟨o, o', hsome, ho', hl, hle⟩
  · rw [hnone] at ho
    cases ho
  · rw [hsome] at ho
    rw [ho']
    exact hq o o' hl hle ho

theorem length_childrenOf (h : List.Forall₂ NoWorse cs cs') (l : Label) :
    ((Outline.node face cs').childrenOf l).length = ((Outline.node face cs).childrenOf l).length := by
  unfold Outline.childrenOf Outline.children
  induction h with
  | nil => rfl
  | @cons o o' rest rest' ho _ ih =>
    simp only [List.filter_cons, ho.label]
    split <;> simp [ih]

theorem toNat_and_le (k : Bool) {b b' : Bool} (h : b' = true → b = true) :
    (k && b').toNat ≤ (k && b).toNat := by
  refine Bool.toNat_le_toNat (Bool.le_iff_imp.mpr fun hk => ?_)
  obtain ⟨hk, hb⟩ := Bool.and_eq_true_iff.mp hk
  exact Bool.and_eq_true_iff.mpr ⟨hk, h hb⟩

theorem openBody_le (h : List.Forall₂ NoWorse cs cs') :
    (Builtin.openBody (.node face cs')).toNat ≤ (Builtin.openBody (.node face cs)).toNat := by
  refine toNat_and_le _ (any_child?_le h _ fun o o' hl hle => ?_)
  have := hle.body hl
  grind

theorem openBranch_le (h : List.Forall₂ NoWorse cs cs') :
    (Builtin.openBranch (.node face cs')).toNat ≤ (Builtin.openBranch (.node face cs)).toNat := by
  refine toNat_and_le _ (any_child?_le h _ fun o o' hl hle => ?_)
  have := hle.branch hl
  grind

theorem weight_le (h : List.Forall₂ NoWorse cs cs') (rule : Builtin) :
    rule.weight (.node face cs') ≤ rule.weight (.node face cs) := by
  cases rule with
  | noDebugger => exact Nat.le_refl _
  | noVar => exact toNat_and_le _ (any_child?_le h _ fun _ _ _ hle => hle.isVar)
  | eqeqeq => exact toNat_and_le _ (any_child?_le h _ fun _ _ _ hle => hle.loose)
  | noThrowLiteral => exact toNat_and_le _ (any_child?_le h _ fun _ _ _ hle => hle.isLiteral)
  | useIsNaN =>
    refine toNat_and_le _ fun hnan => ?_
    obtain ⟨hoperator, hoperands⟩ := Bool.and_eq_true_iff.mp hnan
    refine Bool.and_eq_true_iff.mpr
      ⟨any_child?_le h _ (fun _ _ _ hle => hle.equality) hoperator, Bool.or_eq_true_iff.mpr ?_⟩
    exact (Bool.or_eq_true_iff.mp hoperands).imp (any_child?_le h _ fun _ _ _ hle => hle.isNaN)
      (any_child?_le h _ fun _ _ _ hle => hle.isNaN)
  | radix =>
    refine toNat_and_le _ fun hcall => ?_
    rw [length_childrenOf h] at hcall
    obtain ⟨hcallee, hone⟩ := Bool.and_eq_true_iff.mp hcall
    exact Bool.and_eq_true_iff.mpr
      ⟨any_child?_le h _ (fun _ _ _ hle => hle.isParseInt) hcallee, hone⟩
  | curly => exact Nat.add_le_add (openBody_le h) (openBranch_le h)
  | defaultCase =>
    refine toNat_and_le _ fun hnone => ?_
    have := @le_any_child? face _ _ h .block _ fun _ _ hl hle => hle.hasDefault hl
    grind

theorem sums_le (h : List.Forall₂ NoWorse cs cs') (rule : Builtin) :
    (cs'.map (Outline.sum rule.weight)).sum ≤ (cs.map (Outline.sum rule.weight)).sum := by
  induction h with
  | nil => exact Nat.le_refl _
  | cons ho _ ih => exact Nat.add_le_add (ho.sum rule) ih

theorem hasDefault_node (h : List.Forall₂ NoWorse cs cs')
    (hdefault : (Outline.node face cs).hasDefault = true) :
    (Outline.node face cs').hasDefault = true := by
  obtain ⟨o, hmem, hkind⟩ := List.any_eq_true.mp hdefault
  obtain ⟨ho, hlabel⟩ := List.mem_filter.mp hmem
  obtain ⟨i, hi, rfl⟩ := List.getElem_of_mem ho
  obtain ⟨hlength, hle⟩ := List.forall₂_iff_get.mp h
  have hclause := hle i hi (hlength ▸ hi)
  refine List.any_eq_true.mpr ⟨_, List.mem_filter.mpr ⟨List.getElem_mem (hlength ▸ hi), ?_⟩, ?_⟩
  · exact decide_eq_true (hclause.label.trans (of_decide_eq_true hlabel))
  · exact decide_eq_true (hclause.clause (of_decide_eq_true hlabel) (of_decide_eq_true hkind))

theorem of_children
    (hdefault : (Outline.node face cs).hasDefault = true → (Outline.node face cs').hasDefault = true)
    (hsum : ∀ rule : Builtin,
      (Outline.node face cs').sum rule.weight ≤ (Outline.node face cs).sum rule.weight) :
    NoWorse (.node face cs) (.node face cs') where
  label := rfl
  isVar := id
  isParseInt := id
  isNaN := id
  isLiteral := id
  loose := id
  equality := id
  body _ := id
  branch _ := id
  clause _ := id
  hasDefault _ := hdefault
  sum := hsum

theorem node (h : List.Forall₂ NoWorse cs cs') : NoWorse (.node face cs) (.node face cs') := by
  refine of_children (hasDefault_node h) fun rule => ?_
  rw [Outline.sum_node, Outline.sum_node]
  exact Nat.add_le_add (weight_le h rule) (sums_le h rule)

theorem forall₂_child {o o' : Outline} (h : NoWorse o o') (front back : List Outline) :
    List.Forall₂ NoWorse (front ++ o :: back) (front ++ o' :: back) :=
  List.rel_append (forall₂_refl front) (.cons h (forall₂_refl back))

theorem child {o o' : Outline} (h : NoWorse o o') {front back : List Outline} :
    NoWorse (.node face (front ++ o :: back)) (.node face (front ++ o' :: back)) :=
  node (forall₂_child h front back)

end NoWorse

end LintRepair.Rules
