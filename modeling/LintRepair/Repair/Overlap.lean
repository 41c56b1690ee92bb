import LintRepair.Repair.Batch

/-!
# Overlap

Two repairs get in each other's way when they touch the same node or when one touches a node inside a
node of the other. Violations are taken deepest first and edit sets in the order given; what overlaps
an earlier choice waits.
-/
namespace LintRepair

/-- A list divided into what is taken now and what waits, each in the order of the list. -/
structure Split (α : Type) where
  taken : List α
  waiting : List α
deriving DecidableEq, Repr, Inhabited

namespace Tree

/-- One node is the other or lies inside it. -/
def overlap (t : Tree) (a b : Handle) : Except Fault Bool := do
  if a = b then return true
  if ← t.isAncestor a b then return true
  t.isAncestor b a

/-- One of the nodes overlaps one that is already taken. -/
def claimedBy (t : Tree) (claimed nodes : List Handle) : Except Fault Bool :=
  nodes.anyM fun node => claimed.anyM fun owner => t.overlap owner node

/-- Takes members in order as long as they touch nothing that overlaps a node touched before. -/
def takeClear {α : Type} (t : Tree) (touched : α → List Handle) (claimed : List Handle) :
    List α → Except Fault (Split α)
  | [] => return ⟨[], []⟩
  | x :: rest => do
    if ← t.claimedBy claimed (touched x) then
      let split ← t.takeClear touched claimed rest
      return { split with waiting := x :: split.waiting }
    else
      let split ← t.takeClear touched (claimed ++ touched x) rest
      return { split with taken := x :: split.taken }

theorem length_takeClear {α : Type} {t : Tree} {touched : α → List Handle} {claimed : List Handle}
    {xs : List α} {split : Split α} (h : t.takeClear touched claimed xs = .ok split) :
    split.taken.length + split.waiting.length = xs.length := by
  induction xs generalizing claimed split with
  | nil =>
    obtain rfl : ⟨[], []⟩ = split := Except.ok.inj h
    rfl
  | cons x rest ih =>
    simp only [takeClear, bind, Except.bind] at h
    split at h
    · cases h
    · split at h
      · split at h
        · cases h
        · next s hs =>
          obtain rfl : { s with waiting := x :: s.waiting } = split := Except.ok.inj h
          have := ih hs
          simp only [List.length_cons]; omega
      · split at h
        · cases h
        · next s hs =>
          obtain rfl : { s with taken := x :: s.taken } = split := Except.ok.inj h
          have := ih hs
          simp only [List.length_cons]; omega

end Tree

/-- A violation with the depth of its node. -/
structure Candidate where
  violation : Violation
  depth : Nat
deriving Repr, Inhabited

/-- Deeper nodes come first, then earlier ones, then the smaller rule id. -/
def Candidate.le (a b : Candidate) : Bool :=
  if a.depth ≠ b.depth then b.depth < a.depth
  else if a.violation.location.start ≠ b.violation.location.start then
    a.violation.location.start < b.violation.location.start
  else unitsLe a.violation.ruleId b.violation.ruleId

namespace Tree

/-- The violations with their depths. -/
def candidates (t : Tree) (vs : List Violation) : Except Fault (List Candidate) :=
  vs.mapM fun v => return ⟨v, ← t.depth v.node⟩

/-- The violations in the order in which they are considered. -/
def inRepairOrder (t : Tree) (vs : List Violation) : Except Fault (List Violation) :=
  return ((← t.candidates vs).mergeSort Candidate.le).map (·.violation)

/-- The violations that can be repaired together, beside nodes that are claimed already. -/
def resolveConflicts (t : Tree) (vs : List Violation) (claimed : List Handle) :
    Except Fault (Split Violation) := do
  t.takeClear (fun v => [v.node]) claimed (← t.inRepairOrder vs)

theorem length_candidates {t : Tree} {vs : List Violation} {cs : List Candidate}
    (h : t.candidates vs = .ok cs) : cs.length = vs.length := by
  induction vs generalizing cs with
  | nil =>
    obtain rfl : [] = cs := Except.ok.inj h
    rfl
  | cons v rest ih =>
    simp only [candidates, List.mapM_cons, bind, Except.bind, pure, Except.pure] at h ih
    split at h
    · cases h
    · split at h
      · cases h
      · next _ hrest =>
        obtain rfl := Except.ok.inj h
        simpa using ih hrest

theorem length_resolveConflicts {t : Tree} {vs : List Violation} {claimed : List Handle}
    {split : Split Violation} (h : t.resolveConflicts vs claimed = .ok split) :
    split.taken.length + split.waiting.length = vs.length := by
  simp only [resolveConflicts, inRepairOrder, bind, Except.bind, pure, Except.pure] at h
  split at h
  · cases h
  · next order ho =>
    split at ho
    · cases ho
    · next cs hc =>
      obtain rfl := Except.ok.inj ho
      rw [length_takeClear h, List.length_map, List.length_mergeSort, length_candidates hc]

/-- The edit sets whose touched nodes keep clear of those of every earlier selected set. -/
def selectCompatible (t : Tree) (sets : List EditSet) : Except Fault (Split EditSet) :=
  t.takeClear EditSet.touched [] sets

end Tree
end LintRepair
