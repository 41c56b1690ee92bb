import LintRepair.Text.Basic
import LintRepair.Violation
import LintRepair.Repair.Batch

/-!
# Repair statistics

One set of counters per rule and three record lists. A run fills one `Statistics`; those of a
project's files are merged.
-/
namespace LintRepair

/-- The counters of a rule, or their sums over rules. -/
structure RuleCounts where
  found : Nat := 0
  applied : Nat := 0
  declined : Nat := 0
  crashes : Nat := 0
  remaining : Nat := 0
deriving DecidableEq, Repr, Inhabited

namespace RuleCounts

def add (a b : RuleCounts) : RuleCounts :=
  ⟨a.found + b.found, a.applied + b.applied, a.declined + b.declined, a.crashes + b.crashes,
    a.remaining + b.remaining⟩

def sum (cs : List RuleCounts) : RuleCounts := cs.foldl add {}

end RuleCounts

structure RepairPlace where
  file : String
  line : Nat
  column : Nat
deriving DecidableEq, Repr, Inhabited

structure RuleStatistics where
  ruleId : String
  counts : RuleCounts := {}
  appliedPlaces : List RepairPlace := []
deriving DecidableEq, Repr, Inhabited

/-- One processor invocation that crashed. -/
structure CrashRecord where
  ruleId : String
  file : String
  line : Nat
  column : Nat
  nodeKind : String
  pass : Nat
  message : String
deriving DecidableEq, Repr, Inhabited

/-- A pass that was laid out anew although untouched bytes were to be kept. -/
structure RenderFallback where
  file : String
  pass : Nat
  ruleIds : List String
deriving DecidableEq, Repr, Inhabited

/-- A pass whose batch could not be applied, rendered or read again. -/
structure PassFailure where
  file : String
  pass : Nat
  code : String
  message : String
deriving DecidableEq, Repr, Inhabited

structure Statistics where
  rules : List RuleStatistics := []
  crashes : List CrashRecord := []
  fallbacks : List RenderFallback := []
  failures : List PassFailure := []
deriving DecidableEq, Repr, Inhabited

namespace Statistics

/-- Changes the entry of a rule, which is made first if it is missing. -/
def updateRule (f : RuleStatistics → RuleStatistics) (ruleId : String) :
    List RuleStatistics → List RuleStatistics
  | [] => [f { ruleId }]
  | r :: rest => if r.ruleId = ruleId then f r :: rest else r :: updateRule f ruleId rest

def update (s : Statistics) (ruleId : String) (f : RuleStatistics → RuleStatistics) : Statistics :=
  { s with rules := updateRule f ruleId s.rules }

def get? (s : Statistics) (ruleId : String) : Option RuleStatistics :=
  s.rules.find? (·.ruleId = ruleId)

/-- Makes sure that rules are listed even when nothing happens to them. -/
def track (s : Statistics) (ruleIds : List String) : Statistics :=
  ruleIds.foldl (fun s id => s.update id fun r => r) s

def addFound (s : Statistics) (vs : List Violation) : Statistics :=
  vs.foldl (fun s v => s.update v.ruleId fun r =>
    { r with counts := { r.counts with found := r.counts.found + 1 } }) s

def addApplied (s : Statistics) (v : Violation) : Statistics :=
  s.update v.ruleId fun r =>
    { r with
      counts := { r.counts with applied := r.counts.applied + 1 }
      appliedPlaces := r.appliedPlaces ++ [⟨v.file, v.location.line, v.location.column⟩] }

def addDeclined (s : Statistics) (ruleId : String) : Statistics :=
  s.update ruleId fun r => { r with counts := { r.counts with declined := r.counts.declined + 1 } }

def addCrash (s : Statistics) (c : CrashRecord) : Statistics :=
  let counted := s.update c.ruleId fun r =>
    { r with counts := { r.counts with crashes := r.counts.crashes + 1 } }
  { counted with crashes := counted.crashes ++ [c] }

def addFallback (s : Statistics) (f : RenderFallback) : Statistics :=
  { s with fallbacks := s.fallbacks ++ [f] }

def addFailure (s : Statistics) (f : PassFailure) : Statistics :=
  { s with failures := s.failures ++ [f] }

/-- Sets the remaining counts from the final analysis; a rule without a violation there has none. -/
def setRemaining (s : Statistics) (vs : List Violation) : Statistics :=
  let cleared := { s with rules := s.rules.map fun r => { r with counts := { r.counts with remaining := 0 } } }
  vs.foldl (fun s v => s.update v.ruleId fun r =>
    { r with counts := { r.counts with remaining := r.counts.remaining + 1 } }) cleared

/-- The repairs applied so far for a rule. -/
def applied (s : Statistics) (ruleId : String) : Nat :=
  match s.get? ruleId with
  | some r => r.counts.applied
  | none => 0

def ruleIds (s : Statistics) : List String := (s.rules.map (·.ruleId)).mergeSort unitsLe

def totals (s : Statistics) : RuleCounts := .sum (s.rules.map (·.counts))

/-- The rules in the order of their ids. -/
def sortedRules (s : Statistics) : List RuleStatistics := s.ruleIds.filterMap s.get?

/-- Adds the statistics of another file. -/
def merge (s other : Statistics) : Statistics :=
  let merged := other.sortedRules.foldl (fun s theirs => s.update theirs.ruleId fun ours =>
    { ours with
      counts := ours.counts.add theirs.counts
      appliedPlaces := ours.appliedPlaces ++ theirs.appliedPlaces }) s
  { merged with
    crashes := s.crashes ++ other.crashes
    fallbacks := s.fallbacks ++ other.fallbacks
    failures := s.failures ++ other.failures }

/-! ## How an entry changes -/

variable {f : RuleStatistics → RuleStatistics} {s : Statistics} {id id' : String}

theorem find?_updateRule (hf : ∀ r, (f r).ruleId = r.ruleId) (rs : List RuleStatistics) :
    (updateRule f id rs).find? (·.ruleId = id') =
      if id' = id then some (f ((rs.find? (·.ruleId = id)).getD { ruleId := id }))
      else rs.find? (·.ruleId = id') := by
  induction rs with
  | nil =>
    by_cases h : id' = id
    · simp [updateRule, hf, h]
    · simp [updateRule, hf, h, Ne.symm h]
  | cons r rest ih =>
    rw [updateRule]
    by_cases hr : r.ruleId = id
    · rw [if_pos hr]
      by_cases h : id' = id
      · simp [hf, hr, h]
      · simp [hf, hr, h, Ne.symm h]
    · rw [if_neg hr, List.find?_cons, List.find?_cons, List.find?_cons, ih]
      by_cases h : id' = id
      · simp [hr, h]
      · simp [h]

theorem get?_update (hf : ∀ r, (f r).ruleId = r.ruleId) : (s.update id f).get? id' =
    if id' = id then some (f ((s.get? id).getD { ruleId := id })) else s.get? id' :=
  find?_updateRule hf s.rules

theorem applied_update (hf : ∀ r, (f r).ruleId = r.ruleId)
    (hcount : ∀ r, (f r).counts.applied = r.counts.applied) :
    (s.update id f).applied id' = s.applied id' := by
  rw [applied, get?_update hf, applied]
  by_cases h : id' = id
  · subst h
    rw [if_pos rfl]
    dsimp only
    rw [hcount]
    cases s.get? id' with
    | none => rfl
    | some r => rfl
  · rw [if_neg h]

theorem applied_addDeclined : (s.addDeclined id).applied id' = s.applied id' :=
  applied_update (fun _ => rfl) fun _ => rfl

theorem applied_addCrash {c : CrashRecord} : (s.addCrash c).applied id' = s.applied id' :=
  applied_update (s := s) (fun _ => rfl) fun _ => rfl

theorem applied_setRemaining {vs : List Violation} :
    (s.setRemaining vs).applied id' = s.applied id' := by
  have hfold : ∀ s : Statistics, (vs.foldl (fun s v => s.update v.ruleId fun r =>
      { r with counts := { r.counts with remaining := r.counts.remaining + 1 } }) s).applied id' =
        s.applied id' := by
    induction vs with
    | nil => exact fun _ => rfl
    | cons v rest ih =>
      intro s
      rw [List.foldl_cons, ih]
      exact applied_update (fun _ => rfl) fun _ => rfl
  rw [setRemaining, hfold, applied, applied, get?, get?, List.find?_map]
  simp only [Function.comp_def]
  cases s.rules.find? (·.ruleId = id') with
  | none => rfl
  | some r => rfl

end Statistics
end LintRepair
