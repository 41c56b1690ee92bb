import LintRepair.Proofs.Repair.Discipline
import LintRepair.Rules.Engine

/-!
# What checks report

Two things that a run relies on: that its checks speak of the requested rules only, and that they
give an answer. The first holds of every catalog whose checks are registered under their own ids,
and so of the built-in rules.
-/
namespace LintRepair

variable {σ : Type} {d : Document σ} {j j' : Journal}

theorem Register.mem_entries_of_get? {α : Type} {r : Register α} {id : String} {entry : α}
    (h : r.get? id = some entry) : (id, entry) ∈ r.entries := by
  obtain ⟨front, back, hsplit, -⟩ := List.lookup_eq_some_iff.mp h
  rw [hsplit]
  exact List.mem_append_right _ List.mem_cons_self

/-- The checks report violations of the rules that they are asked for, and of no others. -/
def Analyzer.ReportsRequested (a : Analyzer σ) : Prop :=
  ∀ d rules j vs j', (a.runChecks d rules).Yields j vs j' → ∀ v ∈ vs, v.ruleId ∈ rules

/-- The checks give an answer for every well-formed tree, with violations that fit it. -/
def Analyzer.Answers (a : Analyzer σ) : Prop :=
  ∀ (d : Document σ) rules, d.tree.WellFormed → (a.runChecks d rules).Gives d.tree.Consistent

namespace Catalog

/-- Each check is registered under the id of its rule. -/
def Keyed (catalog : Catalog σ) : Prop := ∀ x ∈ catalog.entries, x.2.ruleId = x.1

theorem keyed_ofList (checks : List (RuleCheck σ)) :
    Keyed (.ofList (checks.map fun c => (c.ruleId, c))) := by
  intro x hx
  obtain ⟨check, -, rfl⟩ := List.mem_map.mp hx
  rfl

theorem Keyed.freeze {catalog : Catalog σ} (hc : Keyed catalog) : Keyed (Register.freeze catalog) :=
  hc

theorem Keyed.register {catalog catalog' : Catalog σ} (hc : Keyed catalog) {check : RuleCheck σ}
    (h : Catalog.register catalog check = .ok catalog') : Keyed catalog' := by
  unfold Catalog.register Register.insert at h
  split at h
  · cases h
  split at h
  · cases h
  · cases h
    intro x hx
    rcases List.mem_append.mp hx with hx | hx
    · exact hc x hx
    · rw [List.mem_singleton.mp hx]

theorem Keyed.ruleId_eq {catalog : Catalog σ} (hc : Keyed catalog) {id : String}
    {check : RuleCheck σ} (h : Register.get? catalog id = some check) : check.ruleId = id :=
  hc (id, check) (Register.mem_entries_of_get? h)

theorem Keyed.reportsRequested {catalog : Catalog σ} (hc : Keyed catalog) :
    (Catalog.analyzer catalog).ReportsRequested := by
  intro d rules j vs j' h
  refine forall_of_runChecks (fun id hid check hcheck v hrule _ => ?_) h
  rw [hrule, hc.ruleId_eq hcheck]
  exact hid

end Catalog

theorem Rules.engine_reportsRequested (indentSize : Nat) :
    (Rules.engine indentSize).analyzer.ReportsRequested :=
  (Catalog.keyed_ofList _).freeze.reportsRequested

end LintRepair
