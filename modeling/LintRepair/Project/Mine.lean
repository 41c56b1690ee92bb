import LintRepair.Project.Repair

/-!
# Mining projects

Violations are counted by rule and file; nothing is repaired.
-/
namespace LintRepair

def minerSays (message : String) : LogEntry := ⟨.warn, "miner", message, none⟩

namespace Amount

def shown : Amount Nat → String
  | number n => toString n
  | words s => s

/-- Numbers are added up; anything else is put into words that follow each other. -/
def add : Amount Nat → Amount Nat → Amount Nat
  | number m, number n => number (m + n)
  | a, b => words (a.shown ++ b.shown)

/-- Enters an amount under a key, in place of what was entered there; a new key comes last. -/
def enter (entries : List (String × Amount Nat)) (key : String) (amount : Amount Nat) :
    List (String × Amount Nat) :=
  if key = lineage then entries else replace entries
where
  replace : List (String × Amount Nat) → List (String × Amount Nat)
    | [] => [(key, amount)]
    | (id, old) :: rest => if id = key then (id, amount) :: rest else (id, old) :: replace rest

end Amount

/-- Counts more under a rule, from zero where nothing is read under it. -/
def countRule (counts : List (String × Amount Nat)) (ruleId : String) (amount : Amount Nat) :
    List (String × Amount Nat) :=
  Amount.enter counts ruleId (((Amount.at? counts ruleId).getD (.number 0)).add amount)

/-- The violations of each rule, in the order in which the rules first appear. -/
def countByRule (vs : List Violation) : List (String × Amount Nat) :=
  vs.foldl (fun counts v => countRule counts v.ruleId (.number 1)) []

/-- What has been counted so far. -/
structure Mining where
  files : List (Route × List (String × Amount Nat)) := []
  totals : List (String × Amount Nat) := []
  parseErrors : List FileNote := []
  failures : List FileNote := []
deriving Inhabited

/-- Every rule counts from zero. -/
def Mining.start (rules : List String) : Mining :=
  { totals := rules.foldl (fun totals id => Amount.enter totals id (.number 0)) [] }

/-- Puts the counts of a file, or why there are none, where they belong. Files without an entry are not listed. -/
def Mining.take (m : Mining) (place : Route) : Except Fault (List (String × Amount Nat)) → Work Mining
  | .ok [] => return m
  | .ok counts =>
    return { m with
      files := m.files ++ [(place, counts)]
      totals := counts.foldl (fun totals c => countRule totals c.1 c.2) m.totals }
  | .error fault => do
    let note : FileNote := ⟨place.text, fault.message⟩
    if fault.isSyntaxError then
      Work.log (minerSays ("Skipping " ++ note.file ++ ": " ++ note.message))
      return { m with parseErrors := m.parseErrors ++ [note] }
    else return { m with failures := m.failures ++ [note] }

def numbered (counts : List (String × Amount Nat)) : List (String × Amount Number) :=
  counts.map fun c => (c.1, c.2.map Number.ofNat)

namespace Engine

variable {σ τ : Type}

/-- The violations of one file by rule. -/
def mineFile (e : Engine σ τ) (place : Route) (ruleIds : List String) : Work (List (String × Amount Nat)) := do
  let text ← Work.read place
  return countByRule (← Work.ofRun (e.analyzeSource text place.text ruleIds))

/-- Counts the violations of each rule in every file of a target; `root` is what the report calls the target. -/
def mineProject (e : Engine σ τ) (root : String) (target : Route) (ruleIds : List String)
    (patterns : FilePatterns) (batchSize : Int) : Work MineReport := do
  let rules := (← Work.lift (e.validateAnalysisRules ruleIds)).mergeSort unitsLe
  let places ← Work.ask (·.discover target patterns)
  let mined ← inBatches batchSize places (fun place => e.mineFile place rules) Mining.take
    (.start rules)
  return { root
           ruleIds := rules
           files := mined.files.map fun (place, counts) => ⟨place.text, numbered counts⟩
           totals := numbered mined.totals
           filesScanned := places.length
           parseErrors := mined.parseErrors
           failures := mined.failures }

end Engine
end LintRepair
