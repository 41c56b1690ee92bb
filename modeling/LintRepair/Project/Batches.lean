import LintRepair.Project.Work

/-!
# Batches

Files are worked off in batches: the work on every file of a batch is settled before the results are taken in
file order. However large the batches are, every file gets its turn once.
-/
namespace LintRepair

/-- A list in pieces of one more than `extra` members; only the last piece can be shorter. -/
def pieces {α : Type} (extra : Nat) (xs : List α) : List (List α) :=
  match xs with
  | [] => []
  | x :: rest => (x :: rest.take extra) :: pieces extra (rest.drop extra)
termination_by xs.length
decreasing_by simp only [List.length_drop, List.length_cons]; omega

theorem pieces_flatten {α : Type} (extra : Nat) (xs : List α) : (pieces extra xs).flatten = xs := by
  fun_induction pieces extra xs with
  | case1 => rfl
  | case2 x rest ih => simp [ih]

/-- The batches of a size. A size below one never gets through a list unless it is empty. -/
def batches {α : Type} (size : Int) (xs : List α) : Except Fault (List (List α)) :=
  if xs.isEmpty then .ok []
  else if size < 1 then .error (.endlessBatches size)
  else .ok (pieces (size.toNat - 1) xs)

/-- How many files are worked on side by side when nothing else is asked for, on a machine with so many
processors: three quarters of them, but at least two and at most sixteen. -/
def batchSizeFor (processors : Nat) : Int := min (max (processors * 3 / 4) 2) 16

theorem one_le_batchSizeFor (processors : Nat) : 1 ≤ batchSizeFor processors := by
  unfold batchSizeFor
  omega

/-- The size where nobody says on which machine. -/
def standardBatchSize : Int := batchSizeFor 32

/-- Works on all members of a list in batches, and takes in each result in the order of the list. The work
on one member of a batch is done before that on the next begins. Work that goes on side by side comes
to the same if the members are different files: what one of them reads or writes no other does. -/
def inBatches {α β σ : Type} (size : Int) (xs : List α) (work : α → Work β)
    (take : σ → α → Except Fault β → Work σ) (start : σ) : Work σ := do
  (← Work.lift (batches size xs)).foldlM (fun collected batch => do
    let results ← batch.mapM fun x => return (x, ← (work x).settle)
    results.foldlM (fun collected (x, result) => take collected x result) collected) start

end LintRepair
