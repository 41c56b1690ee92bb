import LintRepair.Project.Batches
import LintRepair.Proofs.Repair.Steadiness

/-!
# Batches make no difference

Work that takes no notice of the journal comes to the same in batches of every size: each batch
settles its members in their order, and taking the results in only speaks to the log. So the batches
of a list come to what the list comes to in one go.
-/
namespace LintRepair

variable {α β γ σ : Type} {F : FileTree → FileTree → Prop} {R : α → β → Prop}

/-- Sessions with related files, whatever their journals. -/
def Session.Alike (F : FileTree → FileTree → Prop) (s t : Session) : Prop := F s.files t.files

section Matching

variable {x : Work α} {y : Work β}

theorem matches_ofRun {x : Run α} {y : Run β} (h : x.Matches R y) :
    Matches (Session.Alike F) R (Work.ofRun x) (Work.ofRun y) :=
  fun s t hst => ⟨(h s.journal t.journal trivial).1, hst⟩

theorem matches_ask {question : FileTree → Except Fault α}
    (h : ∀ t t', F t t' → question t = question t') :
    Matches (Session.Alike F) Eq (Work.ask question) (Work.ask question) := by
  intro s t hst
  refine ⟨?_, hst⟩
  change SameOutcome Eq (question s.files) (question t.files)
  rw [h _ _ hst]
  exact sameOutcome_refl _

theorem matches_write {r : Route} {content : Text} {path : String}
    (h : ∀ t t', F t t' → SameOutcome F (t.write r content path) (t'.write r content path)) :
    Matches (Session.Alike F) Eq (Work.write r content path) (Work.write r content path) := by
  rintro ⟨t, j⟩ ⟨t', k⟩ hst
  have hends := h t t' hst
  simp only [ExceptT.run, StateT.run, Id.run, Work.write]
  cases hends' : t.write r content path with
  | error f =>
    rw [hends'] at hends
    generalize t'.write r content path = ends at hends ⊢
    cases hends with
    | error f => exact ⟨.error f, hst⟩
  | ok u =>
    rw [hends'] at hends
    generalize t'.write r content path = ends at hends ⊢
    cases hends with
    | ok hu => exact ⟨.ok rfl, hu⟩

theorem Matches.settle (h : Matches (Session.Alike F) R x y) :
    Matches (Session.Alike F) (SameOutcome R) x.settle y.settle := by
  intro s t hst
  obtain ⟨hends, hleft⟩ := h s t hst
  exact ⟨.ok hends, hleft⟩

theorem Matches.mapM {S : Type} {F : S → S → Prop} {f : α → ExceptT Fault (StateM S) β}
    (h : ∀ a, Matches F Eq (f a) (f a)) (xs : List α) : Matches F Eq (xs.mapM f) (xs.mapM f) := by
  induction xs with
  | nil => exact matches_pure rfl
  | cons a rest ih =>
    rw [List.mapM_cons]
    refine (h a).bind ?_
    rintro b _ rfl
    refine ih.bind ?_
    rintro bs _ rfl
    exact matches_pure rfl

end Matching

/-- The work on all members of a list, one after the other, with every result. -/
def settleAll (xs : List α) (work : α → Work β) : Work (List (α × Except Fault β)) :=
  xs.mapM fun x => return (x, ← (work x).settle)

/-- Takes in results in their order. -/
def takeAll (take : σ → α → Except Fault β → Work σ) (start : σ)
    (results : List (α × Except Fault β)) : Work σ :=
  results.foldlM (fun collected (x, result) => take collected x result) start

section Batches

variable {work : α → Work β} {take : σ → α → Except Fault β → Work σ}
  {taken : σ → α → Except Fault β → σ}

theorem settleAll_matches (hwork : ∀ x, Matches (Session.Alike Eq) Eq (work x) (work x))
    (xs : List α) : Matches (Session.Alike Eq) Eq (settleAll xs work) (settleAll xs work) := by
  refine Matches.mapM (fun x => ?_) xs
  refine (hwork x).settle.bind fun r r' hr => ?_
  rw [hr.eq]
  exact matches_pure rfl

theorem settleAll_append (xs ys : List α) (work : α → Work β) : settleAll (xs ++ ys) work = do
    let rs ← settleAll xs work
    let more ← settleAll ys work
    return rs ++ more :=
  List.mapM_append

theorem takeAll_matches (htake : ∀ c x r, Matches (Session.Alike Eq) Eq (take c x r)
      (pure (taken c x r))) (rs : List (α × Except Fault β)) (c : σ) :
    Matches (Session.Alike Eq) Eq (takeAll take c rs)
      (pure (rs.foldl (fun c y => taken c y.1 y.2) c)) := by
  induction rs generalizing c with
  | nil => exact matches_pure rfl
  | cons y rest ih =>
    obtain ⟨x, r⟩ := y
    rw [takeAll, List.foldlM_cons, List.foldl_cons, ← pure_bind (taken c x r) fun c =>
      (pure (rest.foldl (fun c y => taken c y.1 y.2) c) : Work σ)]
    refine (htake c x r).bind ?_
    rintro c' _ rfl
    exact ih c'

theorem foldlM_batches_matches (hwork : ∀ x, Matches (Session.Alike Eq) Eq (work x) (work x))
    (htake : ∀ c x r, Matches (Session.Alike Eq) Eq (take c x r) (pure (taken c x r)))
    (ps : List (List α)) (c : σ) :
    Matches (Session.Alike Eq) Eq
      (ps.foldlM (fun c batch => settleAll batch work >>= takeAll take c) c)
      (do return (← settleAll ps.flatten work).foldl (fun c y => taken c y.1 y.2) c) := by
  induction ps generalizing c with
  | nil => exact matches_pure rfl
  | cons batch rest ih =>
    rw [List.foldlM_cons, List.flatten_cons, settleAll_append]
    simp only [bind_assoc, pure_bind]
    refine (settleAll_matches hwork batch).bind ?_
    rintro rs _ rfl
    simp only [List.foldl_append]
    rw [← pure_bind (rs.foldl (fun c y => taken c y.1 y.2) c) fun c => (do
      return (← settleAll rest.flatten work).foldl (fun c y => taken c y.1 y.2) c : Work σ)]
    refine (takeAll_matches htake rs c).bind ?_
    rintro c' _ rfl
    exact ih c'

/-- Batches of every size come to what the whole list comes to. -/
theorem inBatches_matches (hwork : ∀ x, Matches (Session.Alike Eq) Eq (work x) (work x))
    (htake : ∀ c x r, Matches (Session.Alike Eq) Eq (take c x r) (pure (taken c x r)))
    {size : Int} (hsize : 1 ≤ size) (xs : List α) (start : σ) :
    Matches (Session.Alike Eq) Eq (inBatches size xs work take start)
      (do return (← settleAll xs work).foldl (fun c y => taken c y.1 y.2) start) := by
  obtain ⟨ps, hps, hxs⟩ : ∃ ps, batches size xs = .ok ps ∧ ps.flatten = xs := by
    unfold batches
    split
    · next hnil => exact ⟨[], rfl, (List.isEmpty_iff.mp hnil).symm⟩
    · exact ⟨_, if_neg (by lia), pieces_flatten _ _⟩
  subst hxs
  unfold inBatches
  rw [hps]
  exact foldlM_batches_matches hwork htake ps start

end Batches
end LintRepair
