import LintRepair.Proofs.Tree.Preservation

/-!
# Calls write after the last check that can fail

The four calls as procedures on a tree, check by check and write by write: what a procedure has written
when it fails stays written. The check of the seat comes before the first write. The look-ups of the nodes
around the seat come after it, and always find their node. So a call that fails has changed nothing, and
one that succeeds does what `apply` says.
-/
namespace LintRepair

/-- A procedure on a tree. What it has written stays when it fails. -/
abbrev Procedure (α : Type) := ExceptT Fault (StateM Tree) α

namespace Procedure

variable {α β : Type}

/-- What the procedure comes to, and the tree that it leaves. -/
def on (p : Procedure α) (t : Tree) : Except Fault α × Tree := p.run.run t

/-- Asks the tree; an answer that fails ends the procedure. -/
def ask (question : Tree → Except Fault α) : Procedure α := do
  match question (← get) with
  | .ok a => return a
  | .error fault => throw fault

/-- Marks a node as changed, and then the nodes around it, innermost first. -/
def markUp : Nat → Handle → Procedure Unit
  | 0, _ => return
  | n + 1, h => do
    let node ← ask (·.get h)
    modify (·.setNode h (some { node with dirty := true }))
    match node.parent with
    | none => return
    | some p => markUp n p

theorem on_pure (a : α) (t : Tree) : (pure a : Procedure α).on t = (.ok a, t) := rfl

theorem on_get (t : Tree) : (get : Procedure Tree).on t = (.ok t, t) := rfl

theorem on_modify (f : Tree → Tree) (t : Tree) :
    (modify f : Procedure Unit).on t = (.ok (), f t) := rfl

theorem on_bind_ok {p : Procedure α} {a : α} {t t' : Tree} (f : α → Procedure β)
    (h : p.on t = (.ok a, t')) : (p >>= f).on t = (f a).on t' := by
  have hrun : p.run.run t = (.ok a, t') := h
  simp only [on, ExceptT.run_bind, StateT.run_bind, hrun]
  rfl

theorem on_bind_error {p : Procedure α} {fault : Fault} {t t' : Tree} (f : α → Procedure β)
    (h : p.on t = (.error fault, t')) : (p >>= f).on t = (.error fault, t') := by
  have hrun : p.run.run t = (.error fault, t') := h
  simp only [on, ExceptT.run_bind, StateT.run_bind, hrun]
  rfl

theorem on_ask (question : Tree → Except Fault α) (t : Tree) :
    (ask question).on t = (question t, t) := by
  unfold ask
  rw [on_bind_ok _ (on_get t)]
  cases question t <;> rfl

end Procedure

/-- A call, check by check and write by write: find the seat, graft what comes in, write the parts of the
parent, empty the slots of what goes, mark the nodes around. -/
def Edit.procedure (e : Edit) : Procedure (Option Handle) := do
  let seat ← Procedure.ask (·.seat e.touched e.operation)
  let new := (← get).nextHandle
  modify (·.grafted seat.parent e)
  modify (·.setNode seat.parent (some { seat.parentNode with parts := e.newParts seat new }))
  modify fun t => if e.removes then t.eraseAll (t.subtree e.touched) else t
  Procedure.markUp (← get).slots.size seat.parent
  return e.subtree?.map fun _ => new

namespace Tree

variable {t t' : Tree} {e : Edit} {s : Seat} {h k p x : Handle} {n : Node}

/-- The tree that a call leaves, whether it fails or not. -/
def call (t : Tree) (e : Edit) : Tree := (e.procedure.on t).2

def calls (t : Tree) (es : List Edit) : Tree := es.foldl call t

section Links

/-- Every link to a parent finds a node. -/
def LinksLive (t : Tree) : Prop := ∀ p h, t.IsParent p h → ∃ n, t.node? p = some n

theorem isParent_foldl_markDirty (hs : List Handle) :
    (hs.foldl markDirty t).IsParent p x ↔ t.IsParent p x := by
  simp only [IsParent, node?_foldl_markDirty, Option.map_eq_some_iff]
  constructor
  · rintro ⟨_, ⟨n, hn, rfl⟩, hp⟩
    exact ⟨n, hn, hp⟩
  · rintro ⟨n, hn, hp⟩
    exact ⟨_, ⟨n, hn, rfl⟩, hp⟩

theorem descending_foldl_markDirty (hs : List Handle) :
    (hs.foldl markDirty t).Descending ↔ t.Descending := by
  simp only [Descending, isParent_foldl_markDirty]

theorem linksLive_foldl_markDirty (hs : List Handle) :
    (hs.foldl markDirty t).LinksLive ↔ t.LinksLive := by
  simp only [LinksLive, isParent_foldl_markDirty, node?_foldl_markDirty, Option.map_eq_some_iff]
  refine forall₃_congr fun p h _ => ⟨?_, ?_⟩
  · rintro ⟨_, n, hn, -⟩
    exact ⟨n, hn⟩
  · rintro ⟨n, hn⟩
    exact ⟨_, n, hn, rfl⟩

theorem chain_congr (hlinks : ∀ x, (t'.node? x).bind (·.parent) = (t.node? x).bind (·.parent))
    (fuel : Nat) (o : Option Handle) : t'.chain fuel o = t.chain fuel o := by
  induction fuel generalizing o with
  | zero => rfl
  | succ fuel ih =>
    cases o with
    | none => rfl
    | some p => rw [chain, chain, hlinks, ih]

theorem ancestors_congr (hsize : t'.slots.size = t.slots.size)
    (hlinks : ∀ x, (t'.node? x).bind (·.parent) = (t.node? x).bind (·.parent)) (h : Handle) :
    t'.ancestors h = t.ancestors h := by
  rw [ancestors, ancestors, hlinks, hsize, chain_congr hlinks]

theorem slots_size_markDirty (t : Tree) (h : Handle) : (t.markDirty h).slots.size = t.slots.size :=
  Int.ofNat.inj nextHandle_markDirty

theorem ancestors_markDirty (t : Tree) (k h : Handle) : (t.markDirty k).ancestors h = t.ancestors h := by
  refine ancestors_congr (slots_size_markDirty t k) (fun x => ?_) h
  rw [node?_markDirty]
  cases t.node? x <;> rfl

theorem on_markUp (hdesc : t.Descending) (hlive : t.LinksLive) (hn : t.node? h = some n) (fuel : Nat)
    (hf : h.toNat < fuel) :
    (Procedure.markUp fuel h).on t = (.ok (), (h :: t.ancestors h).foldl markDirty t) := by
  induction fuel generalizing t h n with
  | zero => lia
  | succ fuel ih =>
    have hget : (Procedure.ask (·.get h)).on t = (.ok n, t) := by
      rw [Procedure.on_ask, get_eq_ok_iff.mpr hn]
    have hmark : t.setNode h (some { n with dirty := true }) = t.markDirty h := by
      simp only [markDirty, hn]
    rw [Procedure.markUp, Procedure.on_bind_ok _ hget,
      Procedure.on_bind_ok _ (Procedure.on_modify _ t), hmark, List.foldl_cons]
    cases hp : n.parent with
    | none =>
      have hnone : t.ancestors h = [] := by
        rw [ancestors, hn, Option.bind_some, hp]
        cases t.slots.size <;> rfl
      rw [hnone]
      rfl
    | some p =>
      have hpar : t.IsParent p h := ⟨n, hn, hp⟩
      have hlt := hdesc p h hpar
      obtain ⟨m, hm⟩ := (linksLive_foldl_markDirty [h]).mpr hlive p h
        ((isParent_foldl_markDirty [h]).mpr hpar)
      have hrest := ih (t := t.markDirty h) ((descending_foldl_markDirty [h]).mpr hdesc)
        ((linksLive_foldl_markDirty [h]).mpr hlive) hm (by lia)
      rw [ancestors_markDirty] at hrest
      rw [hdesc.ancestors_of_isParent hpar]
      exact hrest

end Links

theorem WellFormed.walk_congr (ht : t.WellFormed) (skipped : String → Bool) (fuel fuel' depth : Nat)
    (h : Handle) (hf : t.slots.size ≤ fuel + h.toNat) (hf' : t.slots.size ≤ fuel' + h.toNat)
    (hsame : ∀ k, t.Covers h k → t'.node? k = t.node? k) :
    t'.walk skipped fuel' depth h = t.walk skipped fuel depth h := by
  have hself := hsame h (t.covers_refl h)
  cases hn : t.node? h with
  | none =>
    rw [hn] at hself
    cases fuel <;> cases fuel' <;> simp only [walk, hn, hself]
  | some n =>
    have hlt := lt_nextHandle_of_node? hn
    simp only [nextHandle] at hlt
    induction fuel generalizing fuel' depth h n with
    | zero => lia
    | succ fuel ih =>
      obtain ⟨fuel', rfl⟩ : ∃ k, fuel' = k + 1 := ⟨fuel' - 1, by lia⟩
      rw [hn] at hself
      simp only [walk, hn, hself]
      split
      · rfl
      · refine congrArg _ (List.flatMap_congr fun c hc => ?_)
        have hchild := ht.adopted h n c hn hc
        have hle := ht.descending h c hchild
        have hbelow : ∀ k, t.Covers c k → t'.node? k = t.node? k :=
          fun k hk => hsame k (hchild.encloses.covers.trans hk)
        obtain ⟨m, hm⟩ := hchild.inner_live
        have hbound := lt_nextHandle_of_node? hm
        simp only [nextHandle] at hbound
        exact ih fuel' (depth + 1) c (by lia) (by lia) hbelow (hbelow c (t.covers_refl c)) m hm hbound

theorem setNode_eraseAll (v : Option Node) {hs : List Handle} (hp : 0 ≤ p)
    (hhs : ∀ k ∈ hs, 0 ≤ k ∧ k ≠ p) : (t.setNode p v).eraseAll hs = (t.eraseAll hs).setNode p v := by
  induction hs generalizing t with
  | nil => rfl
  | cons k hs ih =>
    obtain ⟨⟨hpos, hne⟩, hrest⟩ := List.forall_mem_cons.mp hhs
    have hcomm : (t.setNode p v).setNode k none = (t.setNode k none).setNode p v := by
      simp only [setNode]
      rw [Array.setIfInBounds_comm _ _ (by lia)]
    exact (congrArg (·.eraseAll hs) hcomm).trans (ih hrest)

section Seated

variable (ht : t.WellFormed) (hs : t.seat e.touched e.operation = .ok s)
include ht hs

/-- The tree with the new parts of the seat's parent and without what goes, before the marks. -/
private theorem written_eq :
    let written := (t.grafted s.parent e).setNode s.parent
      (some { s.parentNode with parts := e.newParts s t.nextHandle })
    (if e.removes then written.eraseAll (written.subtree e.touched) else written) =
      ((t.grafted s.parent e).eraseAll (e.removed t)).setNode s.parent
        (some { s.parentNode with parts := e.newParts s t.nextHandle }) := by
  intro written
  obtain ⟨hseat, hpar, -⟩ := seat_spec hs
  obtain ⟨m, hm⟩ := hseat.inner_live
  have hbound := lt_nextHandle_of_node? hpar
  -- The parts are written first, but not to a node of the subtree that goes.
  have hsame : ∀ k, t.Covers e.touched k → written.node? k = t.node? k := by
    intro k hk
    obtain ⟨n, hn⟩ := hk.inner_live hm
    have hne : k ≠ s.parent := by
      rintro rfl
      exact ht.descending.not_encloses_of_covers hk hseat.encloses
    rw [node?_setNode_ne hbound.1 _ hne, node?_grafted_of_lt _ _ (lt_nextHandle_of_node? hn).2]
  unfold Edit.removed
  split
  · have hsize : t.slots.size ≤ written.slots.size := by
      have hnext : written.nextHandle = t.nextHandle + (e.subtree?.elim 0 Template.count : Nat) := by
        rw [nextHandle_setNode, nextHandle_grafted]
      simp only [nextHandle] at hnext
      lia
    have hsubtree : written.subtree e.touched = t.subtree e.touched := by
      rw [subtree, subtree, ht.walk_congr _ t.slots.size _ 0 _ (by lia) (by lia) hsame]
    rw [hsubtree]
    refine setNode_eraseAll _ hbound.1 fun k hk => ?_
    have hcov := (ht.mem_subtree_iff hm).mp hk
    obtain ⟨n, hn⟩ := hcov.inner_live hm
    refine ⟨(lt_nextHandle_of_node? hn).1, ?_⟩
    rintro rfl
    exact ht.descending.not_encloses_of_covers hcov hseat.encloses
  · rfl

/-- From the seat on nothing fails, and the procedure leaves what `splice` says. -/
theorem on_procedure_of_seat :
    e.procedure.on t = (.ok (e.subtree?.map fun _ => t.nextHandle), t.splice s e) := by
  obtain ⟨hseat, hpar, -⟩ := seat_spec hs
  have hbound := lt_nextHandle_of_node? hpar
  have hwritten := written_eq ht hs
  have hself : ((t.grafted s.parent e).eraseAll (e.removed t)).node? s.parent = some s.parentNode := by
    rw [node?_eraseAll fun k hk => (removed_bounds ht hs k hk).1,
      if_neg (not_mem_removed_of_covers ht hseat (t.covers_refl _)), node?_grafted_of_lt _ _ hbound.2,
      hpar]
  have hsplice : t.splice s e =
      (s.parent :: ((t.grafted s.parent e).eraseAll (e.removed t)).ancestors s.parent).foldl markDirty
        (((t.grafted s.parent e).eraseAll (e.removed t)).setNode s.parent
          (some { s.parentNode with parts := e.newParts s t.nextHandle })) := rfl
  have hwf := wellFormed_splice ht hs
  simp only at hwritten
  generalize (t.grafted s.parent e).eraseAll (e.removed t) = kept at hself hwritten hsplice
  generalize hw : kept.setNode s.parent
    (some { s.parentNode with parts := e.newParts s t.nextHandle }) = w at hwritten hsplice
  have hwself : w.node? s.parent =
      some { s.parentNode with parts := e.newParts s t.nextHandle } := by
    rw [← hw, node?_setNode_self hbound.1 (lt_nextHandle_of_node? hself).2]
  have hancestors : w.ancestors s.parent = kept.ancestors s.parent := by
    refine ancestors_congr (by rw [← hw]; exact Array.size_setIfInBounds) (fun x => ?_) _
    by_cases hx : x = s.parent
    · rw [hx, hself, hwself]
      rfl
    · rw [← hw, node?_setNode_ne hbound.1 _ hx]
  rw [← hancestors] at hsplice
  rw [hsplice] at hwf
  have hfuel : s.parent.toNat < w.slots.size := by
    have := (lt_nextHandle_of_node? hwself).2
    simp only [nextHandle] at this
    lia
  have hmarks := on_markUp ((descending_foldl_markDirty _).mp hwf.descending)
    ((linksLive_foldl_markDirty _).mp fun p h hp => hwf.parent_live hp) hwself w.slots.size hfuel
  have hask : (Procedure.ask (·.seat e.touched e.operation)).on t = (.ok s, t) := by
    rw [Procedure.on_ask, hs]
  rw [Edit.procedure, Procedure.on_bind_ok _ hask, Procedure.on_bind_ok _ (Procedure.on_get t),
    Procedure.on_bind_ok _ (Procedure.on_modify _ _), Procedure.on_bind_ok _ (Procedure.on_modify _ _),
    Procedure.on_bind_ok _ (Procedure.on_modify _ _),
    hwritten, Procedure.on_bind_ok _ (Procedure.on_get w), Procedure.on_bind_ok _ hmarks,
    Procedure.on_pure, hsplice]

end Seated

theorem on_procedure_of_error {fault : Fault} (hs : t.seat e.touched e.operation = .error fault) :
    e.procedure.on t = (.error fault, t) := by
  have hask : (Procedure.ask (·.seat e.touched e.operation)).on t = (.error fault, t) := by
    rw [Procedure.on_ask, hs]
  rw [Edit.procedure, Procedure.on_bind_error _ hask]

/-- A seat is refused to a handle without a node and to the root, and to nothing else. -/
theorem WellFormed.seat_cases (ht : t.WellFormed) (h : Handle) (operation : String) :
    (t.isValid h = false ∧ t.seat h operation = .error (.invalidHandle h)) ∨
    (t.isValid h = true ∧ h = root ∧ t.seat h operation = .error (.rootMutation h operation)) ∨
    (t.isValid h = true ∧ h ≠ root ∧ ∃ s, t.seat h operation = .ok s) := by
  cases hn : t.node? h with
  | none =>
    refine .inl ⟨by rw [isValid, hn]; rfl, ?_⟩
    simp [seat, get_of_node?_eq_none hn, bind, Except.bind]
  | some n =>
    have hvalid := isValid_iff.mpr ⟨n, hn⟩
    by_cases hr : h = root
    · refine .inr (.inl ⟨hvalid, hr, ?_⟩)
      have hnone := (ht.orphan_iff h n hn).mpr hr
      simp [seat, get, hn, hnone, bind, Except.bind, throw, throwThe, MonadExceptOf.throw]
    · obtain ⟨p, -, hp⟩ := ht.exists_parent hn hr
      exact .inr (.inr ⟨hvalid, hr, exists_seat ht hp operation⟩)

theorem call_of_seat (ht : t.WellFormed) (hs : t.seat e.touched e.operation = .ok s) :
    t.call e = t.splice s e := by
  rw [call, on_procedure_of_seat ht hs]

theorem call_cases (ht : t.WellFormed) (e : Edit) : t.call e = t ∨
    ∃ s, t.seat e.touched e.operation = .ok s ∧ t.call e = t.splice s e := by
  cases hs : t.seat e.touched e.operation with
  | error fault => exact .inl (by rw [call, on_procedure_of_error hs])
  | ok s => exact .inr ⟨s, rfl, call_of_seat ht hs⟩

theorem WellFormed.call (ht : t.WellFormed) (e : Edit) : (t.call e).WellFormed := by
  rcases call_cases ht e with heq | ⟨s, hs, heq⟩
  · rwa [heq]
  · rw [heq]
    exact wellFormed_splice ht hs

theorem WellFormed.calls (ht : t.WellFormed) (es : List Edit) : (t.calls es).WellFormed := by
  induction es generalizing t with
  | nil => exact ht
  | cons e es ih => exact ih (ht.call e)

/-- How a call ends, and that it leaves the tree as it was when it fails. -/
structure Settled (t : Tree) (e : Edit) : Prop where
  invalid_iff : (∃ f, (e.procedure.on t).1 = .error f ∧ f.className = "InvalidHandleError" ∧
    f.codeText = "T001") ↔ t.isValid e.touched = false
  root_iff : (∃ f, (e.procedure.on t).1 = .error f ∧ f.className = "TreeMutationError" ∧
    f.codeText = "T002") ↔ e.touched = root
  succeeds_iff : (∃ new, (e.procedure.on t).1 = .ok new) ↔
    t.isValid e.touched = true ∧ e.touched ≠ root
  unchanged : ∀ f, (e.procedure.on t).1 = .error f → t.call e = t
  never_detached : ∀ f, (e.procedure.on t).1 = .error f → f.codeText ≠ "T003"
  /-- A fault names the handle of the call, and the operation where that is refused. -/
  fault : ∀ f, (e.procedure.on t).1 = .error f →
    f = .invalidHandle e.touched ∨ f = .rootMutation e.touched e.operation
  apply_eq : e.apply t = (e.procedure.on t).1.map fun _ => t.call e
  landing_eq : e.landing t = (e.procedure.on t).1

theorem WellFormed.settled (ht : t.WellFormed) (e : Edit) : t.Settled e := by
  have happly := apply_eq_splice t e
  have hlanding := landing_eq t e
  rcases ht.seat_cases e.touched e.operation with ⟨hdead, hs⟩ | ⟨hlive, hroot, hs⟩ |
    ⟨hlive, hroot, s, hs⟩
  · have hrun := on_procedure_of_error hs
    have hne : e.touched ≠ root := by
      intro heq
      rw [heq, isValid_iff.mpr ht.root_live] at hdead
      cases hdead
    rw [hs] at happly hlanding
    constructor <;> simp [Tree.call, hrun, happly, hlanding, hdead, hne, Except.map, Fault.className,
      Fault.codeText, Fault.failure?, FailureClass.name, FailureCode.text, FailureCode.entry]
  · have hrun := on_procedure_of_error hs
    rw [hs] at happly hlanding
    rw [hroot] at hlive
    constructor <;> simp [Tree.call, hrun, happly, hlanding, hlive, hroot, Except.map, Fault.className,
      Fault.codeText, Fault.failure?, FailureClass.name, FailureCode.text, FailureCode.entry]
  · have hrun := on_procedure_of_seat ht hs
    rw [hs] at happly hlanding
    constructor <;> simp [Tree.call, hrun, happly, hlanding, hlive, hroot, Except.map]

/-- Whatever has been called on a tree before, a call on it is refused for a handle without a node and for
the root only, and a call that is refused changes nothing. -/
theorem calls_settled (file : String) (source : Text) (template : Template) (before : List Edit)
    (e : Edit) : ((ofTemplate file source template).calls before).Settled e :=
  ((wellFormed_ofTemplate file source template).calls before).settled e

end Tree
end LintRepair
