import LintRepair.Proofs.Syntax.Mirroring
import LintRepair.Proofs.Tree.Caching

/-!
# Where nodes come from

A place of the syntax tree is looked up outwards: the node that was parsed from it, or else from the nearest
place around it. Calls whose subtrees come from nowhere take nodes away and bring in none that a place could
be looked up to, so a look-up finds what the tree as it was read would give, but for what has gone. The
nodes can also be indexed by their places beside the slots (`Indexed`): an index that is struck for every
node that goes answers as a search of the slots does.
-/
namespace LintRepair

/-- The subtree comes from no place. -/
def Template.OriginFree (template : Template) : Prop :=
  template.origin = none ∧ template.body.OriginFree

/-- The subtree that the call brings in comes from no place. -/
def Edit.OriginFree (e : Edit) : Prop := ∀ template, e.subtree? = some template → template.OriginFree

namespace Tree

variable {t next : Tree} {e : Edit} {s : Seat} {h k : Handle} {n : Node} {place outer : Place}

/-- The live node was parsed from this place. -/
def StandsFor (t : Tree) (h : Handle) (place : Place) : Prop :=
  ∃ n, t.node? h = some n ∧ n.origin = some place

/-- No two nodes were parsed from one place. -/
def OriginsApart (t : Tree) : Prop := ∀ h k place, t.StandsFor h place → t.StandsFor k place → h = k

/-- The node stands for the place, or for the nearest place around it for which one does. -/
def Nearest (t : Tree) (place : Place) (h : Handle) : Prop :=
  ∃ outer, outer <:+ place ∧ t.handleAt? outer = some h ∧
    ∀ inner, inner <:+ place → outer.length < inner.length → t.handleAt? inner = none

theorem StandsFor.isValid (hs : t.StandsFor h place) : t.isValid h = true :=
  isValid_iff.mpr (hs.imp fun _ hn => hn.1)

theorem handleAt?_eq_none_iff : t.handleAt? place = none ↔ ∀ h, ¬ t.StandsFor h place := by
  constructor
  · rintro hnone h ⟨n, hn, horigin⟩
    have hpos := (lt_nextHandle_of_node? hn).1
    rw [node?_of_nonneg hpos] at hn
    have hmem : some n ∈ t.slots.toList := by
      refine List.mem_of_getElem? (i := h.toNat) ?_
      rw [Array.getElem?_toList]
      exact Option.join_eq_some_iff.mp hn
    simpa [horigin] using List.findIdx?_eq_none_iff.mp (Option.map_eq_none_iff.mp hnone) _ hmem
  · intro hnone
    cases hat : t.handleAt? place with
    | none => rfl
    | some h => exact absurd (origin_of_handleAt? hat) (hnone h)

theorem OriginsApart.handleAt?_eq_some_iff (ha : t.OriginsApart) :
    t.handleAt? place = some h ↔ t.StandsFor h place := by
  refine ⟨origin_of_handleAt?, fun hs => ?_⟩
  cases hat : t.handleAt? place with
  | none => exact absurd hs (handleAt?_eq_none_iff.mp hat h)
  | some k => rw [ha k h place (origin_of_handleAt? hat) hs]

theorem nearest_of_handleAt? (hat : t.handleAt? place = some h) : t.Nearest place h :=
  ⟨place, List.suffix_rfl, hat, fun _ hinner hlt => absurd hinner.length_le (by lia)⟩

theorem nearest_cons_iff {i : Nat} (hat : t.handleAt? (i :: place) = none) :
    t.Nearest (i :: place) h ↔ t.Nearest place h := by
  constructor
  · rintro ⟨outer, houter, hh, hnone⟩
    rcases List.suffix_cons_iff.mp houter with rfl | houter
    · rw [hat] at hh
      cases hh
    · exact ⟨outer, houter, hh, fun inner hinner => hnone inner (hinner.trans (List.suffix_cons i place))⟩
  · rintro ⟨outer, houter, hh, hnone⟩
    refine ⟨outer, houter.trans (List.suffix_cons i place), hh, fun inner hinner hlt => ?_⟩
    rcases List.suffix_cons_iff.mp hinner with rfl | hinner
    · exact hat
    · exact hnone inner hinner hlt

theorem Nearest.unique (hh : t.Nearest place h) (hk : t.Nearest place k) : h = k := by
  obtain ⟨outer, houter, hat, hnone⟩ := hh
  obtain ⟨outer', houter', hat', hnone'⟩ := hk
  rcases Nat.lt_trichotomy outer.length outer'.length with hlt | heq | hlt
  · rw [hnone outer' houter' hlt] at hat'
    cases hat'
  · rw [(List.suffix_of_suffix_length_le houter houter' heq.le).eq_of_length heq, hat'] at hat
    exact (Option.some.inj hat).symm
  · rw [hnone' outer houter hlt] at hat
    cases hat

theorem handleOf?_eq_some_iff : t.handleOf? place = some h ↔ t.Nearest place h := by
  induction place with
  | nil =>
    refine ⟨nearest_of_handleAt?, ?_⟩
    rintro ⟨outer, houter, hat, -⟩
    rwa [List.suffix_nil.mp houter] at hat
  | cons i rest ih =>
    rw [handleOf?]
    cases hat : t.handleAt? (i :: rest) with
    | none => rw [Option.none_or, nearest_cons_iff hat, ih]
    | some k =>
      rw [Option.some_or, Option.some_inj]
      exact ⟨fun heq => heq ▸ nearest_of_handleAt? hat, fun hh => (nearest_of_handleAt? hat).unique hh⟩

theorem exists_node_of_handleOf? (hof : t.handleOf? place = some h) : ∃ n, t.node? h = some n := by
  obtain ⟨outer, -, hat, -⟩ := handleOf?_eq_some_iff.mp hof
  obtain ⟨n, hn, -⟩ := origin_of_handleAt? hat
  exact ⟨n, hn⟩

theorem eq_none_of_mem_origins {pieces : Pieces} (hfree : pieces.OriginFree) {o : Option Place}
    (ho : o ∈ pieces.origins) : o = none := by
  induction pieces with
  | nil => exact absurd ho List.not_mem_nil
  | text t rest ih => exact ih hfree ho
  | node kind span origin body rest ihBody ihRest =>
    obtain ⟨horigin, hbody, hrest⟩ := hfree
    rcases List.mem_cons.mp ho with rfl | ho
    · exact horigin
    · exact (List.mem_append.mp ho).elim (ihBody hbody) (ihRest hrest)

theorem origin_eq_none_of_mem_arena {template : Template} {parent : Option Handle} {first : Nat}
    (hfree : template.OriginFree) (hn : n ∈ template.arena parent first) : n.origin = none := by
  rcases List.mem_cons.mp hn with rfl | hbelow
  · exact hfree.1
  · refine eq_none_of_mem_origins hfree.2 ?_
    rw [← map_origin_arena template.body first (first + 1)]
    exact List.mem_map_of_mem hbelow

section Seated

variable (ht : t.WellFormed) (hs : t.seat e.touched e.operation = .ok s)
include ht hs

/-- After a call whose subtree comes from nowhere a node stands for a place if it did and has stayed. -/
theorem standsFor_splice_iff (hfree : e.OriginFree) :
    (t.splice s e).StandsFor h place ↔ t.StandsFor h place ∧ h ∉ e.removed t := by
  constructor
  · rintro ⟨n', hn', horigin⟩
    by_cases hh : h < t.nextHandle
    · obtain ⟨hrem, n, hn, -⟩ := exists_old_of_splice ht hs hh hn'
      rw [node?_splice_of_kept ht hs hn hrem] at hn'
      cases hn'
      exact ⟨⟨n, hn, horigin⟩, hrem⟩
    · obtain ⟨template, he, hmem⟩ := exists_mem_arena_of_splice ht hs (by lia) hn'
      rw [origin_eq_none_of_mem_arena (hfree template he) hmem] at horigin
      cases horigin
  · rintro ⟨⟨n, hn, horigin⟩, hrem⟩
    exact ⟨_, node?_splice_of_kept ht hs hn hrem, horigin⟩

end Seated

/-- What calls whose subtrees come from nowhere have left of a tree: a node of it stands for its place as
long as it is there, and no other node stands for any. -/
structure Leaves (first t : Tree) : Prop where
  wellFormed : t.WellFormed
  nextHandle_le : first.nextHandle ≤ t.nextHandle
  standsFor_iff : ∀ h place, t.StandsFor h place ↔ first.StandsFor h place ∧ t.isValid h = true

theorem WellFormed.leaves (ht : t.WellFormed) : t.Leaves t :=
  ⟨ht, Int.le_refl _, fun _ _ => (and_iff_left_of_imp StandsFor.isValid).symm⟩

namespace Leaves

variable {first : Tree}

theorem splice (hl : first.Leaves t) (hs : t.seat e.touched e.operation = .ok s)
    (hfree : e.OriginFree) : first.Leaves (t.splice s e) := by
  have ht := hl.wellFormed
  have hnext := hl.nextHandle_le
  refine ⟨wellFormed_splice ht hs, by rw [nextHandle_splice]; lia, fun h place => ?_⟩
  rw [standsFor_splice_iff ht hs hfree, hl.standsFor_iff, and_assoc]
  refine and_congr_right fun hstands => ?_
  obtain ⟨n, hn, -⟩ := hstands
  have hlt := (lt_nextHandle_of_node? hn).2
  rw [isValid_iff, isValid_iff, live_splice_iff ht hs]
  exact ⟨.inl, fun hlive => hlive.resolve_right (by lia)⟩

theorem call (hl : first.Leaves t) (hfree : e.OriginFree) : first.Leaves (t.call e) := by
  rcases call_cases hl.wellFormed e with heq | ⟨s, hs, heq⟩
  · rwa [heq]
  · rw [heq]
    exact hl.splice hs hfree

theorem originsApart (hl : first.Leaves t) (ha : first.OriginsApart) : t.OriginsApart :=
  fun h k place hh hk =>
    ha h k place ((hl.standsFor_iff h place).mp hh).1 ((hl.standsFor_iff k place).mp hk).1

theorem handleAt?_eq_some_iff (hl : first.Leaves t) (ha : first.OriginsApart) :
    t.handleAt? place = some h ↔ first.handleAt? place = some h ∧ t.isValid h = true := by
  rw [(hl.originsApart ha).handleAt?_eq_some_iff, ha.handleAt?_eq_some_iff, hl.standsFor_iff]

theorem isInvalidated (hl : first.Leaves t) (ha : first.OriginsApart)
    (hat : first.handleAt? place = some h) (hnone : t.handleAt? place = none) :
    t.isInvalidated h = true := by
  obtain ⟨n, hn, -⟩ := origin_of_handleAt? hat
  obtain ⟨hpos, hlt⟩ := lt_nextHandle_of_node? hn
  have hnext := hl.nextHandle_le
  refine isInvalidated_iff.mpr ⟨⟨hpos, by lia⟩, fun hlive => ?_⟩
  rw [(hl.handleAt?_eq_some_iff ha).mpr ⟨hat, isValid_iff.mpr hlive⟩] at hnone
  cases hnone

end Leaves

theorem Mirrors.originsApart {ast : Syntax.Ast} (hm : t.Mirrors ast) : t.OriginsApart := by
  rintro h k place ⟨n, hn, horigin⟩ ⟨m, hm', horigin'⟩
  exact hm.injective h k n m hn hm' (horigin.trans horigin'.symm)

end Tree

/-- A tree with an index of its nodes by their places. The index is kept beside the slots: a node is entered
when it is grafted and struck when it goes. -/
structure Indexed where
  tree : Tree
  index : Place → Option Handle

namespace Indexed

variable {x : Indexed} {t : Tree} {e : Edit} {h : Handle} {place : Place}
  {index : Place → Option Handle}

/-- Writes what the index says of the place that a node was parsed from, if it was. -/
def put (index : Place → Option Handle) (origin : Option Place) (entry : Option Handle) :
    Place → Option Handle :=
  match origin with
  | some place => Function.update index place entry
  | none => index

/-- Enters nodes that stand in consecutive slots. -/
def enter (index : Place → Option Handle) (next : Handle) : List Node → Place → Option Handle
  | [] => index
  | n :: rest => enter (put index n.origin (some next)) (next + 1) rest

/-- Strikes the places of nodes. -/
def strike (t : Tree) (index : Place → Option Handle) (hs : List Handle) : Place → Option Handle :=
  hs.foldl (fun index h => put index ((t.node? h).bind (·.origin)) none) index

def ofTemplate (file : String) (source : Text) (template : Template) : Indexed :=
  ⟨Tree.ofTemplate file source template, enter (fun _ => none) 0 (template.arena none 0)⟩

/-- Makes a call; one that fails leaves the index as it is. -/
def call (x : Indexed) (e : Edit) : Indexed where
  tree := x.tree.call e
  index := match e.apply x.tree with
    | .ok _ => strike x.tree
        (enter x.index x.tree.nextHandle (e.subtree?.elim [] (·.arena none x.tree.slots.size)))
        (e.removed x.tree)
    | .error _ => x.index

/-- The handle that the index has for the place, or for the nearest place around it, if it is a live one. -/
def lookup (x : Indexed) : Place → Option Handle
  | [] => (x.index []).filter x.tree.isValid
  | i :: outer => ((x.index (i :: outer)).filter x.tree.isValid).or (x.lookup outer)

/-- The index has the nodes of the tree and no others. -/
def Exact (x : Indexed) : Prop := ∀ h place, x.index place = some h ↔ x.tree.StandsFor h place

theorem put_eq (origin : Option Place) (entry : Option Handle) :
    put index origin entry place = if origin = some place then entry else index place := by
  cases origin with
  | none => rfl
  | some o => simp [put, Function.update_apply, eq_comm]

theorem enter_of_forall {next : Handle} {nodes : List Node}
    (hfree : ∀ n ∈ nodes, n.origin ≠ some place) : enter index next nodes place = index place := by
  induction nodes generalizing index next with
  | nil => rfl
  | cons n rest ih =>
    obtain ⟨hn, hrest⟩ := List.forall_mem_cons.mp hfree
    rw [enter, ih hrest, put_eq, if_neg hn]

theorem enter_of_getElem? {next : Handle} {nodes : List Node} {i : Nat} {n : Node}
    (hn : nodes[i]? = some n) (horigin : n.origin = some place)
    (hlast : ∀ k m, i < k → nodes[k]? = some m → m.origin ≠ some place) :
    enter index next nodes place = some (next + i) := by
  induction nodes generalizing index next i with
  | nil => cases hn
  | cons m rest ih =>
    cases i with
    | zero =>
      obtain rfl : m = n := Option.some.inj hn
      rw [enter, enter_of_forall, put_eq, if_pos horigin, Int.natCast_zero, Int.add_zero]
      intro o ho
      obtain ⟨k, hk⟩ := List.getElem?_of_mem ho
      exact hlast (k + 1) o (Nat.succ_pos k) hk
    | succ i =>
      rw [enter, ih hn fun k o hk ho => hlast (k + 1) o (Nat.succ_lt_succ hk) ho]
      exact congrArg some (by lia)

theorem strike_eq_some_iff {hs : List Handle} : strike t index hs place = some h ↔
    index place = some h ∧ ∀ k ∈ hs, ¬ t.StandsFor k place := by
  induction hs generalizing index with
  | nil => simp [strike]
  | cons k rest ih =>
    have hstep : strike t index (k :: rest) =
        strike t (put index ((t.node? k).bind (·.origin)) none) rest := rfl
    have hstands : (t.node? k).bind (·.origin) = some place ↔ t.StandsFor k place :=
      Option.bind_eq_some_iff
    rw [hstep, ih, List.forall_mem_cons, put_eq, ← hstands]
    split
    · next heq => simp [heq]
    · next hne => simp [hne]

theorem exact_ofTemplate {file : String} {source : Text} {template : Template}
    (ha : (Tree.ofTemplate file source template).OriginsApart) :
    (ofTemplate file source template).Exact := by
  have hnode := Tree.node?_ofTemplate file source template
  intro h place
  change enter _ 0 _ place = some h ↔ (Tree.ofTemplate file source template).StandsFor h place
  by_cases hstands : ∃ k, (Tree.ofTemplate file source template).StandsFor k place
  · obtain ⟨k, hk⟩ := hstands
    obtain ⟨i, rfl⟩ : ∃ i : Nat, k = i := by
      obtain ⟨n, hn, -⟩ := hk
      exact ⟨k.toNat, (Int.toNat_of_nonneg (Tree.lt_nextHandle_of_node? hn).1).symm⟩
    have ⟨n, hn, horigin⟩ := hk
    rw [enter_of_getElem? ((hnode i).symm.trans hn) horigin, Int.zero_add, Option.some_inj]
    · exact ⟨fun heq => heq ▸ hk, fun hh => ha _ _ place hk hh⟩
    · intro j m hj hm heq
      have := ha j i place ⟨m, (hnode j).trans hm, heq⟩ hk
      lia
  · rw [enter_of_forall]
    · exact iff_of_false (by simp) fun hh => hstands ⟨h, hh⟩
    · intro n hn heq
      obtain ⟨i, hi⟩ := List.getElem?_of_mem hn
      exact hstands ⟨i, n, (hnode i).trans hi, heq⟩

theorem index_call_of_error {fault : Fault} (h : e.apply x.tree = .error fault) :
    (x.call e).index = x.index := by
  simp only [call, h]

theorem index_call_of_ok {next : Tree} (h : e.apply x.tree = .ok next) : (x.call e).index =
    strike x.tree (enter x.index x.tree.nextHandle (e.subtree?.elim [] (·.arena none x.tree.slots.size)))
      (e.removed x.tree) := by
  simp only [call, h]

theorem Exact.call (hx : x.Exact) (ht : x.tree.WellFormed) (ha : x.tree.OriginsApart)
    (hfree : e.OriginFree) : (x.call e).Exact := by
  intro h place
  change (x.call e).index place = some h ↔ (x.tree.call e).StandsFor h place
  have happly := Tree.apply_eq_splice x.tree e
  cases hs : x.tree.seat e.touched e.operation with
  | error fault =>
    rw [hs] at happly
    rw [index_call_of_error happly, Tree.call, Tree.on_procedure_of_error hs]
    exact hx h place
  | ok s =>
    rw [hs] at happly
    have hentered : enter x.index x.tree.nextHandle
        (e.subtree?.elim [] (·.arena none x.tree.slots.size)) = x.index := by
      funext place
      refine enter_of_forall fun n hn => ?_
      cases he : e.subtree? with
      | none =>
        rw [he] at hn
        cases hn
      | some template =>
        rw [he] at hn
        rw [Tree.origin_eq_none_of_mem_arena (hfree template he) hn]
        exact (Option.some_ne_none place).symm
    rw [index_call_of_ok happly, Tree.call_of_seat ht hs, hentered, strike_eq_some_iff, hx h place,
      Tree.standsFor_splice_iff ht hs hfree]
    refine and_congr_right fun hstands => ⟨fun hnone hrem => hnone h hrem hstands, ?_⟩
    intro hrem k hk hstands'
    exact hrem (ha h k place hstands hstands' ▸ hk)

theorem Exact.filter_eq (hx : x.Exact) (ha : x.tree.OriginsApart) (place : Place) :
    (x.index place).filter x.tree.isValid = x.tree.handleAt? place := by
  refine Option.ext fun h => ?_
  rw [Option.filter_eq_some_iff, hx h place, ha.handleAt?_eq_some_iff]
  exact and_iff_left_of_imp Tree.StandsFor.isValid

/-- With an exact index a look-up comes to what a search of the slots does. -/
theorem Exact.lookup_eq (hx : x.Exact) (ha : x.tree.OriginsApart) (place : Place) :
    x.lookup place = x.tree.handleOf? place := by
  induction place with
  | nil => exact hx.filter_eq ha []
  | cons i outer ih => rw [lookup, Tree.handleOf?, hx.filter_eq ha, ih]

/-- What a look-up finds in a tree that came from another one: the node that the place had there, or else
the nearest place around it, of those that are still live. -/
structure Finds (x : Indexed) (first : Tree) (place outer : Place) (h : Handle) : Prop where
  encloses : outer <:+ place
  /-- The node was there from the start, so it was not grafted. -/
  first_at : first.handleAt? outer = some h
  live : x.tree.isValid h = true
  nearest : ∀ inner k, inner <:+ place → outer.length < inner.length →
    first.handleAt? inner = some k → x.tree.isInvalidated k = true
  found : x.tree.handleOf? place = some h
  indexed : x.lookup place = some h
  origin : x.tree.origin h = .ok (some outer)

/-- What holds of a tree and its index at every time. -/
structure Follows (x : Indexed) (first : Tree) : Prop where
  leaves : first.Leaves x.tree
  exact : x.Exact

theorem Follows.call {first : Tree} (hx : x.Follows first) (ha : first.OriginsApart)
    (hfree : e.OriginFree) : (x.call e).Follows first :=
  ⟨hx.leaves.call hfree, hx.exact.call hx.leaves.wellFormed (hx.leaves.originsApart ha) hfree⟩

theorem Follows.exists_finds {first : Tree} (hx : x.Follows first) (ha : first.OriginsApart)
    (hroot : first.StandsFor Tree.root []) (place : Place) : ∃ outer h, x.Finds first place outer h := by
  have ha' := hx.leaves.originsApart ha
  -- The root stays, so the way outwards does not end without a node.
  have hend : x.tree.handleAt? [] = some Tree.root :=
    (hx.leaves.handleAt?_eq_some_iff ha).mpr ⟨ha.handleAt?_eq_some_iff.mpr hroot,
      Tree.isValid_iff.mpr hx.leaves.wellFormed.root_live⟩
  obtain ⟨h, hfound⟩ : ∃ h, x.tree.handleOf? place = some h := by
    induction place with
    | nil => exact ⟨_, hend⟩
    | cons i rest ih =>
      obtain ⟨k, hk⟩ := ih
      rw [Tree.handleOf?, hk]
      cases x.tree.handleAt? (i :: rest) with
      | none => exact ⟨k, rfl⟩
      | some l => exact ⟨l, rfl⟩
  obtain ⟨outer, houter, hat, hnone⟩ := Tree.handleOf?_eq_some_iff.mp hfound
  obtain ⟨hfirst, hlive⟩ := (hx.leaves.handleAt?_eq_some_iff ha).mp hat
  obtain ⟨n, hn, horigin⟩ := Tree.origin_of_handleAt? hat
  refine ⟨outer, h, houter, hfirst, hlive, fun inner k hinner hlt hk =>
    hx.leaves.isInvalidated ha hk (hnone inner hinner hlt), hfound, ?_, ?_⟩
  · rw [hx.exact.lookup_eq ha', hfound]
  · rw [Tree.origin_eq hn, horigin]

end Indexed

namespace ShelfStep

variable {text : Text} {path : String} {template : Template} {f : Syntax.SourceFile}
  {steps : List ShelfStep} {reached : Indexed}

/-- The calls bring in what comes from no place. -/
def OriginFree : ShelfStep → Prop := Brings Edit.OriginFree

theorem map_tree_foldl_applyBy (steps : List ShelfStep) (shelf : List Indexed) :
    (steps.foldl (applyBy Indexed.call) shelf).map (·.tree) =
      steps.foldl apply (shelf.map (·.tree)) := by
  induction steps generalizing shelf with
  | nil => rfl
  | cons a steps ih =>
    rw [List.foldl_cons, List.foldl_cons, ih]
    refine congrArg (steps.foldl apply) ?_
    cases a with
    | call i e =>
      refine List.ext_getElem? fun k => ?_
      simp only [applyBy, apply, List.getElem?_map, List.getElem?_modify]
      cases shelf[k]? with
      | none => rfl
      | some x => by_cases hk : i = k <;> simp [hk, Indexed.call]
    | clone i =>
      rw [applyBy, apply, List.map_append, List.getElem?_map]
      cases shelf[i]? <;> rfl

/-- Look-ups in trees that come from one whose nodes stand for different places, its root for the
outermost one. -/
theorem exists_finds_of_originsApart (ha : (Tree.ofTemplate path text template).OriginsApart)
    (hroot : (Tree.ofTemplate path text template).StandsFor Tree.root [])
    (hfree : ∀ a ∈ steps, a.OriginFree)
    (hr : reached ∈ steps.foldl (applyBy Indexed.call) [Indexed.ofTemplate path text template])
    (place : Place) : ∃ outer h, reached.Finds (Tree.ofTemplate path text template) place outer h := by
  have hfirst : (Indexed.ofTemplate path text template).Follows (Tree.ofTemplate path text template) :=
    ⟨(Tree.wellFormed_ofTemplate path text template).leaves, Indexed.exact_ofTemplate ha⟩
  have hfollows : reached.Follows (Tree.ofTemplate path text template) :=
    forall_foldl_applyBy (fun x e he hx => hx.call ha he) hfree
      (fun x hx => List.mem_singleton.mp hx ▸ hfirst) reached hr
  exact hfollows.exists_finds ha hroot place

/-- Whatever is called on a tree that was read and on the copies that are taken on the way, a look-up finds
for every place the nearest node of those that were read and are still there. -/
theorem lookup_nearest (hread : Syntax.parse text path = .ok (template, f))
    (hfree : ∀ a ∈ steps, a.OriginFree)
    (hr : reached ∈ steps.foldl (applyBy Indexed.call) [Indexed.ofTemplate path text template])
    (place : Place) :
    reached.tree ∈ steps.foldl apply [Tree.ofTemplate path text template] ∧
      ∃ outer h, reached.Finds (Tree.ofTemplate path text template) place outer h := by
  have hmirrors := Syntax.mirrors_of_parse hread
  obtain ⟨n, hn⟩ := (Tree.wellFormed_ofTemplate path text template).root_live
  have hshelf := map_tree_foldl_applyBy steps [Indexed.ofTemplate path text template]
  refine ⟨hshelf ▸ List.mem_map_of_mem hr, ?_⟩
  exact exists_finds_of_originsApart hmirrors.originsApart ⟨n, hn, hmirrors.root_origin n hn⟩ hfree hr
    place

def twoNames : Text := .ofString "a;\nb;\n"

def twoNamesTemplate : Template :=
  Syntax.templateAsListed (.ofText twoNames) [] (Syntax.SourceFile.read {} (.ofText twoNames)).ast

/-- A copy is taken before the first name is replaced. -/
def otherFirst : List ShelfStep := [.clone 0, .call 0 (.replace 2 (.leaf "Name" (.ofString "c")))]

/-- Where the name has gone its place leads to the statement around it; in the copy it is still found. -/
theorem lookup_nearest_twoNames : ∃ model copy, otherFirst.foldl (applyBy Indexed.call)
      [Indexed.ofTemplate "a.ts" twoNames twoNamesTemplate] = [model, copy] ∧
    model.lookup [0, 0] = some 1 ∧ copy.lookup [0, 0] = some 2 := by
  have hread : Syntax.parse twoNames "a.ts" = .ok (twoNamesTemplate, _) :=
    Syntax.parse_of_ordered Syntax.ofPath_typed (by decide +kernel) (by decide +kernel)
      (by decide +kernel)
  have hfree : ∀ a ∈ otherFirst, a.OriginFree := by
    simp [otherFirst, OriginFree, Brings, Edit.OriginFree, Edit.subtree?, Template.leaf,
      Template.OriginFree, Pieces.OriginFree]
  have key : ∀ reached ∈ otherFirst.foldl (applyBy Indexed.call)
      [Indexed.ofTemplate "a.ts" twoNames twoNamesTemplate],
      reached.lookup [0, 0] = reached.tree.handleOf? [0, 0] := by
    intro reached hr
    obtain ⟨-, outer, h, hfinds⟩ := lookup_nearest hread hfree hr [0, 0]
    exact hfinds.indexed.trans hfinds.found.symm
  exact ⟨_, _, rfl, (key _ List.mem_cons_self).trans (by decide +kernel),
    (key _ (List.mem_cons_of_mem _ List.mem_cons_self)).trans (by decide +kernel)⟩

end ShelfStep
end LintRepair
