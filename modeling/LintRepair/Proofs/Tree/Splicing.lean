import LintRepair.Proofs.Tree.Grafting

/-!
# One form for the four calls

Replacing, inserting before or after, and deleting are one operation with different parts: find the
seat, graft what comes in, empty the slots of what goes, write the parent's new parts and mark the
nodes around it. `apply_eq_splice` says so, and the lemmas that follow describe the result.
-/
namespace LintRepair

namespace Part

theorem handles_append (ps qs : List Part) : handles (ps ++ qs) = handles ps ++ handles qs :=
  List.filterMap_append

theorem mem_handles_iff {parts : List Part} {c : Handle} : c ∈ handles parts ↔ node c ∈ parts := by
  rw [handles, List.mem_filterMap]
  constructor
  · rintro ⟨part, hmem, hpart⟩
    cases part with
    | text s => cases hpart
    | node d =>
      cases hpart
      exact hmem
  · exact fun hmem => ⟨node c, hmem, rfl⟩

theorem mem_handles_middle {front back : List Part} {c h : Handle} :
    h ∈ handles (front ++ node c :: back) ↔ h = c ∨ h ∈ handles front ++ handles back := by
  rw [handles_append, handles_cons_node, List.perm_middle.mem_iff, List.mem_cons]

theorem nodup_handles_middle {front back : List Part} {c : Handle} :
    (handles (front ++ node c :: back)).Nodup ↔
      c ∉ handles front ++ handles back ∧ (handles front ++ handles back).Nodup := by
  rw [handles_append, handles_cons_node, List.perm_middle.nodup_iff, List.nodup_cons]

theorem exists_around {h : Handle} {parts : List Part} (hm : h ∈ handles parts) :
    ∃ before after, around h parts = some (before, after) := by
  induction parts with
  | nil => cases hm
  | cons p rest ih =>
    by_cases hp : p = node h
    · exact ⟨[], rest, by simp [around, hp]⟩
    · have hrest : h ∈ handles rest := by
        cases p with
        | text t => exact hm
        | node k =>
          rw [handles_cons_node, List.mem_cons] at hm
          rcases hm with rfl | hm
          · exact absurd rfl hp
          · exact hm
      obtain ⟨before, after, hba⟩ := ih hrest
      exact ⟨p :: before, after, by simp [around, hp, hba]⟩

private theorem handles_setLast {parts : List Part} {s : Text} (t : Text)
    (hl : parts.getLast? = some (text s)) : handles (setLast parts t) = handles parts := by
  obtain ⟨front, rfl⟩ := List.getLast?_eq_some_iff.mp hl
  simp only [setLast, List.dropLast_concat, handles_append]
  rfl

private theorem handles_setHead {parts : List Part} {s : Text} (t : Text)
    (hh : parts.head? = some (text s)) : handles (text t :: parts.drop 1) = handles parts := by
  obtain ⟨rest, rfl⟩ := List.head?_eq_some_iff.mp hh
  rfl

theorem exists_text_of_bind {o : Option Part} (ho : (o.bind text?).getD [] ≠ []) :
    ∃ s, o = some (text s) := by
  rcases o with _ | (s | h)
  · exact absurd rfl ho
  · exact ⟨s, rfl⟩
  · exact absurd rfl ho

theorem exists_text_of_not_node {o : Option Part} (hs : o.isSome = true)
    (hn : ¬ o.any isNode = true) : ∃ s, o = some (text s) := by
  rcases o with _ | (s | h)
  · cases hs
  · exact ⟨s, rfl⟩
  · exact absurd rfl hn

theorem ne_nil_of_endsInComma {t : Text} (h : t.endsInComma = true) : t ≠ [] := by
  rintro rfl
  cases h

theorem ne_nil_of_startsWithComma {t : Text} (h : t.startsWithComma = true) : t ≠ [] := by
  rintro rfl
  cases h

theorem handles_tidy (atRoot : Bool) (before after : List Part) :
    handles (tidy atRoot before after).1 = handles before ∧
      handles (tidy atRoot before after).2 = handles after := by
  unfold tidy
  extract_lets previous next previousText nextText previousIsNode nextIsNode startsLine endsLine
  split
  · next hc =>
    obtain ⟨s, hs⟩ := exists_text_of_bind (ne_nil_of_endsInComma hc)
    exact ⟨handles_setLast _ hs, rfl⟩
  split
  · next hc =>
    rw [Bool.and_eq_true] at hc
    obtain ⟨s, hs⟩ := exists_text_of_bind (ne_nil_of_startsWithComma hc.1)
    exact ⟨rfl, handles_setHead _ hs⟩
  split
  · exact ⟨rfl, rfl⟩
  · next hnodes =>
    rw [Bool.or_eq_true, not_or] at hnodes
    split
    · constructor
      · dsimp only
        split
        · next hp =>
          obtain ⟨s, hs⟩ := exists_text_of_not_node hp hnodes.1
          exact handles_setLast _ hs
        · rfl
      · dsimp only
        split
        · next hn =>
          obtain ⟨s, hs⟩ := exists_text_of_not_node hn hnodes.2
          exact handles_setHead _ hs
        · rfl
    split
    · next hs =>
      rw [Bool.and_eq_true] at hs
      have hne : nextText ≠ [] := by
        intro he
        rw [he] at hs
        cases hs.2
      obtain ⟨s, hs⟩ := exists_text_of_bind hne
      exact ⟨rfl, handles_setHead _ hs⟩
    · exact ⟨rfl, rfl⟩

theorem Tidy.replace_node {before after : List Part} {h : Handle} (k : Handle)
    (ht : Tidy (before ++ node h :: after)) : Tidy (before ++ node k :: after) := by
  obtain ⟨hempty, hchain⟩ := ht
  refine ⟨by simpa using hempty, ?_⟩
  obtain ⟨hbefore, hafter, hjoin⟩ := List.isChain_append.mp hchain
  refine List.isChain_append.mpr ⟨hbefore, ?_, ?_⟩
  · obtain ⟨-, htail⟩ := List.isChain_cons.mp hafter
    exact List.isChain_cons.mpr ⟨fun q _ => .inl rfl, htail⟩
  · intro p _ q hq
    cases hq
    exact .inr rfl

end Part

namespace Edit

/-- The word under which a refused call is reported. -/
def operation : Edit → String
  | replace _ _ => "replace"
  | insertBefore _ _ _ => "insert before"
  | insertAfter _ _ _ => "insert after"
  | delete _ => "delete"

/-- The handle that a call hands out for the subtree that it brings in. -/
def landing (t : Tree) : Edit → Except Fault (Option Handle)
  | replace h s => return some (← t.replace h s).2
  | insertBefore h s sep => return some (← t.insertBefore h s sep).2
  | insertAfter h s sep => return some (← t.insertAfter h s sep).2
  | delete h => do
    let _ ← t.delete h
    return none

/-- The call takes its node out of the tree. -/
def removes : Edit → Bool
  | replace _ _ | delete _ => true
  | insertBefore _ _ _ | insertAfter _ _ _ => false

/-- The handles that a call makes invalid. -/
def removed (t : Tree) (e : Edit) : List Handle := if e.removes then t.subtree e.touched else []

/-- What stands in the parent where the node stood, the new node being `new`. -/
def seated (new : Handle) : Edit → List Handle
  | replace _ _ => [new]
  | insertBefore h _ _ => [new, h]
  | insertAfter h _ _ => [h, new]
  | delete _ => []

/-- The parts of the parent after a call. -/
def newParts (seat : Tree.Seat) (new : Handle) : Edit → List Part
  | replace _ _ => seat.before ++ .node new :: seat.after
  | insertBefore h _ sep => Part.normalize (seat.before ++ .node new ::
      .text (sep.getD (Part.separator seat.before)) :: .node h :: seat.after)
  | insertAfter h _ sep => Part.normalize (seat.before ++ .node h ::
      .text (sep.getD (Part.separator seat.before)) :: .node new :: seat.after)
  | delete _ =>
    let (before, after) := Part.tidy seat.parentNode.parent.isNone seat.before seat.after
    Part.normalize (before ++ after)

theorem handles_newParts (e : Edit) (seat : Tree.Seat) (new : Handle) :
    Part.handles (e.newParts seat new) =
      Part.handles seat.before ++ e.seated new ++ Part.handles seat.after := by
  cases e with
  | replace h s => simp [newParts, seated, Part.handles_append, Part.handles_cons_node]
  | insertBefore h s sep =>
    simp [newParts, seated, Part.handles_normalize, Part.handles_append, Part.handles_cons_node,
      Part.handles_cons_text]
  | insertAfter h s sep =>
    simp [newParts, seated, Part.handles_normalize, Part.handles_append, Part.handles_cons_node,
      Part.handles_cons_text]
  | delete h =>
    have ht := Part.handles_tidy seat.parentNode.parent.isNone seat.before seat.after
    simp [newParts, seated, Part.handles_normalize, Part.handles_append, ht.1, ht.2]

theorem tidy_newParts (e : Edit) {seat : Tree.Seat} (new : Handle)
    (ht : Part.Tidy (seat.before ++ .node e.touched :: seat.after)) :
    Part.Tidy (e.newParts seat new) := by
  cases e with
  | replace h s => exact ht.replace_node new
  | insertBefore h s sep => exact Part.tidy_normalize _
  | insertAfter h s sep => exact Part.tidy_normalize _
  | delete h => exact Part.tidy_normalize _

end Edit

namespace Tree

variable {t : Tree} {e : Edit} {s : Seat} {h k p : Handle}

/-- The tree with the subtree that a call brings in. -/
def grafted (t : Tree) (parent : Handle) (e : Edit) : Tree :=
  match e.subtree? with
  | some template => t.graft template parent
  | none => t

/-- The tree after a call at a seat. -/
def splice (t : Tree) (s : Seat) (e : Edit) : Tree :=
  ((t.grafted s.parent e).eraseAll (e.removed t)).setParts s.parent s.parentNode
    (e.newParts s t.nextHandle)

@[simp] theorem source_foldl_markDirty (hs : List Handle) :
    (hs.foldl markDirty t).source = t.source := by
  induction hs generalizing t with
  | nil => rfl
  | cons h hs ih =>
    rw [List.foldl_cons, ih, markDirty]
    split <;> rfl

@[simp] theorem source_eraseAll (hs : List Handle) : (t.eraseAll hs).source = t.source := by
  induction hs generalizing t with
  | nil => rfl
  | cons h hs ih => exact ih

theorem source_splice (t : Tree) (s : Seat) (e : Edit) : (t.splice s e).source = t.source := by
  have hgrafted : (t.grafted s.parent e).source = t.source := by
    unfold grafted
    split <;> rfl
  rw [splice, setParts, source_foldl_markDirty]
  exact (source_eraseAll _).trans hgrafted

theorem apply_eq_splice (t : Tree) (e : Edit) :
    e.apply t = (t.seat e.touched e.operation).map (t.splice · e) := by
  cases e with
  | replace h template =>
    simp only [Edit.apply, replace, Edit.touched, Edit.operation]
    cases t.seat h "replace" <;> rfl
  | insertBefore h template sep =>
    simp only [Edit.apply, insertBefore, Edit.touched, Edit.operation]
    cases t.seat h "insert before" <;> rfl
  | insertAfter h template sep =>
    simp only [Edit.apply, insertAfter, Edit.touched, Edit.operation]
    cases t.seat h "insert after" <;> rfl
  | delete h =>
    simp only [Edit.apply, delete, Edit.touched, Edit.operation]
    cases t.seat h "delete" <;> rfl

theorem apply_eq_ok_iff {next : Tree} :
    e.apply t = .ok next ↔ ∃ s, t.seat e.touched e.operation = .ok s ∧ t.splice s e = next := by
  rw [apply_eq_splice]
  cases t.seat e.touched e.operation <;> simp [Except.map]

/-- A seat names the parent, its node, and the first place of the node among the parts. -/
theorem seat_spec {operation : String} (hs : t.seat h operation = .ok s) :
    t.IsParent s.parent h ∧ t.node? s.parent = some s.parentNode ∧
      s.parentNode.parts = s.before ++ .node h :: s.after := by
  simp only [seat, bind, Except.bind] at hs
  split at hs
  · cases hs
  · next n hn =>
    split at hs
    · cases hs
    · next p hp =>
      split at hs
      · cases hs
      · next m hm =>
        split at hs
        · cases hs
        · next before after hba =>
          cases hs
          exact ⟨⟨n, get_eq_ok_iff.mp hn, hp⟩, get_eq_ok_iff.mp hm, Part.eq_of_around hba⟩

theorem landing_eq (t : Tree) (e : Edit) : e.landing t =
    (t.seat e.touched e.operation).map fun _ => e.subtree?.map fun _ => t.nextHandle := by
  cases e with
  | replace h template =>
    simp only [Edit.landing, replace, Edit.touched, Edit.operation]
    cases t.seat h "replace" <;> rfl
  | insertBefore h template sep =>
    simp only [Edit.landing, insertBefore, Edit.touched, Edit.operation]
    cases t.seat h "insert before" <;> rfl
  | insertAfter h template sep =>
    simp only [Edit.landing, insertAfter, Edit.touched, Edit.operation]
    cases t.seat h "insert after" <;> rfl
  | delete h =>
    simp only [Edit.landing, delete, Edit.touched, Edit.operation]
    cases t.seat h "delete" <;> rfl

theorem landing_of_seat (hs : t.seat e.touched e.operation = .ok s) :
    e.landing t = .ok (e.subtree?.map fun _ => t.nextHandle) := by
  rw [landing_eq, hs]
  rfl

theorem WellFormed.isParent_of_parts (ht : t.WellFormed) {n : Node} {p c : Handle}
    {front back : List Part} (hn : t.node? p = some n) (hparts : n.parts = front ++ .node c :: back)
    (hh : h = c ∨ h ∈ Part.handles front ++ Part.handles back) : t.IsParent p h := by
  refine ht.adopted p n h hn ?_
  rwa [hparts, Part.mem_handles_middle]

theorem exists_seat (ht : t.WellFormed) (hp : t.IsParent p h) (operation : String) :
    ∃ s, t.seat h operation = .ok s := by
  obtain ⟨m, hm, hmem⟩ := ht.listed p h hp
  obtain ⟨n, hn, hnp⟩ := hp
  obtain ⟨before, after, hba⟩ := Part.exists_around hmem
  refine ⟨⟨p, m, before, after⟩, ?_⟩
  simp [seat, get, hn, hnp, hm, hba, bind, Except.bind, pure, Except.pure]

end Tree
end LintRepair
