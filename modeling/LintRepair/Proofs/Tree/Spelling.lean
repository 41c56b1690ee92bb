import LintRepair.Proofs.Tree.Preservation

/-!
# The text of a node

What `textOf` and `render` give, as one equation a node: an unchanged parsed node is spelled by its
span of the source, any other one by its parts. A subtree that stands as its template put it is
spelled as the template says.
-/
namespace LintRepair

namespace Part

/-- The text of some parts, given the spelling of the nodes among them. -/
def flat (spell : Handle → Text) (parts : List Part) : Text :=
  parts.flatMap fun part =>
    match part with
    | text s => s
    | node c => spell c

variable {spell spell' : Handle → Text} {parts : List Part}

@[simp] theorem flat_nil (spell : Handle → Text) : flat spell [] = [] := rfl

@[simp] theorem flat_text (spell : Handle → Text) (s : Text) (rest : List Part) :
    flat spell (text s :: rest) = s ++ flat spell rest := rfl

@[simp] theorem flat_node (spell : Handle → Text) (c : Handle) (rest : List Part) :
    flat spell (node c :: rest) = spell c ++ flat spell rest := rfl

@[simp] theorem flat_append (spell : Handle → Text) (front back : List Part) :
    flat spell (front ++ back) = flat spell front ++ flat spell back := List.flatMap_append

theorem flat_congr (h : ∀ c ∈ handles parts, spell c = spell' c) :
    flat spell parts = flat spell' parts := by
  induction parts with
  | nil => rfl
  | cons p rest ih =>
    cases p with
    | text s => rw [flat_text, flat_text, ih h]
    | node c =>
      rw [flat_node, flat_node, h c List.mem_cons_self,
        ih fun x hx => h x (List.mem_cons_of_mem _ hx)]

@[simp] theorem flat_normalize (spell : Handle → Text) (parts : List Part) :
    flat spell (normalize parts) = flat spell parts := by
  fun_induction normalize parts with
  | case1 => rfl
  | case2 h rest ih => rw [flat_node, flat_node, ih]
  | case3 t rest ht ih => rw [flat_text, ih, List.isEmpty_iff.mp ht, List.nil_append]
  | case4 t rest _ u more hm ih =>
    rw [flat_text, flat_text, ← ih, hm, flat_text, List.append_assoc]
  | case5 t rest _ _ ih => rw [flat_text, flat_text, ih]

end Part

/-- No node of the template carries a span. -/
def Template.SpanFree (template : Template) : Prop := template.span = none ∧ template.body.SpanFree

namespace Tree

variable {t : Tree} {h : Handle} {n : Node}

/-- The text of a node, the empty one for a handle without a node. -/
def spelling (t : Tree) (h : Handle) : Text := t.textAt t.slots.size h

theorem textOf_eq (hn : t.node? h = some n) : t.textOf h = .ok (t.spelling h) := by
  simp [textOf, get, hn, spelling, bind, Except.bind, pure, Except.pure]

/-- The text of a node is told by the source and by what the nodes inside it are. The number of levels does
not matter once it reaches past the last slot. -/
theorem WellFormed.textAt_congr (ht : t.WellFormed) {t' : Tree} (hsource : t'.source = t.source)
    (fuel fuel' : Nat) (h : Handle) (hf : t.slots.size ≤ fuel + h.toNat)
    (hf' : t.slots.size ≤ fuel' + h.toNat) (hsame : ∀ k, t.Covers h k → t'.node? k = t.node? k) :
    t'.textAt fuel' h = t.textAt fuel h := by
  have hself := hsame h (t.covers_refl h)
  cases hn : t.node? h with
  | none =>
    rw [hn] at hself
    cases fuel <;> cases fuel' <;> simp only [textAt, hn, hself]
  | some n =>
    have hlt := lt_nextHandle_of_node? hn
    simp only [nextHandle] at hlt
    induction fuel generalizing fuel' h n with
    | zero => lia
    | succ fuel ih =>
      obtain ⟨fuel', rfl⟩ : ∃ k, fuel' = k + 1 := ⟨fuel' - 1, by lia⟩
      have hparts : Part.flat (t'.textAt fuel') n.parts = Part.flat (t.textAt fuel) n.parts := by
        refine Part.flat_congr fun c hc => ?_
        have hchild := ht.adopted h n c hn hc
        have hle := ht.descending h c hchild
        have hbelow : ∀ k, t.Covers c k → t'.node? k = t.node? k :=
          fun k hk => hsame k (hchild.encloses.covers.trans hk)
        obtain ⟨m, hm⟩ := hchild.inner_live
        have hbound := lt_nextHandle_of_node? hm
        simp only [nextHandle] at hbound
        exact ih fuel' c (by lia) (by lia) hbelow (hbelow c (t.covers_refl c)) m hm hbound
      rw [hn] at hself
      simp only [textAt, hn, hself, hsource]
      split
      · rfl
      · exact hparts

theorem WellFormed.spelling_congr (ht : t.WellFormed) {t' : Tree} (hsource : t'.source = t.source)
    (hnext : t.nextHandle ≤ t'.nextHandle) (hsame : ∀ k, t.Covers h k → t'.node? k = t.node? k) :
    t'.spelling h = t.spelling h := by
  simp only [nextHandle] at hnext
  exact ht.textAt_congr hsource t.slots.size t'.slots.size h (by lia) (by lia) hsame

theorem spelling_of_span {span : Span} (hn : t.node? h = some n) (hclean : n.dirty = false)
    (hspan : n.span = some span) : t.spelling h = t.source.slice span.start span.stop := by
  have hlt := lt_nextHandle_of_node? hn
  simp only [nextHandle] at hlt
  obtain ⟨k, hk⟩ : ∃ k, t.slots.size = k + 1 := ⟨t.slots.size - 1, by lia⟩
  rw [spelling, hk]
  simp only [textAt, hn, hclean, hspan]

theorem WellFormed.spelling_of_parts (ht : t.WellFormed) (hn : t.node? h = some n)
    (hchanged : n.dirty = true ∨ n.span = none) : t.spelling h = Part.flat t.spelling n.parts := by
  have hlt := lt_nextHandle_of_node? hn
  simp only [nextHandle] at hlt
  obtain ⟨k, hk⟩ : ∃ k, t.slots.size = k + 1 := ⟨t.slots.size - 1, by lia⟩
  have hparts : Part.flat (t.textAt k) n.parts = Part.flat t.spelling n.parts := by
    refine Part.flat_congr fun c hc => ?_
    have hle := ht.descending h c (ht.adopted h n c hn hc)
    exact ht.textAt_congr rfl t.slots.size k c (by lia) (by lia) fun _ _ => rfl
  rw [← hparts, spelling, hk]
  simp only [textAt, hn]
  split
  · next hclean hspan =>
    rw [hclean, hspan] at hchanged
    simp at hchanged
  · rfl

theorem WellFormed.flat_pieces (ht : t.WellFormed) (p : Pieces) (parent : Handle) (next : Nat)
    (hplaced : t.Placed next (p.arena parent next).2) (hfree : p.SpanFree) :
    Part.flat t.spelling (p.arena parent next).1 = p.plain := by
  induction p generalizing parent next with
  | nil => rfl
  | text s rest ih =>
    simp only [Pieces.arena, Part.flat_text, Pieces.plain]
    rw [ih parent next hplaced hfree]
  | node kind span origin body rest ihb ihr =>
    obtain ⟨rfl, hbody, hrest⟩ := hfree
    simp only [Pieces.arena] at hplaced ⊢
    have hlater := hplaced.tail.right
    rw [Pieces.length_arena] at hlater ⊢
    have hmid : ((next + 1 + body.count : Nat) : Int) = ((next : Nat) : Int) + 1 + body.count := by
      lia
    rw [Part.flat_node, Pieces.plain, ht.spelling_of_parts hplaced.head (.inr rfl),
      Part.flat_normalize, ihb next (next + 1) hplaced.tail.left hbody,
      ihr parent (next + 1 + body.count) (by rw [hmid]; exact hlater) hrest]

/-- A subtree that stands as its template put it is spelled as the template says. -/
theorem WellFormed.spelling_of_placed (ht : t.WellFormed) {template : Template}
    {parent : Option Handle} {first : Nat}
    (hplaced : t.Placed first (template.arena parent first)) (hfree : template.SpanFree) :
    t.spelling first = template.plain := by
  simp only [Template.arena] at hplaced
  rw [ht.spelling_of_parts hplaced.head (.inr hfree.1), Part.flat_normalize,
    ht.flat_pieces template.body first (first + 1) hplaced.tail hfree.2]
  rfl

section Seated

variable {e : Edit} {s : Seat} {c : Handle} {template : Template} (ht : t.WellFormed)
  (hs : t.seat e.touched e.operation = .ok s)
include ht hs

theorem placed_splice (he : e.subtree? = some template) :
    (t.splice s e).Placed (t.slots.size : Nat) (template.arena (some s.parent) t.slots.size) := by
  intro i n hn
  change (t.splice s e).node? (t.nextHandle + i) = some n
  rw [node?_splice_of_le ht hs (by lia), grafted, he]
  exact (node?_graft_new template s.parent i).trans hn

theorem spelling_splice_of_clear (hn : t.node? h = some n) (hrem : h ∉ e.removed t)
    (hout : ¬ t.Covers h s.parent) : (t.splice s e).spelling h = t.spelling h := by
  refine ht.spelling_congr (source_splice t s e) ?_ fun k hk => node?_splice_of_clear ht hs hn hrem hout hk
  rw [nextHandle_splice]
  lia

theorem spelling_splice_of_mem_sides (hc : c ∈ Part.handles s.before ++ Part.handles s.after) :
    (t.splice s e).spelling c = t.spelling c := by
  obtain ⟨hseat, hpar, -⟩ := seat_spec hs
  have hchild := isParent_of_mem_sides ht hs hc
  obtain ⟨n, hn⟩ := hchild.inner_live
  exact spelling_splice_of_clear ht hs hn
    (child_not_mem_removed ht hs hchild (ne_touched_of_mem_sides ht hs hc)
      (not_mem_removed_of_covers ht hseat (t.covers_refl _)))
    fun hcov => ht.descending.not_encloses_of_covers hcov hchild.encloses

theorem spelling_splice_new (he : e.subtree? = some template) (hfree : template.SpanFree) :
    (t.splice s e).spelling t.nextHandle = template.plain :=
  (wellFormed_splice ht hs).spelling_of_placed (placed_splice ht hs he) hfree

end Seated

end Tree
end LintRepair
