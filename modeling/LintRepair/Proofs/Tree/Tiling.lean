import LintRepair.Proofs.Text.Splices
import LintRepair.Proofs.Tree.Spelling

/-!
# Parsed trees

A tree as a parser leaves it: every node has a span of the source, and the texts and children of a
node lie side by side and fill its span. So what holds of the text of all children holds of the text of
the node. The spans alone, `Arranged`, already say that nodes that share a unit of the source lie inside
one another, and that nodes of one depth start at different places.
-/
namespace LintRepair

/-- The pieces are the source from one offset up to another, and none of their nodes is empty. -/
def Pieces.Tiles (source : Text) : Nat → Pieces → Nat → Prop
  | a, .nil, b => a = b
  | a, .text s rest, b => source.slice a (a + s.length) = s ∧ Tiles source (a + s.length) rest b
  | a, .node _ span _ body rest, b => ∃ stop, span = some ⟨a, stop⟩ ∧ a < stop ∧
      Tiles source a body stop ∧ Tiles source stop rest b

/-- The template is what a parser makes of the source. -/
def Template.Tiles (source : Text) (template : Template) : Prop :=
  template.span = some ⟨0, source.length⟩ ∧ template.body.Tiles source 0 source.length

namespace Tree

variable {t : Tree} {a b i : Nat} {c h p x y : Handle} {n : Node} {parts front back : List Part}

/-- The parts are the source from one offset up to another. -/
def Tiles (t : Tree) : Nat → List Part → Nat → Prop
  | a, [], b => a = b
  | a, .text s :: rest, b => t.source.slice a (a + s.length) = s ∧ t.Tiles (a + s.length) rest b
  | a, .node c :: rest, b => (t.spanOf c).start = a ∧ t.Tiles (t.spanOf c).stop rest b

theorem tiles_append : t.Tiles a (front ++ back) b ↔ ∃ m, t.Tiles a front m ∧ t.Tiles m back b := by
  induction front generalizing a with
  | nil => simp [Tiles]
  | cons part rest ih =>
    cases part with
    | text s => simp only [List.cons_append, Tiles, ih, and_assoc, exists_and_left]
    | node c => simp only [List.cons_append, Tiles, ih, and_assoc, exists_and_left]

theorem tiles_normalize (h : t.Tiles a parts b) : t.Tiles a (Part.normalize parts) b := by
  fun_induction Part.normalize parts generalizing a with
  | case1 => exact h
  | case2 c rest ih => exact ⟨h.1, ih h.2⟩
  | case3 s rest hs ih =>
    have hrest := h.2
    rw [List.isEmpty_iff.mp hs] at hrest
    exact ih hrest
  | case4 s rest hs u more hm ih =>
    have hrest := ih h.2
    rw [hm] at hrest
    refine ⟨?_, ?_⟩
    · rw [List.length_append, ← Nat.add_assoc, ← Text.slice_append_slice t.source
        (Nat.le_add_right a s.length) (Nat.le_add_right _ u.length), h.1, hrest.1]
    · rw [List.length_append, ← Nat.add_assoc]
      exact hrest.2
  | case5 s rest hs hm ih => exact ⟨h.1, ih h.2⟩

section Children

variable (hfull : ∀ c ∈ Part.handles parts, (t.spanOf c).start < (t.spanOf c).stop)
  (htiles : t.Tiles a parts b)
include hfull htiles

theorem tiles_bounds :
    a ≤ b ∧ ∀ c ∈ Part.handles parts, a ≤ (t.spanOf c).start ∧ (t.spanOf c).stop ≤ b := by
  induction parts generalizing a with
  | nil => exact ⟨Nat.le_of_eq htiles, fun c hc => absurd hc List.not_mem_nil⟩
  | cons part rest ih =>
    cases part with
    | text s =>
      obtain ⟨hle, hall⟩ := ih hfull htiles.2
      exact ⟨by lia, fun c hc => ⟨by have := (hall c hc).1; lia, (hall c hc).2⟩⟩
    | node d =>
      have hd := hfull d List.mem_cons_self
      have hstart := htiles.1
      obtain ⟨hle, hall⟩ := ih (fun c hc => hfull c (List.mem_cons_of_mem _ hc)) htiles.2
      refine ⟨by lia, fun c hc => ?_⟩
      rcases List.mem_cons.mp hc with rfl | hc
      · exact ⟨by lia, hle⟩
      · exact ⟨by have := (hall c hc).1; lia, (hall c hc).2⟩

theorem tiles_ordered :
    (Part.handles parts).Pairwise fun c d => (t.spanOf c).stop ≤ (t.spanOf d).start := by
  induction parts generalizing a with
  | nil => exact .nil
  | cons part rest ih =>
    cases part with
    | text s => exact ih hfull htiles.2
    | node d =>
      have hrest : ∀ c ∈ Part.handles rest, (t.spanOf c).start < (t.spanOf c).stop :=
        fun c hc => hfull c (List.mem_cons_of_mem _ hc)
      have hafter := (tiles_bounds hrest htiles.2).2
      exact List.pairwise_cons.mpr ⟨fun c hc => (hafter c hc).1, ih hrest htiles.2⟩

/-- Parts whose nodes become what their spans become are together what their stretch becomes, if
nothing outside of the nodes is replaced. -/
theorem flat_eq_spliceOn {g : Handle → Text} {xs : List Splice}
    (hxs : ∀ x ∈ xs, x.span.start < x.span.stop)
    (hg : ∀ c ∈ Part.handles parts,
      g c = t.source.spliceOn xs (t.spanOf c).start (t.spanOf c).stop)
    (hinside : ∀ x ∈ xs, ∀ i, x.span.Contains i → a ≤ i → i < b →
      ∃ c ∈ Part.handles parts, (t.spanOf c).Contains i) :
    Part.flat g parts = t.source.spliceOn xs a b := by
  induction parts generalizing a with
  | nil =>
    obtain rfl : a = b := htiles
    rw [Text.spliceOn_self]
    rfl
  | cons part rest ih =>
    cases part with
    | text s =>
      obtain ⟨hs, hrest⟩ := htiles
      have hfull' : ∀ c ∈ Part.handles rest, (t.spanOf c).start < (t.spanOf c).stop := hfull
      obtain ⟨hle, hbounds⟩ := tiles_bounds hfull' hrest
      have hclear : ∀ x ∈ xs, ∀ i, a ≤ i → i < a + s.length → ¬ x.span.Contains i := by
        intro x hx i hai his hi
        obtain ⟨c, hc, hci⟩ := hinside x hx i hi hai (by lia)
        have := (hbounds c hc).1
        have := hci.1
        lia
      rw [Part.flat_text, ih hfull hrest hg fun x hx i hi hai hib => hinside x hx i hi (by lia) hib,
        ← Text.spliceOn_append t.source xs (Nat.le_add_right a s.length) hle,
        Text.spliceOn_of_clear hxs (Nat.le_add_right a s.length) hclear, hs]
    | node d =>
      obtain ⟨rfl, hrest⟩ := htiles
      have hd := hfull d List.mem_cons_self
      have hfull' : ∀ c ∈ Part.handles rest, (t.spanOf c).start < (t.spanOf c).stop :=
        fun c hc => hfull c (List.mem_cons_of_mem _ hc)
      obtain ⟨hle, -⟩ := tiles_bounds hfull' hrest
      rw [Part.flat_node, hg d List.mem_cons_self, ih hfull' hrest,
        Text.spliceOn_append t.source xs (Nat.le_of_lt hd) hle]
      · exact fun c hc => hg c (List.mem_cons_of_mem _ hc)
      · intro x hx i hi hai hib
        obtain ⟨c, hc, hci⟩ := hinside x hx i hi (by lia) hib
        rcases List.mem_cons.mp hc with rfl | hc
        · have := hci.2
          lia
        · exact ⟨c, hc, hci⟩

end Children

theorem flat_of_tiles {a b : Nat} {parts : List Part}
    (hfull : ∀ c ∈ Part.handles parts, (t.spanOf c).start < (t.spanOf c).stop)
    (htiles : t.Tiles a parts b) :
    Part.flat (fun c => t.source.slice (t.spanOf c).start (t.spanOf c).stop) parts =
      t.source.slice a b := by
  have hnone : ∀ a b, a ≤ b → t.source.spliceOn [] a b = t.source.slice a b := fun a b hab =>
    Text.spliceOn_of_clear (by simp) hab (by simp)
  rw [← hnone a b (tiles_bounds hfull htiles).1]
  refine flat_eq_spliceOn hfull htiles (by simp) (fun c hc => ?_) (by simp)
  rw [hnone _ _ (Nat.le_of_lt (hfull c hc))]

theorem spanOf_of_span {span : Span} (hn : t.node? h = some n) (hs : n.span = some span) :
    t.spanOf h = span := by
  simp [spanOf, hn, hs]

/-- The spans of the children of a node are not empty, lie inside its own and come one after the other. -/
structure Arranged (t : Tree) : Prop where
  wellFormed : t.WellFormed
  filled : ∀ p c, t.IsParent p c → (t.spanOf c).start < (t.spanOf c).stop
  inside : ∀ p c, t.IsParent p c →
    (t.spanOf p).start ≤ (t.spanOf c).start ∧ (t.spanOf c).stop ≤ (t.spanOf p).stop
  ordered : ∀ p n, t.node? p = some n →
    (Part.handles n.parts).Pairwise fun c d => (t.spanOf c).stop ≤ (t.spanOf d).start

theorem arranged_of_tiles (ht : t.WellFormed)
    (hfull : ∀ p c, t.IsParent p c → (t.spanOf c).start < (t.spanOf c).stop)
    (htiles : ∀ h n, t.node? h = some n → t.Tiles (t.spanOf h).start n.parts (t.spanOf h).stop) :
    t.Arranged := by
  have hchild : ∀ p n, t.node? p = some n →
      ∀ c ∈ Part.handles n.parts, (t.spanOf c).start < (t.spanOf c).stop :=
    fun p n hn c hc => hfull p c (ht.adopted p n c hn hc)
  refine ⟨ht, hfull, fun p c hp => ?_, fun p n hn => tiles_ordered (hchild p n hn) (htiles p n hn)⟩
  obtain ⟨n, hn, hc⟩ := ht.listed p c hp
  exact (tiles_bounds (hchild p n hn) (htiles p n hn)).2 c hc

namespace Arranged

variable (ht : t.Arranged)
include ht

theorem span_of_covers (hx : t.Covers h x) :
    (t.spanOf h).start ≤ (t.spanOf x).start ∧ (t.spanOf x).stop ≤ (t.spanOf h).stop := by
  rcases hx with rfl | hx
  · exact ⟨Nat.le_refl _, Nat.le_refl _⟩
  · induction hx with
    | single hp => exact ht.inside _ _ hp
    | tail _ hp ih =>
      obtain ⟨hlo, hhi⟩ := ht.inside _ _ hp
      exact ⟨Nat.le_trans ih.1 hlo, Nat.le_trans hhi ih.2⟩

theorem contains_of_covers (hx : t.Covers h x) (hi : (t.spanOf x).Contains i) :
    (t.spanOf h).Contains i := by
  obtain ⟨hlo, hhi⟩ := ht.span_of_covers hx
  exact ⟨Nat.le_trans hlo hi.1, Nat.lt_of_lt_of_le hi.2 hhi⟩

theorem eq_of_contains (hn : t.node? p = some n) (hx : x ∈ Part.handles n.parts)
    (hy : y ∈ Part.handles n.parts) (hxi : (t.spanOf x).Contains i)
    (hyi : (t.spanOf y).Contains i) : x = y := by
  have hapart : (Part.handles n.parts).Pairwise fun c d =>
      ¬ ((t.spanOf c).Contains i ∧ (t.spanOf d).Contains i) := by
    refine (ht.ordered p n hn).imp fun hle hboth => ?_
    have hc := hboth.1.2
    have hd := hboth.2.1
    omega
  have : Std.Symm fun c d => ¬ ((t.spanOf c).Contains i ∧ (t.spanOf d).Contains i) :=
    ⟨fun _ _ h hboth => h hboth.symm⟩
  by_contra hne
  exact hapart.forall hx hy hne ⟨hxi, hyi⟩

theorem overlaps_of_contains (hx : ∃ n, t.node? x = some n) (hy : ∃ n, t.node? y = some n)
    (hxi : (t.spanOf x).Contains i) (hyi : (t.spanOf y).Contains i) : t.Overlaps x y := by
  obtain ⟨n, hn⟩ := hx
  obtain ⟨m, hm⟩ := hy
  -- From the root inwards: as long as a node is around both, so is the one child with the unit.
  have key : ∀ c, t.Covers c x → t.Covers c y → t.Overlaps x y := by
    intro c
    induction c using ht.wellFormed.descending.wellFounded_inwards.induction with
    | _ c ih =>
      intro hcx hcy
      rcases hcx with rfl | hcx
      · exact .inl hcy
      rcases hcy with rfl | hcy
      · exact .inr hcx.covers
      obtain ⟨z, hz⟩ := ht.wellFormed.outer_live hcx
      obtain ⟨d, hd, hdx⟩ := (ht.wellFormed.encloses_iff_child hz).mp hcx
      obtain ⟨d', hd', hdy⟩ := (ht.wellFormed.encloses_iff_child hz).mp hcy
      obtain rfl := ht.eq_of_contains hz hd hd' (ht.contains_of_covers hdx hxi)
        (ht.contains_of_covers hdy hyi)
      exact ih d (ht.wellFormed.adopted c z d hz hd) hdx hdy
  exact key root (ht.wellFormed.root_covers hn) (ht.wellFormed.root_covers hm)

theorem eq_of_start (hx : ∃ n, t.node? x = some n) (hy : ∃ n, t.node? y = some n)
    (hdepth : (t.ancestors x).length = (t.ancestors y).length)
    (hstart : (t.spanOf x).start = (t.spanOf y).start) : x = y := by
  have hwf := ht.wellFormed
  have hinner : ∀ z, (∃ n, t.node? z = some n) → z ≠ root →
      0 < (t.ancestors z).length ∧ (t.spanOf z).start < (t.spanOf z).stop := by
    rintro z ⟨n, hn⟩ hz
    obtain ⟨p, -, hp⟩ := hwf.exists_parent hn hz
    rw [hwf.descending.ancestors_of_isParent hp]
    exact ⟨Nat.succ_pos _, ht.filled p z hp⟩
  have houter : (t.ancestors root).length = 0 := by rw [hwf.ancestors_root]; rfl
  by_cases hxr : x = root
  · by_contra hne
    have hpos := (hinner y hy (hxr ▸ Ne.symm hne)).1
    rw [hxr] at hdepth
    omega
  by_cases hyr : y = root
  · have hpos := (hinner x hx hxr).1
    rw [hyr] at hdepth
    omega
  have hxfull := (hinner x hx hxr).2
  have hyfull := (hinner y hy hyr).2
  have hxi : (t.spanOf x).Contains (t.spanOf x).start := ⟨Nat.le_refl _, hxfull⟩
  have hyi : (t.spanOf y).Contains (t.spanOf x).start := ⟨by omega, by omega⟩
  -- One lies inside the other, and at one depth that leaves the same node.
  rcases ht.overlaps_of_contains hx hy hxi hyi with (heq | hin) | (heq | hin)
  · exact heq.symm
  · have hlt := hwf.descending.length_ancestors_lt hin
    omega
  · exact heq
  · have hlt := hwf.descending.length_ancestors_lt hin
    omega

end Arranged

/-- The tree is as a parser leaves it: unchanged, with a span for every node that its parts fill,
the whole source for the root and something of it for every other node. -/
structure Parsed (t : Tree) : Prop where
  wellFormed : t.WellFormed
  clean : ∀ h n, t.node? h = some n → n.dirty = false
  spanned : ∀ h n, t.node? h = some n → n.span = some (t.spanOf h)
  tiled : ∀ h n, t.node? h = some n → t.Tiles (t.spanOf h).start n.parts (t.spanOf h).stop
  filled : ∀ h n, t.node? h = some n → h ≠ root → (t.spanOf h).start < (t.spanOf h).stop
  root_span : t.spanOf root = ⟨0, t.source.length⟩

namespace Parsed

variable (ht : t.Parsed)
include ht

theorem filled_of_isParent (hp : t.IsParent p c) : (t.spanOf c).start < (t.spanOf c).stop := by
  obtain ⟨n, hn⟩ := hp.inner_live
  refine ht.filled c n hn fun hroot => ?_
  have := ht.wellFormed.descending p c hp
  simp only [hroot, root] at this
  lia

theorem filled_of_mem (hn : t.node? h = some n) (hc : c ∈ Part.handles n.parts) :
    (t.spanOf c).start < (t.spanOf c).stop :=
  ht.filled_of_isParent (ht.wellFormed.adopted h n c hn hc)

theorem arranged : t.Arranged :=
  arranged_of_tiles ht.wellFormed (fun _ _ hp => ht.filled_of_isParent hp) ht.tiled

theorem span_of_covers (hx : t.Covers h x) :
    (t.spanOf h).start ≤ (t.spanOf x).start ∧ (t.spanOf x).stop ≤ (t.spanOf h).stop :=
  ht.arranged.span_of_covers hx

theorem spelling_eq (hn : t.node? h = some n) :
    t.spelling h = t.source.slice (t.spanOf h).start (t.spanOf h).stop :=
  spelling_of_span hn (ht.clean h n hn) (ht.spanned h n hn)

theorem flat_eq (hn : t.node? h = some n)
    (hsub : ∀ c ∈ Part.handles parts, c ∈ Part.handles n.parts) (htiles : t.Tiles a parts b) :
    Part.flat t.spelling parts = t.source.slice a b := by
  rw [← flat_of_tiles (fun c hc => ht.filled_of_mem hn (hsub c hc)) htiles]
  refine Part.flat_congr fun c hc => ?_
  obtain ⟨m, hm⟩ := (ht.wellFormed.adopted h n c hn (hsub c hc)).inner_live
  exact ht.spelling_eq hm

end Parsed

/-- A node is as a parser leaves it. -/
structure Laid (t : Tree) (h : Handle) (n : Node) : Prop where
  clean : n.dirty = false
  spanned : n.span = some (t.spanOf h)
  filled : (t.spanOf h).start < (t.spanOf h).stop
  tiled : t.Tiles (t.spanOf h).start n.parts (t.spanOf h).stop

theorem tiles_pieces (p : Pieces) (parent : Handle) (next : Nat)
    (hplaced : t.Placed next (p.arena parent next).2) (htiles : p.Tiles t.source a b) :
    t.Tiles a (p.arena parent next).1 b ∧
      ∀ k : Handle, next ≤ k → k < next + p.count → ∃ n, t.node? k = some n ∧ t.Laid k n := by
  induction p generalizing parent next a b with
  | nil => exact ⟨htiles, fun k hle hlt => absurd hlt (by simp only [Pieces.count]; lia)⟩
  | text s rest ih =>
    obtain ⟨hrest, hlaid⟩ := ih parent next hplaced htiles.2
    exact ⟨⟨htiles.1, hrest⟩, hlaid⟩
  | node kind span origin body rest ihb ihr =>
    obtain ⟨stop, rfl, hfull, hbody, hrest⟩ := htiles
    simp only [Pieces.arena] at hplaced ⊢
    have hlater := hplaced.tail.right
    rw [Pieces.length_arena] at hlater ⊢
    have hmid : ((next + 1 + body.count : Nat) : Int) = ((next : Nat) : Int) + 1 + body.count := by
      lia
    have hspan := spanOf_of_span hplaced.head rfl
    obtain ⟨hinner, hbelow⟩ := ihb next (next + 1) hplaced.tail.left hbody
    obtain ⟨hafter, hbehind⟩ := ihr parent (next + 1 + body.count) (by rw [hmid]; exact hlater) hrest
    refine ⟨⟨by rw [hspan], by rw [hspan]; exact hafter⟩, fun k hle hlt => ?_⟩
    simp only [Pieces.count] at hlt
    rcases (by lia : k = next ∨ (next + 1 : Nat) ≤ k ∧ k < (next + 1 : Nat) + body.count ∨
      (next + 1 + body.count : Nat) ≤ k) with rfl | ⟨hlo, hhi⟩ | hlo
    · refine ⟨_, hplaced.head, rfl, by rw [hspan], by rw [hspan]; exact hfull, ?_⟩
      rw [hspan]
      exact tiles_normalize hinner
    · exact hbelow k hlo hhi
    · exact hbehind k hlo (by lia)

/-- A tree that holds pieces of its source is laid out as they are, from the root on. -/
theorem laid_ofTemplate (file : String) {source : Text} {template : Template}
    (hspan : template.span = some ⟨a, b⟩) (hbody : template.body.Tiles source a b) :
    ∃ n, (ofTemplate file source template).node? root = some n ∧ n.dirty = false ∧
      n.span = some ⟨a, b⟩ ∧ (ofTemplate file source template).Tiles a n.parts b ∧
      ∀ k m, (ofTemplate file source template).node? k = some m → k ≠ root →
        (ofTemplate file source template).Laid k m := by
  obtain ⟨hroot, hplaced⟩ := placed_ofTemplate file source template
  obtain ⟨hinner, hbelow⟩ := tiles_pieces template.body root 1 hplaced hbody
  refine ⟨_, hroot, rfl, hspan, tiles_normalize hinner, fun k m hm hk => ?_⟩
  have hbounds := lt_of_node?_ofTemplate hm
  simp only [root] at hk
  obtain ⟨m', hm', hlaid⟩ := hbelow k (by lia) (by lia)
  rw [hm] at hm'
  cases hm'
  exact hlaid

theorem arranged_ofTemplate (file : String) {source : Text} {template : Template}
    (hspan : template.span = some ⟨a, b⟩) (hbody : template.body.Tiles source a b) :
    (ofTemplate file source template).Arranged := by
  have hwf := wellFormed_ofTemplate file source template
  obtain ⟨n, hn, -, hroot, htiles, hlaid⟩ := laid_ofTemplate file hspan hbody
  refine arranged_of_tiles hwf (fun p c hp => ?_) fun k m hm => ?_
  · obtain ⟨m, hm⟩ := hp.inner_live
    exact (hlaid c m hm fun hc => hwf.not_isParent_root (hc ▸ hp)).filled
  · by_cases hk : k = root
    · subst hk
      obtain rfl := Option.some.inj (hn.symm.trans hm)
      rwa [spanOf_of_span hn hroot]
    · exact (hlaid k m hm hk).tiled

theorem parsed_ofTemplate (file : String) {source : Text} {template : Template}
    (h : template.Tiles source) : (ofTemplate file source template).Parsed := by
  obtain ⟨n, hn, hclean, hspan, htiles, hlaid⟩ := laid_ofTemplate file h.1 h.2
  have hroot := spanOf_of_span hn hspan
  have hcases : ∀ k m, (ofTemplate file source template).node? k = some m →
      (k = root ∧ m = n) ∨ (ofTemplate file source template).Laid k m := by
    intro k m hm
    by_cases hk : k = root
    · subst hk
      exact .inl ⟨rfl, Option.some.inj (hm.symm.trans hn)⟩
    · exact .inr (hlaid k m hm hk)
  constructor
  · exact wellFormed_ofTemplate file source template
  · intro k m hm
    rcases hcases k m hm with ⟨rfl, rfl⟩ | hlaid
    · exact hclean
    · exact hlaid.clean
  · intro k m hm
    rcases hcases k m hm with ⟨rfl, rfl⟩ | hlaid
    · rw [hroot]
      exact hspan
    · exact hlaid.spanned
  · intro k m hm
    rcases hcases k m hm with ⟨rfl, rfl⟩ | hlaid
    · rwa [hroot]
    · exact hlaid.tiled
  · intro k m hm hk
    exact (hlaid k m hm hk).filled
  · exact hroot

end Tree
end LintRepair
