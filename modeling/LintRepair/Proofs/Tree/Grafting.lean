import LintRepair.Proofs.Tree.WellFormed

/-!
# Grafted nodes

A template becomes a block of consecutive slots. `Grown` says that such a block is a well-formed
forest below one parent; it holds of every template, and a whole tree is the case of one root.
-/
namespace LintRepair

theorem Part.tidy_normalize (parts : List Part) : Part.Tidy (Part.normalize parts) := by
  fun_induction normalize parts with
  | case1 => exact ⟨List.not_mem_nil, .nil⟩
  | case2 h rest ih =>
    obtain ⟨hempty, hchain⟩ := ih
    refine ⟨by simpa using hempty, List.isChain_cons.mpr ⟨?_, hchain⟩⟩
    intro q _
    exact .inl rfl
  | case3 t rest _ ih => exact ih
  | case4 t rest ht u more hm ih =>
    rw [hm] at ih
    obtain ⟨hempty, hchain⟩ := ih
    obtain ⟨hhead, htail⟩ := List.isChain_cons.mp hchain
    refine ⟨?_, List.isChain_cons.mpr ⟨hhead, htail⟩⟩
    simp only [List.mem_cons, not_or] at hempty ⊢
    refine ⟨?_, hempty.2⟩
    simp only [Part.text.injEq]
    intro he
    exact ht (by simp [List.append_eq_nil_iff.mp he.symm])
  | case5 t rest ht hm ih =>
    obtain ⟨hempty, hchain⟩ := ih
    refine ⟨?_, List.isChain_cons.mpr ⟨?_, hchain⟩⟩
    · simp only [List.mem_cons, not_or]
      refine ⟨?_, hempty⟩
      simp only [Part.text.injEq]
      intro he
      exact ht (by simp [← he])
    · intro q hq
      cases q with
      | node h => exact .inr rfl
      | text u =>
        obtain ⟨more, hmore⟩ := List.head?_eq_some_iff.mp hq
        exact absurd hmore (hm u more)

namespace Tree

variable {t : Tree} {parent first middle last h : Handle} {inner tops : List Handle}

/-- The nodes stand in the slots from a handle on. -/
def Placed (t : Tree) (first : Handle) (nodes : List Node) : Prop :=
  ∀ (i : Nat) (n : Node), nodes[i]? = some n → t.node? (first + i) = some n

theorem Placed.head {n : Node} {nodes : List Node} (hp : t.Placed first (n :: nodes)) :
    t.node? first = some n := by
  have h0 := hp 0 n rfl
  rwa [Int.natCast_zero, Int.add_zero] at h0

theorem Placed.tail {n : Node} {nodes : List Node} (hp : t.Placed first (n :: nodes)) :
    t.Placed (first + 1) nodes := by
  intro i m hm
  have hi := hp (i + 1) m hm
  have he : first + ((i + 1 : Nat) : Int) = first + 1 + i := by lia
  rwa [he] at hi

theorem Placed.left {ns ms : List Node} (hp : t.Placed first (ns ++ ms)) : t.Placed first ns := by
  intro i n hn
  obtain ⟨hlt, -⟩ := List.getElem?_eq_some_iff.mp hn
  exact hp i n (by rw [List.getElem?_append_left hlt, hn])

theorem Placed.right {ns ms : List Node} (hp : t.Placed first (ns ++ ms)) :
    t.Placed (first + ns.length) ms := by
  intro i n hn
  have hi := hp (ns.length + i) n (by
    rw [List.getElem?_append_right (by lia), Nat.add_sub_cancel_left, hn])
  have he : first + ((ns.length + i : Nat) : Int) = first + ns.length + i := by lia
  rwa [he] at hi

/-- The slots from `first` to `last` hold a forest below `parent` whose roots are `tops`. -/
structure Grown (t : Tree) (parent first last : Handle) (tops : List Handle) : Prop where
  live : ∀ k, first ≤ k → k < last → ∃ n, t.node? k = some n
  home : ∀ k, first ≤ k → k < last → (t.IsParent parent k ∧ k ∈ tops) ∨
    ∃ q n, t.IsParent q k ∧ first ≤ q ∧ q < k ∧ t.node? q = some n ∧ k ∈ Part.handles n.parts
  top : ∀ k ∈ tops, first ≤ k ∧ k < last ∧ t.IsParent parent k
  child : ∀ k n c, first ≤ k → k < last → t.node? k = some n → c ∈ Part.handles n.parts →
    c < last ∧ t.IsParent k c
  tops_nodup : tops.Nodup
  fresh : ∀ k n, first ≤ k → k < last → t.node? k = some n →
    (Part.handles n.parts).Nodup ∧ Part.Tidy n.parts ∧ n.dirty = false

theorem grown_nil (t : Tree) (parent first : Handle) : t.Grown parent first first [] where
  live k hk hlt := absurd hk (by lia)
  home k hk hlt := absurd hk (by lia)
  top k hk := absurd hk List.not_mem_nil
  child k n c hk hlt := absurd hk (by lia)
  tops_nodup := List.nodup_nil
  fresh k n hk hlt := absurd hk (by lia)

theorem Grown.cons {n : Node} (hn : t.node? first = some n) (hparent : n.parent = some parent)
    (hclean : n.dirty = false) (htidy : Part.Tidy n.parts) (hmid : first < middle)
    (hlast : middle ≤ last)
    (hbody : t.Grown first (first + 1) middle (Part.handles n.parts))
    (hrest : t.Grown parent middle last tops) : t.Grown parent first last (first :: tops) := by
  have hsplit : ∀ k, first ≤ k → k = first ∨ (first + 1 ≤ k ∧ k < middle) ∨ middle ≤ k := by
    intro k hk
    lia
  constructor
  · intro k hk hlt
    rcases hsplit k hk with rfl | ⟨hlo, hhi⟩ | hge
    · exact ⟨n, hn⟩
    · exact hbody.live k hlo hhi
    · exact hrest.live k hge hlt
  · intro k hk hlt
    rcases hsplit k hk with rfl | ⟨hlo, hhi⟩ | hge
    · exact .inl ⟨⟨n, hn, hparent⟩, List.mem_cons_self⟩
    · rcases hbody.home k hlo hhi with ⟨hp, htop⟩ | ⟨q, m, hq, hle, hqk, hm, hmem⟩
      · exact .inr ⟨first, n, hp, by lia, by lia, hn, htop⟩
      · exact .inr ⟨q, m, hq, by lia, hqk, hm, hmem⟩
    · rcases hrest.home k hge hlt with ⟨hp, htop⟩ | ⟨q, m, hq, hle, hqk, hm, hmem⟩
      · exact .inl ⟨hp, List.mem_cons_of_mem _ htop⟩
      · exact .inr ⟨q, m, hq, by lia, hqk, hm, hmem⟩
  · intro k hk
    rcases List.mem_cons.mp hk with rfl | hk
    · exact ⟨by lia, by lia, n, hn, hparent⟩
    · obtain ⟨hlo, hhi, hp⟩ := hrest.top k hk
      exact ⟨by lia, hhi, hp⟩
  · intro k m c hk hlt hm hc
    rcases hsplit k hk with rfl | ⟨hlo, hhi⟩ | hge
    · rw [hn] at hm
      cases hm
      obtain ⟨hlo, hhi, hp⟩ := hbody.top c hc
      exact ⟨by lia, hp⟩
    · obtain ⟨hhi, hp⟩ := hbody.child k m c hlo hhi hm hc
      exact ⟨by lia, hp⟩
    · exact hrest.child k m c hge hlt hm hc
  · rw [List.nodup_cons]
    refine ⟨?_, hrest.tops_nodup⟩
    intro hmem
    have := (hrest.top first hmem).1
    lia
  · intro k m hk hlt hm
    rcases hsplit k hk with rfl | ⟨hlo, hhi⟩ | hge
    · rw [hn] at hm
      cases hm
      exact ⟨hbody.tops_nodup, htidy, hclean⟩
    · exact hbody.fresh k m hlo hhi hm
    · exact hrest.fresh k m hge hlt hm

theorem grown_pieces (p : Pieces) (parent : Handle) (next : Nat)
    (hplaced : t.Placed next (p.arena parent next).2) :
    t.Grown parent next (next + p.count) (Part.handles (p.arena parent next).1) := by
  induction p generalizing parent next with
  | nil =>
    rw [Pieces.count, Int.natCast_zero, Int.add_zero]
    exact grown_nil t parent next
  | text s rest ih => exact ih parent next hplaced
  | node kind span origin body rest ihb ihr =>
    simp only [Pieces.arena] at hplaced ⊢
    have hmid : ((next + 1 + body.count : Nat) : Int) = ((next + 1 : Nat) : Int) + body.count := by
      lia
    have hlast : (next : Int) + ((Pieces.node kind span origin body rest).count : Nat) =
        ((next + 1 + body.count : Nat) : Int) + rest.count := by
      simp only [Pieces.count]
      lia
    have hbody := ihb next (next + 1) hplaced.tail.left
    have hlater := hplaced.tail.right
    rw [Pieces.length_arena] at hlater ⊢
    have hrest := ihr parent (next + 1 + body.count) (by rw [hmid]; exact hlater)
    rw [← hmid, ← Part.handles_normalize] at hbody
    rw [Part.handles_cons_node, hlast]
    exact Grown.cons hplaced.head rfl rfl (Part.tidy_normalize _) (by lia) (by lia) hbody hrest

/-- What a template becomes below a node is a forest with one root. -/
theorem grown_template (template : Template) (parent : Handle) (next : Nat)
    (hplaced : t.Placed next (template.arena (some parent) next)) :
    t.Grown parent next (next + template.count) [(next : Handle)] := by
  have hone := grown_pieces (template.consPieces .nil) parent next (by
    simpa [Template.consPieces, Pieces.arena, Template.arena] using hplaced)
  simpa [Template.consPieces, Pieces.arena, Template.count, Pieces.count, Part.handles,
    Part.handle?] using hone

theorem Grown.covers (hgrown : t.Grown parent first last [first]) (hle : first ≤ h)
    (hlt : h < last) : t.Covers first h := by
  obtain ⟨i, rfl⟩ : ∃ i : Nat, h = first + i := ⟨(h - first).toNat, by lia⟩
  induction i using Nat.strong_induction_on with
  | _ i ih =>
    rcases hgrown.home _ hle hlt with ⟨-, htop⟩ | ⟨q, -, hq, hfirst, hqh, -⟩
    · exact .inl (List.mem_singleton.mp htop)
    · obtain ⟨k, rfl⟩ : ∃ k : Nat, q = first + k := ⟨(q - first).toNat, by lia⟩
      exact ((ih k (by lia) hfirst (by lia)).encloses_of_isParent hq).covers

section Root

variable {n : Node} (hroot : t.node? root = some n)
  (hlive : ∀ k m, t.node? k = some m → 0 ≤ k ∧ k < last)
include hroot hlive

private theorem root_or_grown {m : Node} (hm : t.node? h = some m) :
    (h = root ∧ m = n) ∨ (1 ≤ h ∧ h < last) := by
  by_cases hh : h = root
  · subst hh
    rw [hroot] at hm
    exact .inl ⟨rfl, (Option.some.inj hm).symm⟩
  · have := hlive h m hm
    simp only [root] at hh
    exact .inr ⟨by lia, this.2⟩

variable (hparent : n.parent = none) (hbody : t.Grown root 1 last (Part.handles n.parts))
include hparent hbody

private theorem home_of_isParent (hp : t.IsParent parent h) : 1 ≤ h ∧ h < last ∧ 0 ≤ parent ∧
    parent < h ∧ ∃ m, t.node? parent = some m ∧ h ∈ Part.handles m.parts := by
  obtain ⟨m, hm, hmp⟩ := hp
  rcases root_or_grown hroot hlive hm with ⟨rfl, rfl⟩ | ⟨hlo, hhi⟩
  · rw [hparent] at hmp
    cases hmp
  · refine ⟨hlo, hhi, ?_⟩
    rcases hbody.home h hlo hhi with ⟨hq, htop⟩ | ⟨q, k, hq, hle, hqh, hk, hmem⟩
    · rw [IsParent.unique ⟨m, hm, hmp⟩ hq]
      refine ⟨by simp [root], by simp only [root]; lia, n, hroot, htop⟩
    · rw [IsParent.unique ⟨m, hm, hmp⟩ hq]
      exact ⟨by lia, hqh, k, hk, hmem⟩

/-- A root with a forest below it, and nothing else, is a well-formed tree. -/
theorem wellFormed_of_grown (htidy : Part.Tidy n.parts) : t.WellFormed := by
  have hcases : ∀ k m, t.node? k = some m → (k = root ∧ m = n) ∨ (1 ≤ k ∧ k < last) :=
    fun k m hm => root_or_grown hroot hlive hm
  have hhome : ∀ p k, t.IsParent p k → 1 ≤ k ∧ k < last ∧ 0 ≤ p ∧ p < k ∧
      ∃ m, t.node? p = some m ∧ k ∈ Part.handles m.parts :=
    fun p k hp => home_of_isParent hroot hlive hparent hbody hp
  constructor
  · exact ⟨n, hroot⟩
  · intro k m hm
    rcases hcases k m hm with ⟨rfl, rfl⟩ | ⟨hlo, hhi⟩
    · simp [hparent]
    · have hsome : ∃ p, t.IsParent p k := by
        rcases hbody.home k hlo hhi with ⟨hq, -⟩ | ⟨q, -, hq, -⟩
        · exact ⟨_, hq⟩
        · exact ⟨q, hq⟩
      obtain ⟨p, m', hm', hp⟩ := hsome
      rw [hm] at hm'
      cases hm'
      simp only [hp, root, reduceCtorEq, false_iff]
      lia
  · intro p k hp
    obtain ⟨-, -, hpos, hlt, -⟩ := hhome p k hp
    exact ⟨hpos, hlt⟩
  · intro p k hp
    exact (hhome p k hp).2.2.2.2
  · intro p m c hm hc
    rcases hcases p m hm with ⟨rfl, rfl⟩ | ⟨hlo, hhi⟩
    · exact (hbody.top c hc).2.2
    · exact (hbody.child p m c hlo hhi hm hc).2
  · intro p m hm
    rcases hcases p m hm with ⟨rfl, rfl⟩ | ⟨hlo, hhi⟩
    · exact hbody.tops_nodup
    · exact (hbody.fresh p m hlo hhi hm).1
  · intro p m hm
    rcases hcases p m hm with ⟨rfl, rfl⟩ | ⟨hlo, hhi⟩
    · exact htidy
    · exact (hbody.fresh p m hlo hhi hm).2.1
  · intro p k m m' hm hp _ hd
    obtain ⟨hlo, hhi, -⟩ := hhome p k ⟨m, hm, hp⟩
    rw [(hbody.fresh k m hlo hhi hm).2.2] at hd
    cases hd

end Root

section Fresh

variable (file : String) (source : Text) (template : Template)

theorem placed_ofTemplate :
    (ofTemplate file source template).node? root = some ⟨template.kind, none,
      Part.normalize (template.body.arena root 1).1, template.span, template.origin, false⟩ ∧
    (ofTemplate file source template).Placed ((1 : Nat) : Int) (template.body.arena root 1).2 := by
  have hplaced : (ofTemplate file source template).Placed ((0 : Nat) : Int)
      (template.arena none 0) := by
    intro i n hn
    rw [Int.natCast_zero, Int.zero_add, node?_ofTemplate, hn]
  simp only [Template.arena, Nat.zero_add] at hplaced
  exact ⟨hplaced.head, hplaced.tail⟩

variable {file source template} in
theorem lt_of_node?_ofTemplate {k : Handle} {n : Node}
    (hn : (ofTemplate file source template).node? k = some n) :
    0 ≤ k ∧ k < ((1 : Nat) : Int) + template.body.count := by
  have := lt_nextHandle_of_node? hn
  rw [nextHandle_ofTemplate, Template.count] at this
  lia

theorem wellFormed_ofTemplate : (ofTemplate file source template).WellFormed := by
  obtain ⟨hroot, hplaced⟩ := placed_ofTemplate file source template
  have hbody := grown_pieces template.body root 1 hplaced
  rw [← Part.handles_normalize] at hbody
  exact wellFormed_of_grown hroot (fun k n hn => lt_of_node?_ofTemplate hn) rfl hbody
    (Part.tidy_normalize _)

end Fresh

end Tree
end LintRepair
