import LintRepair.Proofs.Text.Units
import LintRepair.Proofs.Tree.Grafting
import LintRepair.Syntax.Document

/-!
# The tree of a source file

A source file becomes a tree that mirrors its syntax tree. Not every node of the syntax tree has one in
the tree, but a node that is left out is left out with everything inside it: the parent of a node stands
for the node around its place, and no two nodes stand for one place.
-/
namespace LintRepair

open Syntax

namespace Syntax

/-- What a node takes of the text; a file takes the trivia before its first node too. -/
def Ast.extent (a : Ast) : Span := ⟨if a.kind = .sourceFile then 0 else a.start, a.stop⟩

theorem Ast.descend?_append (a : Ast) (is js : List Nat) :
    a.descend? (is ++ js) = (a.descend? is).bind (·.descend? js) := by
  induction is generalizing a with
  | nil => rfl
  | cons i rest ih =>
    rw [List.cons_append, Ast.descend?, Ast.descend?]
    cases a.children[i]? with
    | none => rfl
    | some c => exact ih c

theorem Ast.at?_nil (a : Ast) : a.at? [] = some a := rfl

theorem Ast.at?_cons (a : Ast) (i : Nat) (place : Place) :
    a.at? (i :: place) = (a.at? place).bind (·.children[i]?) := by
  rw [Ast.at?, List.reverse_cons, Ast.descend?_append, Ast.at?]
  refine congrArg _ (funext fun b => ?_)
  rw [Ast.descend?]
  cases b.children[i]? <;> rfl

end Syntax

/-- The places that the nodes of some pieces were parsed from, each node before those below it. -/
def Pieces.origins : Pieces → List (Option Place)
  | nil => []
  | text _ rest => rest.origins
  | node _ _ origin body rest => origin :: (body.origins ++ rest.origins)

def Template.origins (template : Template) : List (Option Place) :=
  template.origin :: template.body.origins

/-- The pieces stand for nodes of a syntax tree right below a place. -/
def Pieces.Mirrors (ast : Ast) : Place → Pieces → Prop
  | _, nil => True
  | outer, text _ rest => Mirrors ast outer rest
  | outer, node kind span origin body rest => ∃ i a, origin = some (i :: outer) ∧
      ast.at? (i :: outer) = some a ∧ kind = a.kind.name ∧ span = some a.extent ∧
      Mirrors ast (i :: outer) body ∧ Mirrors ast outer rest

/-- The template stands for the node of a syntax tree at a place. -/
structure Template.Mirrors (template : Template) (ast : Ast) (place : Place) (a : Ast) : Prop where
  at_place : ast.at? place = some a
  kind : template.kind = a.kind.name
  span : template.span = some a.extent
  origin : template.origin = some place
  body : template.body.Mirrors ast place

namespace Syntax

variable {text : Source} {ast : Ast} {outer : Place} {stop : Nat}

theorem mirrors_assemble {xs : List (Span × Template)}
    (h : ∀ x ∈ xs, ∃ i a, x.2.Mirrors ast (i :: outer) a) (cursor : Nat) :
    (assemble text stop xs cursor).Mirrors ast outer := by
  induction xs generalizing cursor with
  | nil =>
    rw [assemble]
    split
    · trivial
    · trivial
  | cons x rest ih =>
    obtain ⟨hx, hrest⟩ := List.forall_mem_cons.mp h
    obtain ⟨i, a, hplace, hkind, hspan, horigin, hbody⟩ := hx
    have hnode : ∀ cursor, Pieces.Mirrors ast outer
        (x.2.consPieces (assemble text stop rest cursor)) := fun cursor =>
      ⟨i, a, horigin, hplace, hkind, hspan, hbody, ih hrest cursor⟩
    rw [assemble]
    split
    · exact ih hrest cursor
    dsimp only
    split
    · exact hnode _
    · exact hnode _

theorem sublist_origins_assemble (xs : List (Span × Template)) (cursor : Nat) :
    (assemble text stop xs cursor).origins.Sublist (xs.flatMap (·.2.origins)) := by
  induction xs generalizing cursor with
  | nil =>
    rw [assemble]
    split
    · exact .slnil
    · exact .slnil
  | cons x rest ih =>
    have hnode : ∀ cursor, (x.2.consPieces (assemble text stop rest cursor)).origins.Sublist
        ((x :: rest).flatMap (·.2.origins)) := fun cursor =>
      ((ih cursor).append_left x.2.body.origins).cons_cons x.2.origin
    rw [assemble]
    split
    · exact (ih cursor).trans (List.sublist_append_right ..)
    dsimp only
    split
    · exact hnode _
    · exact hnode _

mutual

theorem mirrors_templateOf (text : Source) {ast : Ast} {place : Place} (a : Ast)
    (h : ast.at? place = some a) : (templateOf text true place a).Mirrors ast place a := by
  match a with
  | .node info children =>
    rw [templateOf]
    refine ⟨h, rfl, rfl, rfl, mirrors_assemble (fun x hx => ?_) _⟩
    refine mirrors_go text children 0 (fun k c hc => ?_) x (List.mem_mergeSort.mp hx)
    rw [Nat.zero_add, Ast.at?_cons, h]
    exact hc

theorem mirrors_go (text : Source) {ast : Ast} {place : Place} (cs : List Ast) (index : Nat)
    (h : ∀ k c, cs[k]? = some c → ast.at? ((index + k) :: place) = some c) :
    ∀ x ∈ templateOf.go text true place cs index, ∃ i a, x.2.Mirrors ast (i :: place) a := by
  match cs with
  | [] =>
    rw [templateOf.go]
    exact fun x hx => absurd hx List.not_mem_nil
  | c :: rest =>
    rw [templateOf.go]
    refine List.forall_mem_cons.mpr ⟨⟨index, c, mirrors_templateOf text c (h 0 c rfl)⟩, ?_⟩
    refine mirrors_go text rest (index + 1) fun k d hd => ?_
    rw [Nat.add_right_comm]
    exact h (k + 1) d hd

end

mutual

theorem origins_templateOf (text : Source) (place : Place) (a : Ast) :
    (templateOf text true place a).origins.Nodup ∧
      ∀ o ∈ (templateOf text true place a).origins, ∃ inner, o = some (inner ++ place) := by
  match a with
  | .node info children =>
    obtain ⟨hnodup, hbelow⟩ := origins_go text place children 0
    rw [templateOf]
    generalize templateOf.go text true place children 0 = xs at hnodup hbelow
    have hperm := (List.mergeSort_perm xs fun x y => x.1.start ≤ y.1.start).flatMap_right
      fun x => x.2.origins
    have hsub : ∀ cursor, ((assemble text info.stop
        (xs.mergeSort fun x y => x.1.start ≤ y.1.start) cursor).origins).Sublist _ :=
      sublist_origins_assemble _
    refine ⟨List.nodup_cons.mpr ⟨fun hmem => ?_, (hperm.symm.nodup hnodup).sublist (hsub _)⟩, ?_⟩
    · obtain ⟨inner, i, -, heq⟩ := hbelow _ (hperm.subset ((hsub _).subset hmem))
      have hlength := congrArg List.length (Option.some.inj heq)
      rw [List.length_append, List.length_cons] at hlength
      lia
    · refine List.forall_mem_cons.mpr ⟨⟨[], rfl⟩, fun o ho => ?_⟩
      obtain ⟨inner, i, -, rfl⟩ := hbelow o (hperm.subset ((hsub _).subset ho))
      exact ⟨inner ++ [i], by rw [List.append_assoc]; rfl⟩

theorem origins_go (text : Source) (place : Place) (cs : List Ast) (index : Nat) :
    ((templateOf.go text true place cs index).flatMap (·.2.origins)).Nodup ∧
      ∀ o ∈ (templateOf.go text true place cs index).flatMap (·.2.origins),
        ∃ inner i, index ≤ i ∧ o = some (inner ++ i :: place) := by
  match cs with
  | [] =>
    rw [templateOf.go]
    exact ⟨List.nodup_nil, fun o ho => absurd ho List.not_mem_nil⟩
  | c :: rest =>
    obtain ⟨hnodup, hinside⟩ := origins_templateOf text (index :: place) c
    obtain ⟨hnodup', hlater⟩ := origins_go text place rest (index + 1)
    rw [templateOf.go, List.flatMap_cons]
    refine ⟨List.nodup_append.mpr ⟨hnodup, hnodup', fun o ho o' ho' heq => ?_⟩, fun o ho => ?_⟩
    · obtain ⟨inner, rfl⟩ := hinside o ho
      obtain ⟨inner', i, hi, rfl⟩ := hlater o' ho'
      -- Both places go through a child of the same node, but not through the same child.
      have hsame : (inner ++ [index]) ++ place = (inner' ++ [i]) ++ place := by
        rw [List.append_assoc, List.append_assoc]
        exact Option.some.inj heq
      have hlast := List.append_inj_right' (List.append_cancel_right hsame) rfl
      have := List.head_eq_of_cons_eq hlast
      lia
    · rcases List.mem_append.mp ho with ho | ho
      · obtain ⟨inner, rfl⟩ := hinside o ho
        exact ⟨inner, index, Nat.le_refl index, rfl⟩
      · obtain ⟨inner, i, hi, rfl⟩ := hlater o ho
        exact ⟨inner, i, Nat.le_of_succ_le hi, rfl⟩

end

end Syntax

namespace Tree

variable {t : Tree} {ast : Ast} {h p x : Handle} {n m : Node} {place outer : Place}

/-- Every node of the tree stands for a node of the syntax tree, its parent for the node around it, and
no two nodes stand for the same one. -/
structure Mirrors (t : Tree) (ast : Ast) : Prop where
  stands : ∀ h n, t.node? h = some n → ∃ place a, n.origin = some place ∧ ast.at? place = some a ∧
    n.kind = a.kind.name ∧ n.span = some a.extent
  root_origin : ∀ n, t.node? root = some n → n.origin = some []
  around : ∀ p h n, t.IsParent p h → t.node? h = some n → ∃ m i outer, t.node? p = some m ∧
    m.origin = some outer ∧ n.origin = some (i :: outer)
  injective : ∀ h x n m, t.node? h = some n → t.node? x = some m → n.origin = m.origin → h = x

theorem map_origin_arena (pieces : Pieces) (parent : Handle) (next : Nat) :
    (pieces.arena parent next).2.map (·.origin) = pieces.origins := by
  induction pieces generalizing parent next with
  | nil => rfl
  | text s rest ih => exact ih parent next
  | node kind span origin body rest ihBody ihRest =>
    simp only [Pieces.arena, Pieces.origins, List.cons_append, List.map_cons, List.map_append, ihBody,
      ihRest]

/-- Pieces that stand for nodes below a place become nodes that do. -/
theorem mirrors_pieces (pieces : Pieces) (parent : Handle) (next : Nat)
    (hplaced : t.Placed next (pieces.arena parent next).2) (hmirrors : pieces.Mirrors ast outer)
    (hparent : ∃ m, t.node? parent = some m ∧ m.origin = some outer) :
    ∀ k : Handle, next ≤ k → k < next + pieces.count → ∃ n i outer a, t.node? k = some n ∧
      n.origin = some (i :: outer) ∧ ast.at? (i :: outer) = some a ∧ n.kind = a.kind.name ∧
      n.span = some a.extent ∧
      ∃ q m, n.parent = some q ∧ t.node? q = some m ∧ m.origin = some outer := by
  induction pieces generalizing parent next outer with
  | nil => exact fun k hle hlt => absurd hlt (by simp only [Pieces.count]; lia)
  | text s rest ih => exact ih parent next hplaced hmirrors hparent
  | node kind span origin body rest ihBody ihRest =>
    obtain ⟨i, a, rfl, hplace, hkind, hspan, hbody, hrest⟩ := hmirrors
    simp only [Pieces.arena] at hplaced
    have hlater := hplaced.tail.right
    rw [Pieces.length_arena] at hlater
    have hmid : ((next + 1 + body.count : Nat) : Int) = ((next : Nat) : Int) + 1 + body.count := by
      lia
    intro k hle hlt
    simp only [Pieces.count] at hlt
    rcases (by lia : k = next ∨ (next + 1 : Nat) ≤ k ∧ k < (next + 1 : Nat) + body.count ∨
      (next + 1 + body.count : Nat) ≤ k) with rfl | ⟨hlo, hhi⟩ | hlo
    · obtain ⟨m, hm, hmouter⟩ := hparent
      exact ⟨_, i, outer, a, hplaced.head, rfl, hplace, hkind, hspan, parent, m, rfl, hm, hmouter⟩
    · exact ihBody next (next + 1) hplaced.tail.left hbody ⟨_, hplaced.head, rfl⟩ k hlo hhi
    · exact ihRest parent (next + 1 + body.count) (by rw [hmid]; exact hlater) hrest hparent k hlo
        (by lia)

section Fresh

variable {file : String} {source : Text} {template : Template}

theorem mirrors_below_ofTemplate (h : template.body.Mirrors ast [])
    (horigin : template.origin = some [])
    (hn : (ofTemplate file source template).node? x = some n) (hx : x ≠ root) :
    ∃ i outer a, n.origin = some (i :: outer) ∧ ast.at? (i :: outer) = some a ∧
      n.kind = a.kind.name ∧ n.span = some a.extent ∧ ∃ q m, n.parent = some q ∧
        (ofTemplate file source template).node? q = some m ∧ m.origin = some outer := by
  obtain ⟨hroot, hplaced⟩ := placed_ofTemplate file source template
  have hbounds := lt_of_node?_ofTemplate hn
  simp only [root] at hx
  obtain ⟨m, i, outer, a, hm, hrest⟩ :=
    mirrors_pieces template.body root 1 hplaced h ⟨_, hroot, horigin⟩ x (by lia) hbounds.2
  rw [hn] at hm
  cases hm
  exact ⟨i, outer, a, hrest⟩

theorem eq_of_origin_ofTemplate (hnodup : template.origins.Nodup)
    (hn : (ofTemplate file source template).node? h = some n)
    (hm : (ofTemplate file source template).node? x = some m) (heq : n.origin = m.origin) :
    h = x := by
  have horigins : (template.arena none 0).map (·.origin) = template.origins := by
    rw [Template.arena, List.map_cons, map_origin_arena]
    rfl
  obtain ⟨hh, hhn⟩ := getElem?_arena_of_node? hn
  obtain ⟨hx, hxm⟩ := getElem?_arena_of_node? hm
  have hh' := congrArg (Option.map (·.origin)) hhn
  have hx' := congrArg (Option.map (·.origin)) hxm
  rw [← List.getElem?_map, horigins] at hh' hx'
  have hlt : h.toNat < template.origins.length := (List.getElem?_eq_some_iff.mp hh').1
  have hsame := (List.getElem?_inj hlt hnodup).mp (hh'.trans ((congrArg some heq).trans hx'.symm))
  lia

theorem mirrors_ofTemplate (file : String) (source : Text) {template : Template}
    (h : template.Mirrors ast [] ast) (hnodup : template.origins.Nodup) :
    (ofTemplate file source template).Mirrors ast := by
  obtain ⟨hroot, -⟩ := placed_ofTemplate file source template
  constructor
  case stands =>
    intro k n hn
    by_cases hk : k = root
    · subst hk
      obtain rfl := Option.some.inj (hroot.symm.trans hn)
      exact ⟨[], ast, h.origin, h.at_place, h.kind, h.span⟩
    · obtain ⟨i, outer, a, horigin, hplace, hkind, hspan, -⟩ :=
        mirrors_below_ofTemplate h.body h.origin hn hk
      exact ⟨i :: outer, a, horigin, hplace, hkind, hspan⟩
  case root_origin =>
    intro n hn
    rw [Option.some.inj (hn.symm.trans hroot)]
    exact h.origin
  case around =>
    rintro q k n ⟨n', hn', hq⟩ hn
    obtain rfl := Option.some.inj (hn.symm.trans hn')
    have hk : k ≠ root := by
      rintro rfl
      rw [Option.some.inj (hn.symm.trans hroot)] at hq
      cases hq
    obtain ⟨i, outer, a, horigin, -, -, -, q', m, hq', hm, houter⟩ :=
      mirrors_below_ofTemplate h.body h.origin hn hk
    rw [hq] at hq'
    cases hq'
    exact ⟨m, i, outer, hm, houter, horigin⟩
  case injective => exact fun _ _ _ _ hn hm heq => eq_of_origin_ofTemplate hnodup hn hm heq

end Fresh

theorem origin_of_handleAt? (hx : t.handleAt? place = some x) :
    ∃ m, t.node? x = some m ∧ m.origin = some place := by
  obtain ⟨k, hk, rfl⟩ := Option.map_eq_some_iff.mp hx
  obtain ⟨hlt, hslot, -⟩ := List.findIdx?_eq_some_iff_getElem.mp hk
  split at hslot
  · next m hm =>
    refine ⟨m, ?_, of_decide_eq_true hslot⟩
    refine (node?_of_nonneg (Int.natCast_nonneg k)).trans ?_
    have hget := List.getElem?_eq_getElem hlt
    rw [hm, Array.getElem?_toList] at hget
    exact congrArg Option.join hget
  · cases hslot

theorem Mirrors.covers (hm : t.Mirrors ast) (ht : t.WellFormed) (hn : t.node? h = some n)
    (hplace : n.origin = some place) (inner : List Nat) {x : Handle} {m : Node}
    (hx : t.node? x = some m) (hinner : m.origin = some (inner ++ place)) : t.Covers h x := by
  induction inner generalizing x m with
  | nil => exact .inl (hm.injective x h m n hx hn (hinner.trans hplace.symm))
  | cons i inner ih =>
    have hroot : x ≠ root := by
      rintro rfl
      rw [hm.root_origin m hx] at hinner
      cases hinner
    obtain ⟨p, -, hp⟩ := ht.exists_parent hx hroot
    obtain ⟨l, j, outer, hl, houter, horigin⟩ := hm.around p x m hp hx
    rw [hinner] at horigin
    obtain ⟨-, rfl⟩ := List.cons.inj (Option.some.inj horigin)
    exact ((ih hl houter).encloses_of_isParent hp).covers

end Tree

namespace Syntax

mutual

/-- The children of the node, and of every node inside, are listed in the order of their starts. -/
def Ast.ordered : Ast → Bool
  | .node _ children =>
    decide (children.Pairwise fun a b => a.start ≤ b.start) && Ast.orderedAll children

def Ast.orderedAll : List Ast → Bool
  | [] => true
  | a :: rest => a.ordered && Ast.orderedAll rest

end

/-- The template of a node with the children as they are listed. -/
def templateAsListed (text : Source) (place : Place) (a : Ast) : Template :=
  match a with
  | .node i children =>
    let start := if i.kind = .sourceFile then 0 else i.start
    { kind := i.kind.name
      span := some ⟨start, i.stop⟩
      origin := some place
      body := assemble text i.stop (go place children 0) start }
where
  /-- The templates of the children from the given index on, with their extents. -/
  go (place : Place) : List Ast → Nat → List (Span × Template)
    | [], _ => []
    | c :: rest, index =>
      (⟨c.start, c.stop⟩, templateAsListed text (index :: place) c) :: go place rest (index + 1)

theorem mergeSort_go {text : Source} {place : Place} {cs : List Ast}
    (h : cs.Pairwise fun a b => a.start ≤ b.start) (index : Nat) :
    (templateOf.go text true place cs index).mergeSort (fun x y => x.1.start ≤ y.1.start) =
      templateOf.go text true place cs index := by
  have hspans : (templateOf.go text true place cs index).map Prod.fst =
      cs.map fun c => ⟨c.start, c.stop⟩ := by
    clear h
    induction cs generalizing index with
    | nil => rfl
    | cons c rest ih => rw [templateOf.go, List.map_cons, List.map_cons, ih]
  have hsorted : ((templateOf.go text true place cs index).map Prod.fst).Pairwise
      fun a b => a.start ≤ b.start := by
    rw [hspans]
    exact List.pairwise_map.mpr h
  exact List.mergeSort_of_pairwise
    ((List.pairwise_map.mp hsorted).imp fun hle => decide_eq_true hle)

mutual

theorem templateOf_of_ordered (text : Source) (place : Place) (a : Ast) (h : a.ordered = true) :
    templateOf text true place a = templateAsListed text place a := by
  match a with
  | .node info children =>
    rw [Ast.ordered, Bool.and_eq_true, decide_eq_true_eq] at h
    rw [templateOf, templateAsListed, mergeSort_go h.1, go_of_ordered text place children 0 h.2]
    rfl

theorem go_of_ordered (text : Source) (place : Place) (cs : List Ast) (index : Nat)
    (h : Ast.orderedAll cs = true) :
    templateOf.go text true place cs index = templateAsListed.go text place cs index := by
  match cs with
  | [] => rfl
  | c :: rest =>
    rw [Ast.orderedAll, Bool.and_eq_true] at h
    rw [templateOf.go, templateAsListed.go, templateOf_of_ordered text _ c h.1,
      go_of_ordered text place rest _ h.2]

end

/-- A file without complaints whose children are listed in order can be read without sorting. -/
theorem parse_of_ordered {text : Text} {path : String} {dialect : Dialect}
    (hdialect : Dialect.ofPath path = dialect) (hplain : withoutMark text = text)
    (herrors : (SourceFile.read dialect (.ofText text)).errors = [])
    (hordered : (SourceFile.read dialect (.ofText text)).ast.ordered = true) :
    parse text path = .ok (templateAsListed (.ofText text) []
      (SourceFile.read dialect (.ofText text)).ast, SourceFile.read dialect (.ofText text)) := by
  rw [← templateOf_of_ordered _ _ _ hordered]
  unfold parse
  dsimp only
  rw [hdialect, hplain, herrors]

theorem components_typed : Path.components "a.ts" = ["a.ts"] := by
  rw [Path.components_eq]
  decide

theorem ofPath_typed : Dialect.ofPath "a.ts" = {} := by
  simp only [Dialect.ofPath, Path.suffix, Path.basename, components_typed]
  decide +kernel

theorem ofPath_snippet : Dialect.ofPath ("snippet" ++ snippetExtension "a.ts") = {} := by
  have hextension : snippetExtension "a.ts" = ".ts" := by
    simp only [snippetExtension, Path.extension, Path.basename, components_typed]
    decide +kernel
  have hname : "snippet" ++ ".ts" = "snippet.ts" := by decide
  rw [hextension, hname]
  simp only [Dialect.ofPath, Path.suffix, Path.basename, Path.components_eq]
  decide +kernel

/-- The tree of a file that could be read mirrors its syntax tree. -/
theorem mirrors_of_parse {text : Text} {path : String} {template : Template} {f : SourceFile}
    (h : parse text path = .ok (template, f)) :
    (Tree.ofTemplate path text template).Mirrors f.ast := by
  unfold parse at h
  dsimp only at h
  split at h
  · cases h
    exact Tree.mirrors_ofTemplate path text (mirrors_templateOf _ _ (Ast.at?_nil _))
      (origins_templateOf _ [] _).1
  · cases h

end Syntax
end LintRepair
