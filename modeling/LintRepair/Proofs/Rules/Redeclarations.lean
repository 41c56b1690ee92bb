import LintRepair.Proofs.Rules.Declarations

/-!
# When a scope binds a name twice

A name counts twice in a scope exactly if two names in it bind it at different places
(`one_lt_count_namesIn_iff`). That holds of every kind of scope, so it tells both what the repair of a var
statement counts and what the language lets collide.
-/
namespace LintRepair.Rules

open Syntax

variable {f : SourceFile} {a : Ast} {name : String} {bounds : Ast → Bool} {p q : Placed}
  {place site : Place}

/-! ## Places of the nodes below -/

section Descendants

variable {hides : Ast → Bool}

mutual

theorem exists_suffix_of_mem_descendants (a : Ast) (place : Place)
    (hp : p ∈ a.descendants hides place) : ∃ j, (j :: place) <:+ p.place := by
  match a with
  | .node _ children =>
    rw [Ast.descendants] at hp
    obtain ⟨j, -, hj⟩ := exists_suffix_of_mem_go children place 0 hp
    exact ⟨j, hj⟩

theorem exists_suffix_of_mem_go (cs : List Ast) (place : Place) (index : Nat)
    (hp : p ∈ Ast.descendants.go hides place cs index) :
    ∃ j, index ≤ j ∧ (j :: place) <:+ p.place := by
  match cs with
  | [] => cases hp
  | c :: rest =>
    rw [Ast.descendants.go] at hp
    rcases List.mem_append.mp hp with hp | hp
    · rcases List.mem_cons.mp hp with rfl | hp
      · exact ⟨index, Nat.le_refl _, List.suffix_rfl⟩
      · split at hp
        · cases hp
        · obtain ⟨j, hj⟩ := exists_suffix_of_mem_descendants c (index :: place) hp
          exact ⟨index, Nat.le_refl _, (List.suffix_cons j _).trans hj⟩
    · obtain ⟨j, hle, hj⟩ := exists_suffix_of_mem_go rest place (index + 1) hp
      exact ⟨j, by lia, hj⟩

end

theorem suffix_unique {s t l : Place} (hs : s <:+ l) (ht : t <:+ l) (hlength : s.length = t.length) :
    s = t :=
  (List.suffix_of_suffix_length_le hs ht (Nat.le_of_eq hlength)).eq_of_length hlength

mutual

theorem nodup_descendants (a : Ast) (place : Place) :
    ((a.descendants hides place).map Placed.place).Nodup := by
  match a with
  | .node _ children =>
    rw [Ast.descendants]
    exact nodup_descendants_go children place 0

theorem nodup_descendants_go (cs : List Ast) (place : Place) (index : Nat) :
    ((Ast.descendants.go hides place cs index).map Placed.place).Nodup := by
  match cs with
  | [] => exact List.nodup_nil
  | c :: rest =>
    have hbelow : ∀ p ∈ (if hides c then [] else c.descendants hides (index :: place)),
        ∃ j, (j :: index :: place) <:+ p.place := by
      intro p hp
      split at hp
      · cases hp
      · exact exists_suffix_of_mem_descendants c _ hp
    have hinner : ((if hides c then [] else c.descendants hides (index :: place)).map
        Placed.place).Nodup := by
      split
      · exact List.nodup_nil
      · exact nodup_descendants c _
    rw [Ast.descendants.go, List.map_append, List.map_cons]
    refine List.nodup_append.mpr ⟨List.nodup_cons.mpr ⟨fun hmem => ?_, hinner⟩,
      nodup_descendants_go rest place (index + 1), fun s hs t ht heq => ?_⟩
    · obtain ⟨p, hp, hplace⟩ := List.mem_map.mp hmem
      obtain ⟨j, hj⟩ := hbelow p hp
      have hlength := hj.length_le
      rw [hplace] at hlength
      simp only [List.length_cons] at hlength
      lia
    · subst heq
      obtain ⟨q, hq, rfl⟩ := List.mem_map.mp ht
      obtain ⟨j, hle, hj⟩ := exists_suffix_of_mem_go rest place (index + 1) hq
      have hhere : (index :: place) <:+ q.place := by
        rcases List.mem_cons.mp hs with hs | hs
        · exact hs ▸ List.suffix_rfl
        · obtain ⟨p, hp, hplace⟩ := List.mem_map.mp hs
          obtain ⟨k, hk⟩ := hbelow p hp
          rw [← hplace]
          exact (List.suffix_cons k _).trans hk
      have hsame := suffix_unique hhere hj rfl
      cases hsame
      lia

end

theorem nodup_of_nodup_places {l : List Placed} (h : (l.map Placed.place).Nodup) : l.Nodup :=
  List.Nodup.of_map _ h

end Descendants

section Scopes

variable {scope : Placed}

mutual

theorem enclosing_of_mem_descendants (a : Ast) (place : Place) (hat : f.ast.at? place = some a)
    (hscope : ∀ i, enclosing bounds f (i :: place) = scope) (hp : p ∈ a.descendants bounds place) :
    enclosing bounds f p.place = scope := by
  match a with
  | .node i children =>
    rw [Ast.descendants] at hp
    refine enclosing_of_mem_go children place 0 (fun k c hc => ?_) hscope hp
    rw [Nat.zero_add, Ast.at?_cons, hat]
    exact hc

theorem enclosing_of_mem_go (cs : List Ast) (place : Place) (index : Nat)
    (hcs : ∀ k c, cs[k]? = some c → f.ast.at? ((index + k) :: place) = some c)
    (hscope : ∀ i, enclosing bounds f (i :: place) = scope)
    (hp : p ∈ Ast.descendants.go bounds place cs index) : enclosing bounds f p.place = scope := by
  match cs with
  | [] => cases hp
  | c :: rest =>
    have hc : f.ast.at? (index :: place) = some c := hcs 0 c rfl
    rw [Ast.descendants.go] at hp
    rcases List.mem_append.mp hp with hp | hp
    · rcases List.mem_cons.mp hp with rfl | hp
      · exact hscope index
      · split at hp
        · cases hp
        · next hopen =>
          refine enclosing_of_mem_descendants c (index :: place) hc (fun i => ?_) hp
          rw [enclosing_cons hc, if_neg hopen, hscope index]
    · refine enclosing_of_mem_go rest place (index + 1) (fun k c' hc' => ?_) hscope hp
      rw [show index + 1 + k = index + (k + 1) by lia]
      exact hcs (k + 1) c' hc'

end

theorem enclosing_cons_enclosing (bounds : Ast → Bool) (f : SourceFile) (place : Place) (i : Nat) :
    enclosing bounds f (i :: (enclosing bounds f place).place) = enclosing bounds f place := by
  rw [enclosing_cons (at?_enclosing bounds f place)]
  split
  · rfl
  · next hopen =>
    -- Only the file stands for a bound without being one.
    unfold enclosing at hopen ⊢
    cases hfind : (f.around place).find? (bounds ·.ast) with
    | none => rfl
    | some p =>
      rw [hfind] at hopen
      exact absurd (List.find?_some hfind) hopen

theorem mem_descendants_enclosing_iff :
    p ∈ (enclosing bounds f place).ast.descendants bounds (enclosing bounds f place).place ↔
      p.place ≠ [] ∧ f.ast.at? p.place = some p.ast ∧
        enclosing bounds f p.place = enclosing bounds f place := by
  constructor
  · intro hp
    have hat := at?_enclosing bounds f place
    refine ⟨fun hnil => ?_, at?_of_mem_descendants _ _ hat hp,
      enclosing_of_mem_descendants _ _ hat (enclosing_cons_enclosing bounds f place) hp⟩
    obtain ⟨j, hj⟩ := exists_suffix_of_mem_descendants _ _ hp
    rw [hnil] at hj
    cases List.suffix_nil.mp hj
  · rintro ⟨hne, hat, hsame⟩
    rw [← hsame]
    exact mem_descendants_enclosing hat hne

end Scopes

/-! ## Counting -/

section Counting

variable {l : List Placed} {g : Placed → List String}

theorem one_lt_count_flatMap_iff (hl : l.Nodup) : 1 < (l.flatMap g).count name ↔
    (∃ p ∈ l, 1 < (g p).count name) ∨ ∃ p ∈ l, ∃ q ∈ l, p ≠ q ∧ name ∈ g p ∧ name ∈ g q := by
  constructor
  · intro h
    induction l with
    | nil => cases h
    | cons x rest ih =>
      obtain ⟨hx, hrest⟩ := List.nodup_cons.mp hl
      rw [List.flatMap_cons, List.count_append] at h
      by_cases hhere : 1 < (g x).count name
      · exact .inl ⟨x, List.mem_cons_self, hhere⟩
      by_cases hlater : 1 < (rest.flatMap g).count name
      · rcases ih hrest hlater with ⟨p, hp, htwice⟩ | ⟨p, hp, q, hq, hpq⟩
        · exact .inl ⟨p, List.mem_cons_of_mem _ hp, htwice⟩
        · exact .inr ⟨p, List.mem_cons_of_mem _ hp, q, List.mem_cons_of_mem _ hq, hpq⟩
      · -- The name stands once here and once behind.
        have hone : name ∈ g x := List.count_pos_iff.mp (by lia)
        have hother : name ∈ rest.flatMap g := List.count_pos_iff.mp (by lia)
        obtain ⟨q, hq, hqname⟩ := List.mem_flatMap.mp hother
        exact .inr ⟨x, List.mem_cons_self, q, List.mem_cons_of_mem _ hq,
          fun heq => hx (heq ▸ hq), hone, hqname⟩
  · rintro (⟨p, hp, htwice⟩ | ⟨p, hp, q, hq, hne, hpname, hqname⟩)
    · obtain ⟨front, back, rfl⟩ := List.append_of_mem hp
      rw [List.flatMap_append, List.flatMap_cons, List.count_append, List.count_append]
      lia
    · exact two_le_count_flatMap hp hq hne hpname hqname

/-- A list has a name exactly if there is a place where it is bound, and has it twice exactly if there are
two. -/
structure Reflects (name : String) (names : List String) (R : Place → Prop) : Prop where
  mem : name ∈ names ↔ ∃ s, R s
  twice : 1 < names.count name ↔ ∃ s t, s ≠ t ∧ R s ∧ R t

variable {R : Place → Prop} {Q : Placed → Place → Prop}

theorem Reflects.nil (hnone : ∀ s, ¬ R s) : Reflects name [] R :=
  ⟨by simp [hnone], by simp [hnone]⟩

theorem Reflects.singleton {own : String} (place : Place) (hR : ∀ s, R s ↔ s = place ∧ name = own) :
    Reflects name [own] R := by
  simp only [funext fun s => propext (hR s)]
  refine ⟨⟨fun h => ⟨place, rfl, List.mem_singleton.mp h⟩, fun ⟨_, _, h⟩ => List.mem_singleton.mpr h⟩,
    fun h => ?_, ?_⟩
  · have hle : [own].count name ≤ 1 := List.count_le_length
    lia
  · rintro ⟨s, t, hne, ⟨hs, -⟩, ht, -⟩
    exact absurd (hs.trans ht.symm) hne

/-- If no two members of a list bind the name at one place, the names of all reflect where any of them
binds it. -/
theorem Reflects.flatMap (hl : l.Nodup) (hg : ∀ p ∈ l, Reflects name (g p) (Q p))
    (happart : ∀ p ∈ l, ∀ q ∈ l, ∀ s, Q p s → Q q s → p = q) :
    Reflects name (l.flatMap g) fun s => ∃ p ∈ l, Q p s := by
  refine ⟨?_, (one_lt_count_flatMap_iff hl).trans ⟨?_, ?_⟩⟩
  · rw [List.mem_flatMap]
    constructor
    · rintro ⟨p, hp, hmem⟩
      obtain ⟨s, hs⟩ := (hg p hp).mem.mp hmem
      exact ⟨s, p, hp, hs⟩
    · rintro ⟨s, p, hp, hs⟩
      exact ⟨p, hp, (hg p hp).mem.mpr ⟨s, hs⟩⟩
  · rintro (⟨p, hp, htwice⟩ | ⟨p, hp, q, hq, hne, hpname, hqname⟩)
    · obtain ⟨s, t, hst, hs, ht⟩ := (hg p hp).twice.mp htwice
      exact ⟨s, t, hst, ⟨p, hp, hs⟩, p, hp, ht⟩
    · obtain ⟨s, hs⟩ := (hg p hp).mem.mp hpname
      obtain ⟨t, ht⟩ := (hg q hq).mem.mp hqname
      exact ⟨s, t, fun hst => hne (happart p hp q hq s hs (hst ▸ ht)), ⟨p, hp, hs⟩, q, hq, ht⟩
  · rintro ⟨s, t, hst, ⟨p, hp, hs⟩, q, hq, ht⟩
    by_cases hpq : p = q
    · subst hpq
      exact .inl ⟨p, hp, (hg p hp).twice.mpr ⟨s, t, hst, hs, ht⟩⟩
    · exact .inr ⟨p, hp, q, hq, hpq, (hg p hp).mem.mpr ⟨s, hs⟩, (hg q hq).mem.mpr ⟨t, ht⟩⟩

end Counting

/-! ## Names in patterns -/

/-- The children of a node, each with its place. -/
def parts (p : Placed) : List Placed := p.ast.children.zipIdx.map fun c => ⟨c.2 :: p.place, c.1⟩

theorem mem_parts_iff : q ∈ parts p ↔ ∃ i, q.place = i :: p.place ∧ p.ast.children[i]? = some q.ast := by
  constructor
  · intro hq
    obtain ⟨c, hc, rfl⟩ := List.mem_map.mp hq
    exact ⟨c.2, rfl, List.mem_zipIdx_iff_getElem?.mp hc⟩
  · rintro ⟨i, hi, hget⟩
    refine List.mem_map.mpr ⟨(q.ast, i), List.mem_zipIdx_iff_getElem?.mpr hget, ?_⟩
    rw [← hi]

theorem map_ast_parts (p : Placed) : (parts p).map Placed.ast = p.ast.children := by
  rw [parts, List.map_map]
  exact List.zipIdx_map_fst 0 _

theorem nodup_parts (p : Placed) : (parts p).Nodup := by
  refine nodup_of_nodup_places ?_
  have hplaces : (parts p).map Placed.place = (p.ast.children.zipIdx.map Prod.snd).map (· :: p.place) := by
    rw [parts, List.map_map, List.map_map]
    rfl
  rw [hplaces, List.zipIdx_map_snd]
  exact List.pairwise_map.mpr
    (List.Pairwise.imp (fun hne heq => hne (List.cons.inj heq).1) List.nodup_range')

theorem map_ast_child? (p : Placed) (l : Label) : (p.child? l).map Placed.ast = p.ast.child? l := by
  cases h : p.child? l with
  | some q => exact (child?_spec h).1.symm
  | none =>
    refine (List.find?_eq_none.mpr fun c hc hlabel => ?_).symm
    have hany : p.ast.children.any (·.info.label = l) = true := List.any_eq_true.mpr ⟨c, hc, hlabel⟩
    rw [← List.findIdx?_isSome] at hany
    obtain ⟨i, hi⟩ := Option.isSome_iff_exists.mp hany
    obtain ⟨hlt, -⟩ := List.findIdx?_eq_some_iff_getElem.mp hi
    simp [Placed.child?, hi, List.getElem?_eq_getElem hlt] at h

/-- A name or a pattern binds a name at a place, through any nesting of patterns. -/
inductive BindsAt (word : NodeInfo → String) : Placed → Place → String → Prop where
  | name {p : Placed} (hname : p.ast.kind = .identifier) : BindsAt word p p.place (word p.ast.info)
  | element {p element target : Placed} {site : Place} {name : String}
    (hpattern : p.ast.kind = .objectBindingPattern ∨ p.ast.kind = .arrayBindingPattern)
    (hmem : element ∈ parts p) (helement : element.ast.kind = .bindingElement)
    (htarget : element.child? .name = some target) (hbinds : BindsAt word target site name) :
    BindsAt word p site name

/-- A variable, a parameter, a function or a class declares a name, which stands at the place. -/
inductive DeclaresAt (word : NodeInfo → String) : Placed → Place → String → Prop where
  | binding {p target : Placed} {site : Place} {name : String}
    (hkind : p.ast.kind = .variableDeclaration ∨ p.ast.kind = .parameter)
    (htarget : p.child? .name = some target) (hbinds : BindsAt word target site name) :
    DeclaresAt word p site name
  | definition {p target : Placed}
    (hkind : p.ast.kind = .functionDeclaration ∨ p.ast.kind = .classDeclaration)
    (htarget : p.child? .name = some target) : DeclaresAt word p target.place (word target.ast.info)

/-- The names that an element of a pattern declares. -/
def elementNames (f : SourceFile) (a : Ast) : List String :=
  if a.kind = .bindingElement then ((a.child? .name).map (boundNames f)).getD [] else []

theorem ofParts_eq (parts : List Ast) : boundNames.ofParts f parts =
    ((parts.find? (·.info.label = .name)).map (boundNames f)).getD [] := by
  induction parts with
  | nil => rw [boundNames.ofParts, List.find?_nil]; rfl
  | cons part rest ih =>
    obtain ⟨i, inner⟩ := part
    rw [boundNames.ofParts, List.find?_cons]
    by_cases hlabel : i.label = .name
    · simp [hlabel, Ast.info]
    · simp [hlabel, Ast.info, ih]

theorem ofElements_eq (children : List Ast) :
    boundNames.ofElements f children = children.flatMap (elementNames f) := by
  induction children with
  | nil => rw [boundNames.ofElements]; rfl
  | cons element rest ih =>
    obtain ⟨i, inner⟩ := element
    rw [boundNames.ofElements, ofParts_eq, ih]
    rfl

theorem boundNames_eq (a : Ast) : boundNames f a =
    if a.kind = .identifier then [written f a.info]
    else if a.kind = .objectBindingPattern ∨ a.kind = .arrayBindingPattern then
      a.children.flatMap (elementNames f)
    else [] := by
  obtain ⟨i, children⟩ := a
  rw [boundNames]
  split
  · next h => simp [h, Ast.kind, Ast.info, written]
  · next h => simp [h, Ast.kind, Ast.info, ofElements_eq, Ast.children]
  · next h => simp [h, Ast.kind, Ast.info, ofElements_eq, Ast.children]
  · next hidentifier hobject harray =>
    rw [if_neg (show (Ast.node i children).kind ≠ .identifier from hidentifier), if_neg]
    rintro (hkind | hkind)
    · exact hobject hkind
    · exact harray hkind

variable {word : NodeInfo → String}

/-- An element of a pattern binds a name at a place. -/
def ElementBindsAt (word : NodeInfo → String) (p : Placed) (site : Place) (name : String) : Prop :=
  p.ast.kind = .bindingElement ∧ ∃ target, p.child? .name = some target ∧ BindsAt word target site name

theorem bindsAt_iff : BindsAt word p site name ↔
    (p.ast.kind = .identifier ∧ site = p.place ∧ name = word p.ast.info) ∨
    ((p.ast.kind = .objectBindingPattern ∨ p.ast.kind = .arrayBindingPattern) ∧
      ∃ element ∈ parts p, ElementBindsAt word element site name) := by
  constructor
  · intro h
    cases h with
    | name hname => exact .inl ⟨hname, rfl, rfl⟩
    | element hpattern hmem helement htarget hbinds =>
      exact .inr ⟨hpattern, _, hmem, helement, _, htarget, hbinds⟩
  · rintro (⟨hname, rfl, rfl⟩ | ⟨hpattern, element, hmem, helement, target, htarget, hbinds⟩)
    · exact .name hname
    · exact .element hpattern hmem helement htarget hbinds

theorem BindsAt.suffix (h : BindsAt word p site name) : p.place <:+ site := by
  induction h with
  | name => exact List.suffix_rfl
  | element _ hmem _ htarget _ ih =>
    obtain ⟨i, hi, -⟩ := mem_parts_iff.mp hmem
    obtain ⟨-, j, hj, -⟩ := child?_spec htarget
    rw [hj, hi] at ih
    exact (List.suffix_cons i _).trans ((List.suffix_cons j _).trans ih)

theorem ElementBindsAt.suffix (h : ElementBindsAt word p site name) : p.place <:+ site := by
  obtain ⟨-, target, htarget, hbinds⟩ := h
  obtain ⟨-, j, hj, -⟩ := child?_spec htarget
  have hsuffix := hbinds.suffix
  rw [hj] at hsuffix
  exact (List.suffix_cons j _).trans hsuffix

theorem eq_of_mem_parts {x y : Placed} (hx : x ∈ parts p) (hy : y ∈ parts p) (hxs : x.place <:+ site)
    (hys : y.place <:+ site) : x = y := by
  obtain ⟨i, hi, hxget⟩ := mem_parts_iff.mp hx
  obtain ⟨j, hj, hyget⟩ := mem_parts_iff.mp hy
  have hplaces : x.place = y.place := suffix_unique hxs hys (by rw [hi, hj]; rfl)
  have hij : i = j := by
    rw [hi, hj] at hplaces
    exact (List.cons.inj hplaces).1
  rw [hij, hyget] at hxget
  exact congrArg₂ Placed.mk hplaces (Option.some.inj hxget).symm

theorem elementNames_eq {element target : Placed} (helement : element.ast.kind = .bindingElement)
    (htarget : element.child? .name = some target) :
    elementNames f element.ast = boundNames f target.ast := by
  rw [elementNames, if_pos helement, ← map_ast_child?, htarget]
  rfl

theorem elementNames_eq_nil {element : Placed}
    (h : ¬ (element.ast.kind = .bindingElement ∧ ∃ target, element.child? .name = some target)) :
    elementNames f element.ast = [] := by
  rw [elementNames]
  split
  · next helement =>
    rw [← map_ast_child?]
    cases htarget : element.child? .name with
    | none => rfl
    | some target => exact absurd ⟨helement, target, htarget⟩ h
  · rfl

theorem flatMap_children (p : Placed) (g : Ast → List String) :
    p.ast.children.flatMap g = (parts p).flatMap fun q => g q.ast := by
  rw [← map_ast_parts, List.flatMap_map]

theorem sizeOf_target_lt {element target : Placed} (hmem : element ∈ parts p)
    (htarget : element.child? .name = some target) : sizeOf target.ast < sizeOf p.ast := by
  have hchild : ∀ {a b : Ast}, b ∈ a.children → sizeOf b < sizeOf a := by
    intro a b hb
    obtain ⟨i, children⟩ := a
    have := List.sizeOf_lt_of_mem hb
    simp only [Ast.node.sizeOf_spec, Ast.children] at *
    lia
  obtain ⟨_, _, helement⟩ := mem_parts_iff.mp hmem
  obtain ⟨_, _, _, hinner⟩ := child?_spec htarget
  have := hchild (List.mem_of_getElem? helement)
  have := hchild (List.mem_of_getElem? hinner)
  lia

theorem elementBindsAt_iff {element target : Placed} (helement : element.ast.kind = .bindingElement)
    (htarget : element.child? .name = some target) :
    ElementBindsAt word element site name ↔ BindsAt word target site name := by
  refine ⟨fun ⟨_, target', htarget', hbinds⟩ => ?_, fun hbinds => ⟨helement, target, htarget, hbinds⟩⟩
  rw [htarget] at htarget'
  cases htarget'
  exact hbinds

theorem reflects_boundNames (p : Placed) :
    Reflects name (boundNames f p.ast) fun s => BindsAt (written f) p s name := by
  have helements : ∀ element ∈ parts p, Reflects name (elementNames f element.ast) fun s =>
      ElementBindsAt (written f) element s name := by
    intro element hmem
    by_cases hexists : element.ast.kind = .bindingElement ∧ ∃ target, element.child? .name = some target
    · obtain ⟨helement, target, htarget⟩ := hexists
      have hlt := sizeOf_target_lt hmem htarget
      simp only [elementNames_eq helement htarget, elementBindsAt_iff helement htarget]
      exact reflects_boundNames target
    · rw [elementNames_eq_nil hexists]
      exact .nil fun s ⟨helement, target, htarget, _⟩ => hexists ⟨helement, target, htarget⟩
  rw [boundNames_eq]
  by_cases hname : p.ast.kind = .identifier
  · rw [if_pos hname]
    exact .singleton p.place fun s => by simp [bindsAt_iff, hname]
  rw [if_neg hname]
  by_cases hpattern : p.ast.kind = .objectBindingPattern ∨ p.ast.kind = .arrayBindingPattern
  · have hiff : ∀ s, BindsAt (written f) p s name ↔
        ∃ element ∈ parts p, ElementBindsAt (written f) element s name := by
      simp [bindsAt_iff, hname, hpattern]
    rw [if_pos hpattern, flatMap_children]
    simp only [hiff]
    exact .flatMap (nodup_parts p) helements fun q hq q' hq' s hs hs' =>
      eq_of_mem_parts hq hq' hs.suffix hs'.suffix
  · rw [if_neg hpattern]
    exact .nil (by simp [bindsAt_iff, hname, hpattern])
  termination_by sizeOf p.ast

/-! ## Declarations -/

theorem declaresAt_iff : DeclaresAt word p site name ↔
    ∃ target, p.child? .name = some target ∧
      (((p.ast.kind = .variableDeclaration ∨ p.ast.kind = .parameter) ∧ BindsAt word target site name) ∨
        ((p.ast.kind = .functionDeclaration ∨ p.ast.kind = .classDeclaration) ∧ site = target.place ∧
          name = word target.ast.info)) := by
  constructor
  · intro h
    cases h with
    | binding hkind htarget hbinds => exact ⟨_, htarget, .inl ⟨hkind, hbinds⟩⟩
    | definition hkind htarget => exact ⟨_, htarget, .inr ⟨hkind, rfl, rfl⟩⟩
  · rintro ⟨target, htarget, ⟨hkind, hbinds⟩ | ⟨hkind, rfl, rfl⟩⟩
    · exact .binding hkind htarget hbinds
    · exact .definition hkind htarget

theorem reflects_declaredNames (p : Placed) :
    Reflects name (declaredNames f p.ast) fun s => DeclaresAt (written f) p s name := by
  have htarget := map_ast_child? p .name
  cases hp : p.child? .name with
  | none =>
    have hnames : declaredNames f p.ast = [] := by
      rw [hp] at htarget
      unfold declaredNames
      rw [← htarget]
      split <;> first | rfl | contradiction
    rw [hnames]
    exact .nil (by simp [declaresAt_iff, hp])
  | some target =>
    rw [hp, Option.map_some] at htarget
    by_cases hbinding : p.ast.kind = .variableDeclaration ∨ p.ast.kind = .parameter
    · have hnames : declaredNames f p.ast = boundNames f target.ast := by
        unfold declaredNames
        rw [← htarget]
        rcases hbinding with hkind | hkind <;> rw [hkind]
      have hiff : ∀ s, DeclaresAt (written f) p s name ↔ BindsAt (written f) target s name := by
        rcases hbinding with hkind | hkind <;> simp [declaresAt_iff, hp, hkind]
      simp only [hnames, hiff]
      exact reflects_boundNames target
    by_cases hdefinition : p.ast.kind = .functionDeclaration ∨ p.ast.kind = .classDeclaration
    · have hnames : declaredNames f p.ast = [written f target.ast.info] := by
        unfold declaredNames
        rw [← htarget]
        rcases hdefinition with hkind | hkind <;> rw [hkind] <;> rfl
      rw [hnames]
      refine .singleton target.place fun s => ?_
      rcases hdefinition with hkind | hkind <;> simp [declaresAt_iff, hp, hkind]
    · have hnames : declaredNames f p.ast = [] := by
        unfold declaredNames
        split <;> simp_all
      rw [hnames]
      exact .nil (by simp [declaresAt_iff, hbinding, hdefinition])

/-- A node that can stand between a declaration and a name that it declares. -/
def isBetween (a : Ast) : Bool :=
  match a.kind with
  | .identifier | .objectBindingPattern | .arrayBindingPattern | .bindingElement => true
  | _ => false

theorem DeclaresAt.kind_mem (h : DeclaresAt word p site name) :
    p.ast.kind ∈ [Kind.variableDeclaration, .parameter, .functionDeclaration, .classDeclaration] := by
  cases h with
  | binding hkind => rcases hkind with hkind | hkind <;> simp [hkind]
  | definition hkind => rcases hkind with hkind | hkind <;> simp [hkind]

theorem not_isBetween_of_declaresAt (h : DeclaresAt word p site name) : isBetween p.ast = false := by
  have hkind := h.kind_mem
  simp only [List.mem_cons, List.not_mem_nil, or_false] at hkind
  unfold isBetween
  rcases hkind with hkind | hkind | hkind | hkind <;> rw [hkind]

theorem eq_or_suffix {s t l : Place} {i : Nat} (ht : t <:+ l) (hs : s <:+ t) (hi : (i :: s) <:+ l) :
    t = s ∨ (i :: s) <:+ t := by
  by_cases hlength : t.length ≤ s.length
  · exact .inl (hs.eq_of_length (by have := hs.length_le; lia)).symm
  · exact .inr (List.suffix_of_suffix_length_le hi ht (by simp only [List.length_cons]; lia))

theorem eq_of_place_eq (hp : f.ast.at? p.place = some p.ast) (hq : f.ast.at? q.place = some q.ast)
    (hplace : p.place = q.place) : p = q := by
  rw [hplace, hq] at hp
  exact congrArg₂ Placed.mk hplace (Option.some.inj hp).symm

theorem at?_child? {l : Label} (hp : f.ast.at? p.place = some p.ast) (h : p.child? l = some q) :
    f.ast.at? q.place = some q.ast := by
  obtain ⟨-, i, hi, hget⟩ := child?_spec h
  rw [hi, Ast.at?_cons, hp]
  exact hget

theorem BindsAt.isBetween (h : BindsAt word p site name) (hp : f.ast.at? p.place = some p.ast)
    (hq : f.ast.at? q.place = some q.ast) (hpq : p.place <:+ q.place) (hqs : q.place <:+ site) :
    isBetween q.ast = true := by
  induction h with
  | @name p hname =>
    obtain rfl : q = p := eq_of_place_eq hq hp (hqs.eq_of_length_le hpq.length_le)
    rw [Rules.isBetween, hname]
  | @element p element target _ _ hpattern hmem helement htarget hbinds ih =>
    obtain ⟨i, hi, hget⟩ := mem_parts_iff.mp hmem
    have helementAt : f.ast.at? element.place = some element.ast := by
      rw [hi, Ast.at?_cons, hp]
      exact hget
    obtain ⟨-, j, hj, -⟩ := child?_spec htarget
    have hinner := hbinds.suffix
    have houter : element.place <:+ _ := (by rw [hj]; exact List.suffix_cons j _ :
      element.place <:+ target.place).trans hinner
    rw [hi] at houter
    rcases eq_or_suffix hqs hpq houter with heq | hbelow
    · obtain rfl : q = p := eq_of_place_eq hq hp heq
      rcases hpattern with hkind | hkind <;> rw [Rules.isBetween, hkind]
    rw [← hi] at hbelow
    rw [hj] at hinner
    rcases eq_or_suffix hqs hbelow hinner with heq | hbelow
    · obtain rfl : q = element := eq_of_place_eq hq helementAt heq
      rw [Rules.isBetween, helement]
    · rw [← hj] at hbelow
      exact ih (at?_child? helementAt htarget) hbelow hqs

theorem DeclaresAt.suffix (h : DeclaresAt word p site name) : ∃ i, (i :: p.place) <:+ site := by
  cases h with
  | binding _ htarget hbinds =>
    obtain ⟨-, i, hi, -⟩ := child?_spec htarget
    exact ⟨i, hi ▸ hbinds.suffix⟩
  | definition _ htarget =>
    obtain ⟨-, i, hi, -⟩ := child?_spec htarget
    exact ⟨i, hi ▸ List.suffix_rfl⟩

theorem DeclaresAt.eq_of_suffix {name' : String} (h : DeclaresAt word p site name)
    (h' : DeclaresAt word q site name') (hp : f.ast.at? p.place = some p.ast)
    (hq : f.ast.at? q.place = some q.ast) (hpq : p.place <:+ q.place) : p = q := by
  obtain ⟨j, hj⟩ := h'.suffix
  have hqs : q.place <:+ site := (List.suffix_cons j _).trans hj
  have hinside : ∀ {target : Placed} {i : Nat}, target.place = i :: p.place → target.place <:+ site →
      q.place = p.place ∨ target.place <:+ q.place := by
    intro target i hi htarget
    rw [hi] at htarget ⊢
    exact eq_or_suffix hqs hpq htarget
  cases h with
  | binding _ htarget hbinds =>
    obtain ⟨-, i, hi, -⟩ := child?_spec htarget
    rcases hinside hi hbinds.suffix with heq | hbelow
    · exact (eq_of_place_eq hq hp heq).symm
    · have := hbinds.isBetween (at?_child? hp htarget) hq hbelow hqs
      rw [not_isBetween_of_declaresAt h'] at this
      cases this
  | definition _ htarget =>
    obtain ⟨-, i, hi, -⟩ := child?_spec htarget
    rcases hinside hi List.suffix_rfl with heq | hbelow
    · exact (eq_of_place_eq hq hp heq).symm
    · have := hj.length_le
      have := hbelow.length_le
      simp only [List.length_cons] at *
      lia

/-- The place of a name tells which declaration it belongs to. -/
theorem DeclaresAt.eq {name' : String} (h : DeclaresAt word p site name)
    (h' : DeclaresAt word q site name') (hp : f.ast.at? p.place = some p.ast)
    (hq : f.ast.at? q.place = some q.ast) : p = q := by
  obtain ⟨i, hi⟩ := h.suffix
  obtain ⟨j, hj⟩ := h'.suffix
  have hps := (List.suffix_cons i _).trans hi
  have hqs := (List.suffix_cons j _).trans hj
  rcases Nat.le_total p.place.length q.place.length with hle | hle
  · exact h.eq_of_suffix h' hp hq (List.suffix_of_suffix_length_le hps hqs hle)
  · exact (h'.eq_of_suffix h hq hp (List.suffix_of_suffix_length_le hqs hps hle)).symm

/-- A name in a file with the declaration that it belongs to. -/
structure Binding (f : SourceFile) (name : String) where
  declaration : Placed
  site : Place
  stands : f.ast.at? declaration.place = some declaration.ast
  declares : DeclaresAt (written f) declaration site name

/-- The declaration of a binding lies right in what bounds the place. -/
def Binding.LiesIn (b : Binding f name) (bounds : Ast → Bool) (place : Place) : Prop :=
  enclosing bounds f b.declaration.place = enclosing bounds f place

/-- The names declared in a scope of any kind, repeated ones included. -/
def namesIn (bounds : Ast → Bool) (f : SourceFile) (place : Place) : List String :=
  let scope := enclosing bounds f place
  (scope.ast.descendants bounds scope.place).flatMap fun p => declaredNames f p.ast

theorem Binding.mem_descendants (hfile : f.ast.kind = .sourceFile) (b : Binding f name)
    (h : b.LiesIn bounds place) :
    b.declaration ∈ (enclosing bounds f place).ast.descendants bounds
      (enclosing bounds f place).place := by
  refine mem_descendants_enclosing_iff.mpr ⟨fun hnil => ?_, b.stands, h⟩
  have hstands := b.stands
  rw [hnil] at hstands
  have hkind := b.declares.kind_mem
  rw [← Option.some.inj hstands, hfile] at hkind
  revert hkind
  decide

/-- A name counts twice in a scope exactly if it is bound there at two places. -/
theorem one_lt_count_namesIn_iff (hfile : f.ast.kind = .sourceFile) :
    1 < (namesIn bounds f place).count name ↔ ∃ b b' : Binding f name, b.site ≠ b'.site ∧
      b.LiesIn bounds place ∧ b'.LiesIn bounds place := by
  have hreflects : Reflects name (namesIn bounds f place) _ :=
    .flatMap (nodup_of_nodup_places (nodup_descendants _ _)) (fun p _ => reflects_declaredNames p)
      fun p hp q hq s hs ht => hs.eq ht (mem_descendants_enclosing_iff.mp hp).2.1
        (mem_descendants_enclosing_iff.mp hq).2.1
  rw [hreflects.twice]
  constructor
  · rintro ⟨s, t, hne, ⟨p, hp, hs⟩, q, hq, ht⟩
    obtain ⟨-, hpat, hpin⟩ := mem_descendants_enclosing_iff.mp hp
    obtain ⟨-, hqat, hqin⟩ := mem_descendants_enclosing_iff.mp hq
    exact ⟨⟨p, s, hpat, hs⟩, ⟨q, t, hqat, ht⟩, hne, hpin, hqin⟩
  · rintro ⟨b, b', hne, hb, hb'⟩
    exact ⟨b.site, b'.site, hne, ⟨_, b.mem_descendants hfile hb, b.declares⟩, _,
      b'.mem_descendants hfile hb', b'.declares⟩

/-! ## The repair of var statements -/

/-- A node with names of its own at which the walk over a scope does not stop. -/
def isOverlooked (a : Ast) : Bool :=
  match a.kind with
  | .functionType | .constructorType | .methodSignature | .callSignature | .constructSignature
  | .indexSignature | .classStaticBlockDeclaration => true
  | _ => false

/-- A node whose names the language keeps apart from those around it. -/
def boundsVar (a : Ast) : Bool := boundsScope a || isOverlooked a

theorem find?_or {α : Type} (p q : α → Bool) (l : List α)
    (h : ∀ x, l.find? (fun x => p x || q x) = some x → q x = false) :
    l.find? (fun x => p x || q x) = l.find? p := by
  induction l with
  | nil => rfl
  | cons x rest ih =>
    rw [List.find?_cons, List.find?_cons] at *
    cases hp : p x with
    | true => rw [Bool.true_or]
    | false =>
      cases hq : q x with
      | true =>
        have hx := h x (by rw [hp, hq]; rfl)
        rw [hq] at hx
        cases hx
      | false =>
        rw [hp, hq] at h
        exact ih h

/-- Where the nearest node that keeps names apart is not overlooked, the walk takes the scope to be what
it is. -/
theorem enclosing_boundsVar (h : isOverlooked (enclosing boundsVar f place).ast = false) :
    enclosing boundsVar f place = enclosing boundsScope f place := by
  have hfind : (f.around place).find? (boundsVar ·.ast) = (f.around place).find? (boundsScope ·.ast) := by
    refine find?_or (fun x : Placed => boundsScope x.ast) (fun x => isOverlooked x.ast) _ fun x hx => ?_
    have hx : (f.around place).find? (boundsVar ·.ast) = some x := hx
    unfold enclosing at h
    rwa [hx, Option.getD_some] at h
  unfold enclosing
  rw [hfind]

variable {c : RepairContext SourceFile} {statement declaration : Placed}

/-- The reason of a repair that finds a name declared again. -/
def redeclared (name : String) : String := "'" ++ name ++ "' is declared more than once in the same scope"

theorem redeclared_inj {name name' : String} (h : redeclared name = redeclared name') : name = name' := by
  have hchars := congrArg String.toList h
  simp only [redeclared, String.toList_append] at hchars
  exact String.toList_inj.mp (List.append_cancel_left (List.append_cancel_right hchars))

theorem ne_redeclared {reason : String} (h : reason.toList.head? ≠ some '\'') :
    reason ≠ redeclared name := by
  rintro rfl
  exact h (by simp [redeclared, String.toList_append])

/-- A statement binds a name at a place. -/
def StatementBindsAt (word : NodeInfo → String) (statement : Placed) (site : Place) (name : String) :
    Prop :=
  ∃ list declaration target, statement.child? .declarations = some list ∧
    declaration ∈ list.childrenOf .declarations ∧ declaration.child? .name = some target ∧
    BindsAt word target site name

theorem exists_mem_childrenOf {l : Label} (h : a ∈ p.ast.childrenOf l) :
    ∃ q ∈ p.childrenOf l, q.ast = a := by
  obtain ⟨hmem, hlabel⟩ := List.mem_filter.mp h
  obtain ⟨i, hi⟩ := List.mem_iff_getElem?.mp hmem
  refine ⟨⟨i :: p.place, a⟩, List.mem_map.mpr ⟨(a, i), List.mem_filter.mpr ⟨?_, hlabel⟩, rfl⟩, rfl⟩
  exact List.mem_zipIdx_iff_getElem?.mpr hi

theorem exists_bindsAt_of_mem_namesOf (h : name ∈ namesOf f statement) :
    ∃ site, StatementBindsAt (written f) statement site name := by
  unfold namesOf at h
  rw [← map_ast_child?] at h
  cases hlist : statement.child? .declarations with
  | none =>
    rw [hlist] at h
    cases h
  | some list =>
    rw [hlist] at h
    obtain ⟨a, ha, hname⟩ := List.mem_flatMap.mp h
    obtain ⟨declaration, hmem, rfl⟩ := exists_mem_childrenOf ha
    rw [← map_ast_child?] at hname
    cases htarget : declaration.child? .name with
    | none =>
      rw [htarget] at hname
      cases hname
    | some target =>
      rw [htarget] at hname
      obtain ⟨site, hsite⟩ := (reflects_boundNames target).mem.mp hname
      exact ⟨site, list, declaration, target, hlist, hmem, htarget, hsite⟩

theorem exists_of_declined {α : Type} {x : Attempt α} {g : α → Attempt Outcome} {reason : String}
    (h : (x >>= g) = .ok (.declined reason)) : ∃ a, x = .ok a ∧ g a = .ok (.declined reason) := by
  cases x with
  | error => cases h
  | ok a => exact ⟨a, rfl, h⟩

/-- When the repair finds a name declared again. -/
theorem noVar_declined_iff (hc : Sound c f) : noVar c = .ok (.declined (redeclared name)) ↔
    ∃ statement list, Context.flagged? c .variableStatement = .ok (some (f, statement)) ∧
      statement.ast.child? .declarations = some list ∧ list.info.token = .varKeyword ∧
      (namesOf f statement).find?
        (fun n => 1 < (namesInScope f (scopeOf f statement.place)).count n) = some name := by
  constructor
  · intro h
    obtain ⟨flagged, hflagged, h⟩ := exists_of_declined h
    split at h
    · cases ne_redeclared (by decide) (Outcome.declined.inj (Except.ok.inj h))
    next file statement =>
    obtain rfl : file = f := (hc.flagged?_parsed hflagged).1
    split at h
    · cases ne_redeclared (by decide) (Outcome.declined.inj (Except.ok.inj h))
    next list hlist =>
    obtain ⟨hlist, htoken⟩ := Option.filter_eq_some_iff.mp hlist
    refine ⟨statement, list, hflagged, hlist, of_decide_eq_true htoken, ?_⟩
    dsimp only at h
    split at h
    · next name' hfind =>
      rw [redeclared_inj (Outcome.declined.inj (Except.ok.inj h)).symm]
      exact hfind
    · obtain ⟨text, -, h⟩ := exists_of_declined h
      split at h
      · obtain ⟨replacement, -, h⟩ := exists_of_declined h
        cases h
      · cases ne_redeclared (by decide) (Outcome.declined.inj (Except.ok.inj h))
  · rintro ⟨statement, list, hflagged, hlist, htoken, hfind⟩
    have hvar : (statement.ast.child? .declarations).filter (·.info.token = .varKeyword) = some list :=
      Option.filter_eq_some_iff.mpr ⟨hlist, decide_eq_true htoken⟩
    simp only [noVar, hflagged, hvar, hfind, bind, Except.bind]
    rfl

/-- The repair of a var statement finds a name declared again only if a declaration of the scope, as the walk
over it sees the scope, binds the name at another place than the statement does. This is the scope of the
language unless a type signature or a static block stands between. And it finds one declared again if another
declaration of the scope binds a name of the statement. -/
theorem noVar_declines {text : Text} {path : String} {template : Template}
    (hread : parse text path = .ok (template, f)) (htree : c.tree = .ofTemplate path text template)
    (hparsed : c.parsed = some f) :
    (∀ name, noVar c = .ok (.declined (redeclared name)) →
      ∃ statement site, ∃ other : Binding f name,
        Context.flagged? c .variableStatement = .ok (some (f, statement)) ∧
        StatementBindsAt (written f) statement site name ∧ other.site ≠ site ∧
        other.LiesIn boundsScope statement.place ∧
        (other.LiesIn boundsVar statement.place ∨
          isOverlooked (enclosing boundsVar f other.declaration.place).ast = true ∨
          isOverlooked (enclosing boundsVar f statement.place).ast = true)) ∧
    ∀ statement list name, ∀ own other : Binding f name,
      Context.flagged? c .variableStatement = .ok (some (f, statement)) →
      statement.ast.child? .declarations = some list → list.info.token = .varKeyword →
      BindsBy (written f) statement own.declaration name → own.site ≠ other.site →
      other.LiesIn boundsScope statement.place →
      ∃ name', noVar c = .ok (.declined (redeclared name')) := by
  have hc : Sound c f := .of_parse hread htree hparsed
  constructor
  · intro name hrun
    obtain ⟨statement, -, hflagged, -, -, hfind⟩ := (noVar_declined_iff hc).mp hrun
    have hcount : 1 < (namesIn boundsScope f statement.place).count name :=
      of_decide_eq_true (List.find?_some hfind :)
    obtain ⟨site, hsite⟩ := exists_bindsAt_of_mem_namesOf (List.mem_of_find?_eq_some hfind)
    obtain ⟨b, b', hne, hb, hb'⟩ := (one_lt_count_namesIn_iff hc.kind).mp hcount
    -- Of two places, one is not that of the statement.
    obtain ⟨other, hother, hin⟩ : ∃ other : Binding f name, other.site ≠ site ∧
        other.LiesIn boundsScope statement.place := by
      by_cases hsame : b.site = site
      · exact ⟨b', fun h => hne (hsame.trans h.symm), hb'⟩
      · exact ⟨b, hsame, hb⟩
    refine ⟨statement, site, other, hflagged, hsite, hother, hin, ?_⟩
    by_cases hover : isOverlooked (enclosing boundsVar f other.declaration.place).ast = true
    · exact .inr (.inl hover)
    by_cases hover' : isOverlooked (enclosing boundsVar f statement.place).ast = true
    · exact .inr (.inr hover')
    refine .inl ?_
    rw [Binding.LiesIn, enclosing_boundsVar (Bool.eq_false_of_not_eq_true hover),
      enclosing_boundsVar (Bool.eq_false_of_not_eq_true hover')]
    exact hin
  · intro statement list name own other hflagged hlist htoken hbinds hne hother
    obtain ⟨-, hat, hkind⟩ := hc.flagged?_parsed hflagged
    have hown : own.LiesIn boundsScope statement.place := (hbinds.placed hat hkind).2.1.eq
    have hcount : 1 < (namesIn boundsScope f statement.place).count name :=
      (one_lt_count_namesIn_iff hc.kind).mpr ⟨own, other, hne, hown, hother⟩
    have hsome : ((namesOf f statement).find?
        fun n => 1 < (namesInScope f (scopeOf f statement.place)).count n).isSome = true :=
      List.find?_isSome.mpr ⟨name, hbinds.mem_namesOf, decide_eq_true hcount⟩
    obtain ⟨name', hfind⟩ := Option.isSome_iff_exists.mp hsome
    exact ⟨name', (noVar_declined_iff hc).mpr ⟨statement, list, hflagged, hlist, htoken, hfind⟩⟩

/-- Why a repair declines. -/
def reason? (r : Attempt Outcome) : Option String :=
  match r with
  | .ok (.declined reason) => some reason
  | _ => none

theorem eq_of_reason? {r : Attempt Outcome} {reason : String} (h : reason? r = some reason) :
    r = .ok (.declined reason) := by
  unfold reason? at h
  split at h
  · rw [Option.some.inj h]
  · cases h

theorem exists_flagged {text : Text} {v : Violation} (hlisted : Listed text = true)
    (h : reason? (noVar (listedContext text v)) = some (redeclared name))
    (hplace : ((listedContext text v).tree.origin v.node).toOption = some (some place)) :
    ∃ statement, Context.flagged? (listedContext text v) .variableStatement =
      .ok (some (.read {} (.ofText text), statement)) ∧ statement.place = place := by
  have hc := (asRead_listed hlisted v).sound
  obtain ⟨statement, -, hflagged, -⟩ := (noVar_declined_iff hc).mp (eq_of_reason? h)
  obtain ⟨⟨n, hn, horigin⟩, -⟩ := hc.flagged?_spec hflagged
  refine ⟨statement, hflagged, ?_⟩
  have hsame := (Tree.origin_eq hn).trans (congrArg _ horigin)
  change (listedContext text v).tree.origin v.node = _ at hsame
  rw [hsame] at hplace
  exact Option.some.inj (Option.some.inj hplace)

def againText : Text := .ofString "var x = 1;\nfunction f(y) \x7b var y; \x7d\nvar x = 2;\n"

def againFile : SourceFile := .read {} (.ofText againText)

/-- A statement whose name another statement declares again. -/
def againVar : RepairContext SourceFile := listedContext againText (varAt 1 ⟨1, 1, 0, 10⟩)

theorem noVar_declines_again : ∃ statement site, ∃ other : Binding againFile "x",
    noVar againVar = .ok (.declined (redeclared "x")) ∧ statement.place = [0] ∧
    StatementBindsAt (written againFile) statement site "x" ∧ other.site ≠ site ∧
    other.LiesIn boundsScope [0] := by
  have hreason : reason? (noVar againVar) = some (redeclared "x") := by decide +kernel
  have hcontext : AsRead againText "a.ts" againFile againVar := asRead_listed (by decide +kernel) _
  obtain ⟨template, hread, htree⟩ := hcontext.read
  obtain ⟨statement, site, other, hflagged, hsite, hne, hin, -⟩ :=
    (noVar_declines hread htree hcontext.parsed).1 "x" (eq_of_reason? hreason)
  obtain ⟨statement', hflagged', hplace⟩ := exists_flagged (v := varAt 1 ⟨1, 1, 0, 10⟩)
    (by decide +kernel) hreason (show _ = some (some [0]) by decide +kernel)
  obtain rfl : statement = statement' :=
    congrArg Prod.snd (Option.some.inj (Except.ok.inj (hflagged.symm.trans hflagged')))
  rw [hplace] at hin
  exact ⟨statement, site, other, eq_of_reason? hreason, hplace, hsite, hne, hin⟩

def typeText : Text := .ofString "var x = 1;\ntype F = (x: number) => void;\n"

/-- A statement whose name is a parameter in a type. -/
def typeVar : RepairContext SourceFile := listedContext typeText (varAt 1 ⟨1, 1, 0, 10⟩)

/-- The repair counts the parameters of type signatures among the names of the scope around, so it finds a
name declared again that its scope binds at one place only. -/
theorem noVar_overcounts : ¬ ∀ text path f c statement name, AsRead text path f c →
    flags noVarCheck f c = true →
    Context.flagged? c .variableStatement = .ok (some (f, statement)) →
    noVar c = .ok (.declined (redeclared name)) →
    ∃ own other : Binding f name, own.site ≠ other.site ∧ own.LiesIn boundsVar statement.place ∧
      other.LiesIn boundsVar statement.place := by
  intro hclaim
  have hreason : reason? (noVar typeVar) = some (redeclared "x") := by decide +kernel
  have hcontext : AsRead typeText "a.ts" (.read {} (.ofText typeText)) typeVar :=
    asRead_listed (by decide +kernel) _
  obtain ⟨statement, hflagged, hplace⟩ := exists_flagged (v := varAt 1 ⟨1, 1, 0, 10⟩)
    (by decide +kernel) hreason (show _ = some (some [0]) by decide +kernel)
  have htwice := (one_lt_count_namesIn_iff hcontext.sound.kind).mpr
    (hclaim _ _ _ typeVar statement "x" hcontext (by decide +kernel) hflagged (eq_of_reason? hreason))
  rw [hplace] at htwice
  have honce : ¬ 1 < (namesIn boundsVar (.read {} (.ofText typeText)) [0]).count "x" := by
    decide +kernel
  exact honce htwice

end LintRepair.Rules
