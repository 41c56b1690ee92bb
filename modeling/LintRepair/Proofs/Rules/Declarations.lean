import LintRepair.Proofs.Rules.Effects

/-!
# What a scope declares

A scope declares the names of the nodes below it, up to the scopes inside, of which it sees the names only. A
node is among those nodes if the scope is the nearest one around it (`mem_descendants_scopeOf`), so two nodes
of one scope that declare one name are counted twice.
-/
namespace LintRepair.Rules

open Syntax

/-- A name or a pattern binds a name, through any nesting of patterns. What a word is may depend on how it
is read. -/
inductive Binds (word : NodeInfo → String) : Ast → String → Prop where
  | name {i : NodeInfo} {children : List Ast} (hname : i.kind = .identifier) :
    Binds word (.node i children) (word i)
  | element {i : NodeInfo} {children : List Ast} {element target : Ast} {name : String}
    (hpattern : i.kind = .objectBindingPattern ∨ i.kind = .arrayBindingPattern)
    (hmem : element ∈ children) (helement : element.kind = .bindingElement)
    (htarget : element.child? .name = some target) (hbinds : Binds word target name) :
    Binds word (.node i children) name

/-- A variable, a parameter, a function or a class declares a name. -/
inductive Declares (word : NodeInfo → String) : Ast → String → Prop where
  | binding {a target : Ast} {name : String} (hkind : a.kind = .variableDeclaration ∨ a.kind = .parameter)
    (htarget : a.child? .name = some target) (hbinds : Binds word target name) : Declares word a name
  | definition {a target : Ast} (hkind : a.kind = .functionDeclaration ∨ a.kind = .classDeclaration)
    (htarget : a.child? .name = some target) : Declares word a (word target.info)

/-- The word as it stands in the file. -/
def written (f : SourceFile) (i : NodeInfo) : String := (f.source.slice i.start i.stop).toString

variable {f : SourceFile} {a : Ast} {name : String}

theorem mem_ofParts_iff {parts : List Ast} : name ∈ boundNames.ofParts f parts ↔
    ∃ target, parts.find? (·.info.label = .name) = some target ∧ name ∈ boundNames f target := by
  induction parts with
  | nil => simp [boundNames.ofParts]
  | cons part rest ih =>
    obtain ⟨i, inner⟩ := part
    rw [boundNames.ofParts, List.find?_cons]
    by_cases hlabel : i.label = .name
    · simp [hlabel, Ast.info]
    · simp [hlabel, Ast.info, ih]

theorem mem_ofElements_iff {children : List Ast} : name ∈ boundNames.ofElements f children ↔
    ∃ element ∈ children, element.kind = .bindingElement ∧
      name ∈ boundNames.ofParts f element.children := by
  induction children with
  | nil => simp [boundNames.ofElements]
  | cons element rest ih =>
    obtain ⟨i, parts⟩ := element
    have hhere : name ∈ (if i.kind = .bindingElement then boundNames.ofParts f parts else []) ↔
        i.kind = .bindingElement ∧ name ∈ boundNames.ofParts f parts := by
      split
      · next h => rw [and_iff_right h]
      · next h => exact iff_of_false List.not_mem_nil fun hmem => h hmem.1
    rw [boundNames.ofElements, List.mem_append, ih, List.exists_mem_cons_iff, hhere]
    rfl

theorem mem_boundNames_node_iff {i : NodeInfo} {children : List Ast} :
    name ∈ boundNames f (.node i children) ↔ i.kind = .identifier ∧ name = written f i ∨
      (i.kind = .objectBindingPattern ∨ i.kind = .arrayBindingPattern) ∧
        name ∈ boundNames.ofElements f children := by
  rw [boundNames]
  split
  · next h => simp [h, written]
  · next h => simp [h]
  · next h => simp [h]
  · next hidentifier hobject harray =>
    refine iff_of_false List.not_mem_nil ?_
    rintro (⟨hkind, -⟩ | ⟨hkind | hkind, -⟩)
    · exact hidentifier hkind
    · exact hobject hkind
    · exact harray hkind

theorem binds_of_mem_boundNames (a : Ast) (h : name ∈ boundNames f a) : Binds (written f) a name := by
  match a with
  | .node i children =>
    rcases mem_boundNames_node_iff.mp h with ⟨hname, rfl⟩ | ⟨hpattern, hmem⟩
    · exact .name hname
    · obtain ⟨⟨j, parts⟩, helement, hkind, hparts⟩ := mem_ofElements_iff.mp hmem
      obtain ⟨target, htarget, htargets⟩ := mem_ofParts_iff.mp hparts
      have hlt := List.sizeOf_lt_of_mem helement
      have hlt' : sizeOf target < sizeOf parts :=
        List.sizeOf_lt_of_mem (List.mem_of_find?_eq_some htarget)
      exact .element hpattern helement hkind htarget (binds_of_mem_boundNames target htargets)
  termination_by sizeOf a
  decreasing_by
    simp only [Ast.node.sizeOf_spec] at *
    lia

theorem mem_boundNames_iff : name ∈ boundNames f a ↔ Binds (written f) a name := by
  refine ⟨binds_of_mem_boundNames a, fun h => ?_⟩
  induction h with
  | name hname => exact mem_boundNames_node_iff.mpr (.inl ⟨hname, rfl⟩)
  | element hpattern hmem helement htarget _ ih =>
    exact mem_boundNames_node_iff.mpr (.inr ⟨hpattern, mem_ofElements_iff.mpr
      ⟨_, hmem, helement, mem_ofParts_iff.mpr ⟨_, htarget, ih⟩⟩⟩)

theorem mem_declaredNames_of_declares (h : Declares (written f) a name) : name ∈ declaredNames f a := by
  unfold declaredNames
  cases h with
  | binding hkind htarget hbinds =>
    rcases hkind with hkind | hkind
    · simp only [hkind, htarget]
      exact mem_boundNames_iff.mpr hbinds
    · simp only [hkind, htarget]
      exact mem_boundNames_iff.mpr hbinds
  | definition hkind htarget =>
    rcases hkind with hkind | hkind
    · simp only [hkind, htarget]
      exact List.mem_singleton_self _
    · simp only [hkind, htarget]
      exact List.mem_singleton_self _

variable {hides : Ast → Bool} {place outer : Place} {b : Ast} {p q : Placed}

mutual

theorem mem_descendants_trans (a : Ast) (place : Place) (hp : p ∈ a.descendants hides place)
    (hopen : hides p.ast = false) (hq : q ∈ p.ast.descendants hides p.place) :
    q ∈ a.descendants hides place := by
  match a with
  | .node _ children =>
    rw [Ast.descendants] at hp ⊢
    exact mem_descendants_go_trans children place 0 hp hopen hq

theorem mem_descendants_go_trans (cs : List Ast) (place : Place) (index : Nat)
    (hp : p ∈ Ast.descendants.go hides place cs index) (hopen : hides p.ast = false)
    (hq : q ∈ p.ast.descendants hides p.place) : q ∈ Ast.descendants.go hides place cs index := by
  match cs with
  | [] => cases hp
  | c :: rest =>
    rw [Ast.descendants.go] at hp ⊢
    rcases List.mem_append.mp hp with hp | hp
    · refine List.mem_append_left _ (List.mem_cons_of_mem _ ?_)
      rcases List.mem_cons.mp hp with rfl | hp
      · rwa [hopen, if_neg Bool.false_ne_true]
      · split at hp
        · cases hp
        · next hc =>
          rw [if_neg hc]
          exact mem_descendants_trans c _ hp hopen hq
    · exact List.mem_append_right _ (mem_descendants_go_trans rest place (index + 1) hp hopen hq)

end

theorem mem_descendants_go {cs : List Ast} {i index : Nat} (hc : cs[i]? = some b) :
    ⟨(index + i) :: outer, b⟩ ∈ Ast.descendants.go hides outer cs index := by
  induction cs generalizing i index with
  | nil => cases hc
  | cons c rest ih =>
    rw [Ast.descendants.go]
    cases i with
    | zero =>
      cases hc
      exact List.mem_append_left _ List.mem_cons_self
    | succ i =>
      refine List.mem_append_right _ ?_
      rw [show index + (i + 1) = index + 1 + i by lia]
      exact ih hc

theorem mem_descendants_child {i : Nat} (hc : a.children[i]? = some b) :
    ⟨i :: outer, b⟩ ∈ a.descendants hides outer := by
  match a with
  | .node _ children =>
    rw [Ast.descendants]
    have hgo : ⟨(0 + i) :: outer, b⟩ ∈ Ast.descendants.go hides outer children 0 :=
      mem_descendants_go hc
    rwa [Nat.zero_add] at hgo

/-- The nearest node around a place that bounds, or the file. -/
def enclosing (bounds : Ast → Bool) (f : SourceFile) (place : Place) : Placed :=
  ((f.around place).find? (bounds ·.ast)).getD ⟨[], f.ast⟩

variable {bounds : Ast → Bool}

theorem enclosing_cons {i : Nat} (hat : f.ast.at? outer = some b) :
    enclosing bounds f (i :: outer) = if bounds b then ⟨outer, b⟩ else enclosing bounds f outer := by
  rw [enclosing, SourceFile.around, hat, Option.map_some, Option.toList_some, List.singleton_append,
    List.find?_cons]
  cases bounds b <;> rfl

theorem mem_descendants_enclosing (hat : f.ast.at? place = some a) (hne : place ≠ []) :
    ⟨place, a⟩ ∈ (enclosing bounds f place).ast.descendants bounds
      (enclosing bounds f place).place := by
  induction place generalizing a with
  | nil => exact absurd rfl hne
  | cons i outer ih =>
    rw [Ast.at?_cons] at hat
    obtain ⟨b, hb, ha⟩ := Option.bind_eq_some_iff.mp hat
    have hchild : ⟨i :: outer, a⟩ ∈ b.descendants bounds outer := mem_descendants_child ha
    rw [enclosing_cons hb]
    split
    · exact hchild
    · next hopen =>
      cases outer with
      | nil =>
        cases hb
        exact hchild
      | cons j rest =>
        exact mem_descendants_trans _ _ (ih hb (List.cons_ne_nil j rest))
          (Bool.eq_false_of_not_eq_true hopen) hchild

theorem mem_descendants_scopeOf (hat : f.ast.at? place = some a) (hne : place ≠ []) :
    ⟨place, a⟩ ∈ (scopeOf f place).ast.descendants boundsScope (scopeOf f place).place :=
  mem_descendants_enclosing hat hne

theorem scopeOf_child {i : Nat} (hat : f.ast.at? outer = some b) (hopen : boundsScope b = false) :
    scopeOf f (i :: outer) = scopeOf f outer := by
  refine (enclosing_cons hat).trans ?_
  rw [hopen, if_neg Bool.false_ne_true]
  rfl

theorem two_le_count_flatMap {l : List Placed} {g : Placed → List String} (hp : p ∈ l) (hq : q ∈ l)
    (hne : p ≠ q) (hpn : name ∈ g p) (hqn : name ∈ g q) : 2 ≤ (l.flatMap g).count name := by
  have hone : ∀ {x : Placed} {xs : List Placed}, x ∈ xs → name ∈ g x → 0 < (xs.flatMap g).count name :=
    fun hx hxn => List.count_pos_iff.mpr (List.mem_flatMap.mpr ⟨_, hx, hxn⟩)
  obtain ⟨front, back, rfl⟩ := List.append_of_mem hp
  rw [List.flatMap_append, List.flatMap_cons, List.count_append, List.count_append]
  have hpcount := List.count_pos_iff.mpr hpn
  rcases List.mem_append.mp hq with hq | hq
  · have := hone hq hqn
    lia
  · have := hone ((List.mem_cons.mp hq).resolve_left (Ne.symm hne)) hqn
    lia

theorem at?_of_mem_around (hp : p ∈ f.around place) : f.ast.at? p.place = some p.ast := by
  induction place with
  | nil => cases hp
  | cons i outer ih =>
    rw [SourceFile.around] at hp
    rcases List.mem_append.mp hp with hp | hp
    · obtain ⟨b, hb, rfl⟩ := Option.map_eq_some_iff.mp (Option.mem_toList.mp hp)
      exact hb
    · exact ih hp

theorem at?_enclosing (bounds : Ast → Bool) (f : SourceFile) (place : Place) :
    f.ast.at? (enclosing bounds f place).place = some (enclosing bounds f place).ast := by
  unfold enclosing
  cases hfind : (f.around place).find? (bounds ·.ast) with
  | none => rfl
  | some p => exact at?_of_mem_around (List.mem_of_find?_eq_some hfind)

theorem at?_scopeOf (f : SourceFile) (place : Place) :
    f.ast.at? (scopeOf f place).place = some (scopeOf f place).ast :=
  at?_enclosing boundsScope f place

/-- The places lie in the same scope. -/
def SameScope (f : SourceFile) (place place' : Place) : Prop :=
  (scopeOf f place).place = (scopeOf f place').place

theorem SameScope.eq (h : SameScope f place outer) : scopeOf f place = scopeOf f outer := by
  have hast := at?_scopeOf f place
  rw [h, at?_scopeOf] at hast
  exact congrArg₂ Placed.mk h (Option.some.inj hast).symm

theorem ne_nil_of_declares {word : NodeInfo → String} (hfile : f.ast.kind = .sourceFile)
    (hat : f.ast.at? place = some a) (h : Declares word a name) : place ≠ [] := by
  rintro rfl
  cases hat
  cases h with
  | binding hkind => rcases hkind with hkind | hkind <;> rw [hfile] at hkind <;> cases hkind
  | definition hkind => rcases hkind with hkind | hkind <;> rw [hfile] at hkind <;> cases hkind

/-- If a name is not counted twice in a scope, two nodes of the scope that declare it are one. -/
theorem eq_of_declares (hfile : f.ast.kind = .sourceFile)
    (hcount : ¬ 1 < (namesInScope f (scopeOf f place)).count name)
    (hp : f.ast.at? p.place = some p.ast) (hpscope : SameScope f p.place place)
    (hq : f.ast.at? q.place = some q.ast) (hqscope : SameScope f q.place place)
    (hpn : Declares (written f) p.ast name) (hqn : Declares (written f) q.ast name) : p = q := by
  have hmem : ∀ {x : Placed}, f.ast.at? x.place = some x.ast → SameScope f x.place place →
      Declares (written f) x.ast name →
      x ∈ (scopeOf f place).ast.descendants boundsScope (scopeOf f place).place := by
    intro x hx hscope hxn
    rw [← hscope.eq]
    exact mem_descendants_scopeOf hx (ne_nil_of_declares hfile hx hxn)
  by_contra hne
  exact hcount (two_le_count_flatMap (hmem hp hpscope hpn) (hmem hq hqscope hqn) hne
    (mem_declaredNames_of_declares hpn) (mem_declaredNames_of_declares hqn))

/-- The declaration is one of those of a variable statement, and binds the name. -/
def BindsBy (word : NodeInfo → String) (statement declaration : Placed) (name : String) : Prop :=
  ∃ list target, statement.child? .declarations = some list ∧
    list.ast.kind = .variableDeclarationList ∧ declaration ∈ list.childrenOf .declarations ∧
    declaration.ast.kind = .variableDeclaration ∧ declaration.ast.child? .name = some target ∧
    Binds word target name

section Statements

variable {word : NodeInfo → String} {statement declaration : Placed}

theorem BindsBy.placed (h : BindsBy word statement declaration name)
    (hat : f.ast.at? statement.place = some statement.ast)
    (hkind : statement.ast.kind = .variableStatement) :
    f.ast.at? declaration.place = some declaration.ast ∧
      SameScope f declaration.place statement.place ∧ Declares word declaration.ast name := by
  obtain ⟨list, target, hlist, hlistKind, hmem, hdeclaration, htarget, hbinds⟩ := h
  obtain ⟨-, i, hi, hlistAt⟩ := child?_spec hlist
  obtain ⟨-, j, hj, hdeclarationAt⟩ := childrenOf_spec hmem
  have hat' : f.ast.at? list.place = some list.ast := by
    rw [hi, Ast.at?_cons, hat]
    exact hlistAt
  refine ⟨?_, ?_, .binding (.inl hdeclaration) htarget hbinds⟩
  · rw [hj, Ast.at?_cons, hat']
    exact hdeclarationAt
  · rw [SameScope, hj, scopeOf_child hat' (by rw [boundsScope, hlistKind]), hi,
      scopeOf_child hat (by rw [boundsScope, hkind])]

theorem BindsBy.mem_namesOf (h : BindsBy (written f) statement declaration name) :
    name ∈ namesOf f statement := by
  obtain ⟨list, target, hlist, -, hmem, -, htarget, hbinds⟩ := h
  rw [namesOf, (child?_spec hlist).1]
  exact List.mem_flatMap.mpr ⟨_, (childrenOf_spec hmem).1, by
    rw [htarget]
    exact mem_boundNames_iff.mpr hbinds⟩

end Statements

variable {c : RepairContext SourceFile}

/-- The kinds of the nodes right inside which a let declaration may stand. -/
def letPlaces : List String :=
  [Kind.sourceFile, .block, .moduleBlock, .caseClause, .defaultClause].map Kind.name

/-- The node stands where a let declaration may. -/
def LetStands (t : Tree) (h : Handle) : Prop :=
  ∃ p kind, t.parent h = .ok (some p) ∧ t.kind p = .ok kind ∧ kind ∈ letPlaces

theorem mem_letPlaces_iff : a.kind.name ∈ letPlaces ↔ holdsStatements a = true := by
  unfold holdsStatements
  cases a.kind <;> decide

/-- What the repair of a var statement has made: a node that is read from the text of the statement with the
keyword exchanged, in the place of the statement. -/
structure Exchanged (c : RepairContext SourceFile) (f : SourceFile) (statement outer : Placed)
    (edits : List Edit) (edited : Tree) : Prop where
  flagged : Context.flagged? c .variableStatement = .ok (some (f, statement))
  origin : c.tree.origin c.node = .ok (some statement.place)
  at_place : f.ast.at? statement.place = some statement.ast
  kind : statement.ast.kind = .variableStatement
  around : (f.around statement.place).head? = some outer
  read : ∃ old offset r, edits = [.replace c.node r] ∧ c.tree.textOf c.node = .ok old ∧
    old.slice offset (offset + (Text.ofString "var").length) = .ofString "var" ∧
    c.fragments.statement (old.take offset ++ .ofString "let" ++
      old.drop (offset + (Text.ofString "var").length)) = .ok r ∧
    edited.kind c.tree.nextHandle = .ok r.kind
  seated : ∃ p, c.tree.parent c.node = .ok (some p) ∧
    edited.parent c.tree.nextHandle = .ok (some p) ∧ edited.kind p = .ok outer.ast.kind.name

namespace Exchanged

variable {statement outer : Placed} {edits : List Edit} {edited : Tree}
  (h : Exchanged c f statement outer edits edited)
include h

theorem letStands_iff : LetStands edited c.tree.nextHandle ↔ holdsStatements outer.ast = true := by
  obtain ⟨p, -, hparent, hkind⟩ := h.seated
  constructor
  · rintro ⟨q, kind, hq, hqkind, hmem⟩
    cases hparent.symm.trans hq
    cases hkind.symm.trans hqkind
    exact mem_letPlaces_iff.mp hmem
  · exact fun hholds => ⟨p, _, hparent, hkind, mem_letPlaces_iff.mpr hholds⟩

theorem place_eq (hplace : (c.tree.origin c.node).toOption = some (some place)) :
    statement.place = place := by
  rw [h.origin] at hplace
  exact Option.some.inj (Option.some.inj hplace)

theorem holds_eq (place : Place) {holds : Bool}
    (hplace : (c.tree.origin c.node).toOption = some (some place))
    (haround : (f.around place).head?.map (holdsStatements ·.ast) = some holds) :
    holdsStatements outer.ast = holds := by
  rw [← h.place_eq hplace, h.around] at haround
  exact Option.some.inj haround

end Exchanged

theorem exists_exchanged (hc : Sound c f) {edits : List Edit} (hrun : noVar c = .ok (.applied edits))
    (targeted : Bool) : ∃ statement outer edited,
      c.tree.applyEditSets [⟨c.violation, edits, targeted⟩] = .ok edited ∧
      Exchanged c f statement outer edits edited ∧ ∀ name ∈ namesOf f statement,
        ¬ 1 < (namesInScope f (scopeOf f statement.place)).count name := by
  obtain ⟨edit, rfl, statement, -, old, offset, r, rfl, hflagged, -, hcount, hold, hword, hcode⟩ :=
    noVar_places hc edits hrun
  obtain ⟨⟨n, hn, horigin⟩, -⟩ := hc.flagged?_spec hflagged
  obtain ⟨-, hat, hkind⟩ := hc.flagged?_parsed hflagged
  obtain ⟨p, hp⟩ := hc.exists_parent hflagged nofun
  obtain ⟨edited, x, m, m', happly, hx, hxkind, hxparent, hm, hm', hsame⟩ :=
    hc.wellFormed.exists_replace hp r
  obtain ⟨place, a, hplace, houter, hname, -⟩ := hc.mirrors.stands p m hm
  refine ⟨statement, ⟨place, a⟩, edited, Tree.applyEditSets_lone ⟨n, hn⟩ happly _ _,
    ⟨hflagged, ?_, hat, hkind, ?_, ⟨old, offset, r, rfl, hold, hword, hcode, ?_⟩, p, ?_, ?_, ?_⟩, hcount⟩
  · rw [← horigin]
    exact Tree.origin_eq hn
  · -- The parent of the node stands for the node around the place of the statement.
    obtain ⟨y, i, outer, hy, hyorigin, hinner⟩ := hc.mirrors.around p c.node n hp hn
    obtain rfl : m = y := Option.some.inj (hm.symm.trans hy)
    obtain rfl : place = outer := Option.some.inj (hplace.symm.trans hyorigin)
    rw [Option.some.inj (horigin.symm.trans hinner), SourceFile.around, houter]
    rfl
  · rw [← hxkind]
    exact Tree.kind_eq hx
  · obtain ⟨n', hn', hparent⟩ := hp
    rw [← hparent]
    exact Tree.parent_eq hn'
  · rw [← hxparent]
    exact Tree.parent_eq hx
  · rw [← hname, ← hsame]
    exact Tree.kind_eq hm'

/-- The repair of a var statement puts a let declaration in its place, where it is allowed exactly if the node
around holds statements; and no name that the statement binds is bound in its scope by anything but the one
declaration, as names are written. -/
theorem noVar_exchanges {text : Text} {path : String} {template : Template} {edits : List Edit}
    (hread : parse text path = .ok (template, f)) (htree : c.tree = .ofTemplate path text template)
    (hparsed : c.parsed = some f) (hrun : noVar c = .ok (.applied edits)) (targeted : Bool) :
    ∃ statement outer edited, c.tree.applyEditSets [⟨c.violation, edits, targeted⟩] = .ok edited ∧
      Exchanged c f statement outer edits edited ∧
      (LetStands edited c.tree.nextHandle ↔ holdsStatements outer.ast = true) ∧
      ∀ declaration name, BindsBy (written f) statement declaration name →
        SameScope f declaration.place statement.place ∧ Declares (written f) declaration.ast name ∧
        ∀ other : Placed, f.ast.at? other.place = some other.ast →
          SameScope f other.place statement.place → Declares (written f) other.ast name →
          other = declaration := by
  have hc : Sound c f := .of_parse hread htree hparsed
  obtain ⟨statement, outer, edited, hedited, hexchanged, hcount⟩ := exists_exchanged hc hrun targeted
  refine ⟨statement, outer, edited, hedited, hexchanged, hexchanged.letStands_iff,
    fun declaration name hbinds => ?_⟩
  obtain ⟨hplaced, hscope, hdeclares⟩ := hbinds.placed hexchanged.at_place hexchanged.kind
  refine ⟨hscope, hdeclares, fun other hother hotherScope hotherDeclares => ?_⟩
  exact eq_of_declares hc.kind (hcount name hbinds.mem_namesOf) hother hotherScope hplaced hscope
    hotherDeclares hdeclares

/-- How a statement for a typed file is read. -/
def typedStatement (code : Text) : Except Fault Template :=
  let plain := withoutMark code
  let f := SourceFile.read {} (.ofText plain)
  match f.errors with
  | c :: _ => .error (.invalidFragment "statement" code.toString (SourceFile.describe plain c))
  | [] =>
    match f.ast.childrenOf .statements with
    | [a] => .ok (templateOf (.ofText code) false [] a)
    | _ => .error (.notSingleFragment "statement" code.toString)

theorem statement_typed : (Syntax.fragments "a.ts").statement = typedStatement := by
  funext code
  simp only [Syntax.fragments, snippet, typedStatement, ofPath_snippet, List.nil_append, List.append_nil]
  generalize SourceFile.read {} (.ofText (withoutMark code)) = f
  cases f.errors with
  | cons => rfl
  | nil =>
    rcases f.ast.childrenOf .statements with _ | ⟨a, _ | ⟨b, rest⟩⟩
    · rfl
    · rfl
    · rfl

/-- The context of a violation in a typed file whose nodes are listed in order, with the statements read as
those of typed files are. -/
def typedContext (text : Text) (v : Violation) : RepairContext SourceFile :=
  { listedContext text v with fragments := { Syntax.fragments "a.ts" with statement := typedStatement } }

theorem exists_noVar_listed {text : Text} {v : Violation}
    (h : ((noVar (typedContext text v)).edits?).isSome = true) :
    ∃ edits, noVar (listedContext text v) = .ok (.applied edits) := by
  obtain ⟨edits, hedits⟩ := Option.isSome_iff_exists.mp h
  refine ⟨edits, ?_⟩
  rw [← eq_of_edits? hedits, typedContext, ← statement_typed]
  rfl

def varAt (h : Handle) (location : Location) : Violation :=
  { debuggerViolation with ruleId := "no-var", nodeKind := "VariableStatement", node := h, location }

/-- The node is a variable whose name passes the test. -/
def declaresBy (test : Ast → Bool) (a : Ast) : Bool :=
  a.kind = .variableDeclaration && (a.child? .name).any test

/-- The statement has a variable at the place whose name passes the test. -/
def hasVariable (test : Ast → Bool) (place : Place) (statement : Placed) : Bool :=
  (statement.child? .declarations).any fun list => list.ast.kind = .variableDeclarationList &&
    (list.childrenOf .declarations).any fun d => d.place = place && declaresBy test d.ast

section Tests

variable {word : NodeInfo → String} {test : Ast → Bool}
  (htest : ∀ target, test target = true → Binds word target name)
include htest

theorem declaresBy_spec (h : declaresBy test a = true) :
    a.kind = .variableDeclaration ∧ ∃ target, a.child? .name = some target ∧ Binds word target name := by
  simp only [declaresBy, Bool.and_eq_true, decide_eq_true_eq, Option.any_eq_true] at h
  obtain ⟨hkind, target, htarget, hpass⟩ := h
  exact ⟨hkind, target, htarget, htest target hpass⟩

theorem bindsBy_of_hasVariable {statement : Placed} (h : hasVariable test place statement = true) :
    ∃ declaration, declaration.place = place ∧ BindsBy word statement declaration name := by
  simp only [hasVariable, Bool.and_eq_true, decide_eq_true_eq, Option.any_eq_true, List.any_eq_true] at h
  obtain ⟨list, hlist, hlistKind, declaration, hmem, rfl, hdeclares⟩ := h
  obtain ⟨hkind, target, htarget, hbinds⟩ := declaresBy_spec htest hdeclares
  exact ⟨declaration, rfl, list, target, hlist, hlistKind, hmem, hkind, htarget, hbinds⟩

end Tests

def patternText : Text :=
  .ofString "\x7b var [a, \x7b b: c \x7d] = d; function f() \x7b var c; \x7d \x7d\n"

def patternFile : SourceFile := .read {} (.ofText patternText)

/-- A statement in a block that binds two names; a function beside it has a variable of the second name. -/
def patternVar : RepairContext SourceFile := listedContext patternText (varAt 2 ⟨1, 3, 2, 25⟩)

theorem noVar_exchanges_pattern : ∃ edits edited, noVar patternVar = .ok (.applied edits) ∧
    patternVar.tree.applyEditSets [⟨patternVar.violation, edits, true⟩] = .ok edited ∧
    LetStands edited patternVar.tree.nextHandle ∧
    ∀ other : Placed, patternFile.ast.at? other.place = some other.ast →
      SameScope patternFile other.place [0, 0] → Declares (written patternFile) other.ast "c" →
      other.place = [0, 0, 0, 0] := by
  obtain ⟨edits, hrun⟩ : ∃ edits, noVar patternVar = .ok (.applied edits) :=
    exists_noVar_listed (by decide +kernel)
  have hcontext : AsRead patternText "a.ts" patternFile patternVar := asRead_listed (by decide +kernel) _
  obtain ⟨template, hread, htree⟩ := hcontext.read
  obtain ⟨⟨place, a⟩, outer, edited, hedited, hexchanged, hstands, hsole⟩ :=
    noVar_exchanges hread htree hcontext.parsed hrun true
  obtain rfl : place = [0, 0] := hexchanged.place_eq (by decide +kernel)
  have hholds : holdsStatements outer.ast = true :=
    hexchanged.holds_eq [0, 0] (by decide +kernel) (by decide +kernel)
  refine ⟨edits, edited, hrun, hedited, hstands.mpr hholds, ?_⟩
  have hvariable : (patternFile.ast.at? [0, 0]).map (fun a => hasVariable
      (fun target => decide ("c" ∈ boundNames patternFile target)) [0, 0, 0, 0] ⟨[0, 0], a⟩) =
      some true := by decide +kernel
  rw [hexchanged.at_place] at hvariable
  obtain ⟨declaration, hplace, hbinds⟩ := bindsBy_of_hasVariable
    (fun target h => mem_boundNames_iff.mp (of_decide_eq_true h)) (Option.some.inj hvariable)
  intro other hother hscope hdeclares
  rw [← hplace, (hsole declaration "c" hbinds).2.2 other hother hscope hdeclares]

/-- The word that stands there once its escapes are undone. -/
def said (i : NodeInfo) : String := i.text.toString

def isNamed (name : String) (a : Ast) : Bool := a.kind = .identifier && said a.info = name

theorem binds_of_isNamed (a : Ast) (h : isNamed name a = true) : Binds said a name := by
  simp only [isNamed, Bool.and_eq_true, decide_eq_true_eq] at h
  obtain ⟨i, children⟩ := a
  obtain ⟨hname, rfl⟩ := h
  exact .name hname

def bodyText : Text := .ofString "if (x) var a = 1;\n"

/-- A statement that is the body of another one. -/
def bodyVar : RepairContext SourceFile := listedContext bodyText (varAt 3 ⟨1, 8, 7, 17⟩)

def escapedText : Text := .ofString "var \\u0061 = 1;\nvar a = 2;\n"

/-- A name with an escape, which is declared once more without it. -/
def escapedVar : RepairContext SourceFile := listedContext escapedText (varAt 1 ⟨1, 1, 0, 15⟩)

/-- The repair asks neither what the statement stands in nor what a name says: it puts a let declaration
where none is allowed, and one that binds a name of another declaration. -/
theorem noVar_misses :
    (¬ ∀ text path f c edits edited, AsRead text path f c → flags noVarCheck f c = true →
      noVar c = .ok (.applied edits) →
      c.tree.applyEditSets [⟨c.violation, edits, true⟩] = .ok edited →
      LetStands edited c.tree.nextHandle) ∧
    ¬ ∀ text path f c statement edits declaration name, AsRead text path f c →
      flags noVarCheck f c = true →
      Context.flagged? c .variableStatement = .ok (some (f, statement)) →
      noVar c = .ok (.applied edits) → BindsBy said statement declaration name →
      ∀ other : Placed, f.ast.at? other.place = some other.ast →
        SameScope f other.place statement.place → Declares said other.ast name →
        other = declaration := by
  constructor
  · intro hlegal
    obtain ⟨edits, hrun⟩ : ∃ edits, noVar bodyVar = .ok (.applied edits) :=
      exists_noVar_listed (by decide +kernel)
    have hcontext : AsRead bodyText "a.ts" _ bodyVar := asRead_listed (by decide +kernel) _
    obtain ⟨statement, outer, edited, hedited, hexchanged, -⟩ :=
      exists_exchanged hcontext.sound hrun true
    have hstands := hlegal _ _ _ bodyVar edits edited hcontext (by decide +kernel) hrun hedited
    have hholds : holdsStatements outer.ast = false :=
      hexchanged.holds_eq [1, 0] (by decide +kernel) (by decide +kernel)
    exact Bool.eq_false_iff.mp hholds (hexchanged.letStands_iff.mp hstands)
  · intro hsole
    obtain ⟨edits, hrun⟩ : ∃ edits, noVar escapedVar = .ok (.applied edits) :=
      exists_noVar_listed (by decide +kernel)
    have hcontext : AsRead escapedText "a.ts" _ escapedVar := asRead_listed (by decide +kernel) _
    obtain ⟨⟨place, a⟩, outer, edited, -, hexchanged, -⟩ := exists_exchanged hcontext.sound hrun true
    obtain rfl : place = [0] := hexchanged.place_eq (by decide +kernel)
    have hfirst : ((SourceFile.read {} (.ofText escapedText)).ast.at? [0]).map
        (fun a => hasVariable (isNamed "a") [0, 0, 0] ⟨[0], a⟩) = some true := by decide +kernel
    rw [hexchanged.at_place] at hfirst
    obtain ⟨declaration, hplace, hbinds⟩ := bindsBy_of_hasVariable binds_of_isNamed
      (Option.some.inj hfirst)
    have hsecond : ((SourceFile.read {} (.ofText escapedText)).ast.at? [0, 0, 1]).any
        (declaresBy (isNamed "a")) = true := by decide +kernel
    rw [Option.any_eq_true] at hsecond
    obtain ⟨b, hb, hother⟩ := hsecond
    obtain ⟨hkind, target, htarget, hotherBinds⟩ := declaresBy_spec binds_of_isNamed hother
    have hscope : SameScope (.read {} (.ofText escapedText)) [0, 0, 1] [0] := by
      unfold SameScope
      decide +kernel
    have hsame := hsole _ _ _ escapedVar ⟨[0], a⟩ edits declaration "a" hcontext (by decide +kernel)
      hexchanged.flagged hrun hbinds ⟨[0, 0, 1], b⟩ hb hscope
      (.binding (.inl hkind) htarget hotherBinds)
    rw [← hsame] at hplace
    cases hplace

end LintRepair.Rules
