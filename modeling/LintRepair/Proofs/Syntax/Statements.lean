import LintRepair.Proofs.Syntax.Expressions

/-!
# Where statements end

A statement begins where the trivia before its first token does, and ends where the trivia before the next token
begins, unless the grammar complains. What is put around a statement that is an expression in brackets, or a switch
with one clause, is therefore all that stands around what is inside.
-/
namespace LintRepair.Syntax.Grammar.Reader

variable {α : Type} {start : Nat}

/-! ## What may be read behind a node -/

/-- Whatever is read behind the node, what is put together after it begins at the offset. -/
class SpansBehind (start : Nat) (a : Branch) (x : Reader Branch) : Prop where
  spans : ∀ s t : State, s.token.Sound s.source → Spans start a s → s.Leads t →
    Spans start (x.run t).1 (x.run t).2

instance spansBehind_of_spansFrom {a : Branch} {x : Reader Branch} [h : SpansFrom start x] :
    SpansBehind start a x := ⟨fun _ t hs _ hst => h.spans t (hst.sound hs)⟩

instance spansBehind_bind {a : Branch} {x : Reader α} {f : α → Reader Branch}
    [h : ∀ b, SpansBehind start a (f b)] : SpansBehind start a (x >>= f) :=
  ⟨fun s t hs ha hst => (h _).spans s _ hs ha (hst.trans (x.leads t))⟩

instance {a : Branch} {c : Prop} [Decidable c] {x y : Reader Branch} [SpansBehind start a x]
    [SpansBehind start a y] : SpansBehind start a (if c then x else y) := by
  split <;> infer_instance

theorem spansAt_behind {x : Reader Branch} {f : Branch → Reader Branch} [hx : SpansAt start x]
    (h : ∀ a, SpansBehind start a (f a)) : SpansAt start (x >>= f) := by
  refine ⟨fun s hs hstart => ?_⟩
  have hleads := x.leads s
  exact (h _).spans _ _ (hleads.sound hs) (hx.spans s hs hstart) (State.leads_refl _)

/-- What is behind a node is complained about and skipped. -/
instance {x : Reader Branch} {k : Kind} {cause : Cause} [hx : SpansFrom start x] :
    SpansFrom start (do
      let a ← x
      if ← isAt k then
        complain cause
        next
      return a) := by
  refine ⟨fun s hs => ?_⟩
  have hspans := hx.spans s hs
  rw [run_bind, run_bind]
  split
  · have hnext := next.leads ((complain cause).run (x.run s).2).2
    refine hspans.complained (((complain cause).leads (x.run s).2).trans hnext) fun hquiet => ?_
    exact complaints_complain cause (x.run s).2 (complaints_of_leads hnext hquiet)
  · exact hspans

/-! ## Lists -/

section Lists

variable {l : ListContext} {element : Reader Branch} {fuel : Nat} {nodes result : Array Branch} {a : Branch}
  {s t : State}

theorem prefix_elements (l : ListContext) (element : Reader Branch) (fuel : Nat) (nodes : Array Branch)
    (s : State) : nodes.toList <+: ((elements l element fuel nodes).run s).1.toList := by
  induction fuel generalizing nodes s with
  | zero => exact List.prefix_rfl
  | succ fuel ih =>
    rw [elements, run_bind]
    split
    · exact List.prefix_rfl
    · rw [run_bind]
      split
      · rw [run_bind]
        refine List.IsPrefix.trans ?_ (ih _ _)
        rw [Array.toList_push]
        exact List.prefix_append _ _
      · rw [run_bind]
        split
        · exact List.prefix_rfl
        · exact ih _ _

theorem complaints_abandons (l : ListContext) (s : State) : ((abandons l).run s).2.complaints ≠ #[] := by
  intro hnone
  rw [abandons, run_bind, run_bind] at hnone
  exact complaints_complain _ _ (complaints_of_leads (Reader.leads _ _) hnone)

/-- Without complaints a list ends at the current token, or an element is read there. -/
theorem elements_cases [hends : Looks l.ends] [hstarts : Looks (l.startsElement false)]
    (h : (elements l element (fuel + 1) nodes).run s = (result, t)) (hquiet : t.complaints = #[]) :
    ((l.ends.run s).1 = true ∧ result = nodes ∧ s.Leads t ∧ t.token = s.token) ∨
    ((l.ends.run s).1 = false ∧ ∃ u, s.Leads u ∧ u.token = s.token ∧
      (elements l element fuel (nodes.push (element.run u).1)).run (element.run u).2 = (result, t)) := by
  rw [elements, run_bind] at h
  cases hend : (l.ends.run s).1 with
  | true =>
    rw [hend, if_pos rfl] at h
    cases h
    exact .inl ⟨rfl, rfl, l.ends.leads s, hends.token_eq s⟩
  | false =>
    rw [hend, if_neg Bool.false_ne_true, run_bind] at h
    split at h
    · refine .inr ⟨rfl, _, (l.ends.leads s).trans ((l.startsElement false).leads _), ?_, h⟩
      exact (hstarts.token_eq _).trans (hends.token_eq s)
    · rw [run_bind] at h
      exact absurd (complaints_of_leads (leads_of_run h) hquiet) (complaints_abandons l _)

theorem run_list {items : Items} (h : (list l element).run s = (items, t)) : ∃ nodes u,
    t = { u with lists := s.lists } ∧ items.nodes = nodes.toList ∧
    (elements l element (2 * (s.source.size + 2)) #[]).run { s with lists := l :: s.lists } = (nodes, u) := by
  cases h
  exact ⟨_, _, rfl, rfl, rfl⟩

/-! ### The first and the only element -/

variable [Looks l.ends] [Looks (l.startsElement false)] [helement : ∀ i, SpansAt i element]

/-- The first element of a list begins where the list does. -/
theorem elements_first (h : (elements l element (fuel + 1) #[]).run s = (result, t)) (hs : s.token.Sound s.source)
    (hquiet : t.complaints = #[]) (ha : result.toList.head? = some a) :
    ∃ v, Spans s.token.fullStart a v ∧ s.Leads v ∧ v.Leads t := by
  obtain ⟨-, rfl, -⟩ | ⟨-, u, hsu, hu, hrest⟩ := elements_cases h hquiet
  · cases ha
  · refine ⟨_, ?_, hsu.trans (element.leads u), leads_of_run hrest⟩
    obtain ⟨later, hlater⟩ := prefix_elements l element fuel (#[].push (element.run u).1) (element.run u).2
    rw [hrest] at hlater
    rw [← hlater] at ha
    obtain rfl : (element.run u).1 = a := Option.some.inj ha
    exact (helement _).spans u (hsu.sound hs) (congrArg Token.fullStart hu)

/-- The only element of a list ends where the list does. -/
theorem elements_sole (h : (elements l element (fuel + 2) #[]).run s = (#[a], t)) (hs : s.token.Sound s.source)
    (hquiet : t.complaints = #[]) :
    Spans s.token.fullStart a t ∧ (l.ends.run s).1 = false ∧
      ∃ v : State, v.token = t.token ∧ (l.ends.run v).1 = true := by
  obtain ⟨-, hnone, -⟩ | ⟨hmore, u, hsu, hu, hrest⟩ := elements_cases h hquiet
  · cases hnone
  · have hspans := (helement _).spans u (hsu.sound hs) (congrArg Token.fullStart hu)
    obtain ⟨hend, hsole, hleads, htoken⟩ | ⟨-, v, -, -, hmany⟩ := elements_cases hrest hquiet
    · obtain rfl : a = (element.run u).1 := by simpa using hsole
      exact ⟨hspans.leads hleads (congrArg Token.fullStart htoken), hmore, _, htoken.symm, hend⟩
    · obtain ⟨later, hlater⟩ := prefix_elements l element fuel
        ((#[].push (element.run u).1).push (element.run v).1) (element.run v).2
      rw [hmany] at hlater
      cases hlater

theorem list_first {items : Items} (h : (list l element).run s = (items, t)) (hs : s.token.Sound s.source)
    (hquiet : t.complaints = #[]) (ha : items.nodes.head? = some a) :
    ∃ v, Spans s.token.fullStart a v ∧ s.Leads v ∧ v.Leads t := by
  obtain ⟨nodes, u, rfl, hnodes, hrun⟩ := run_list h
  rw [hnodes] at ha
  obtain ⟨v, hspans, hsv, hvu⟩ := elements_first hrun hs hquiet ha
  exact ⟨v, hspans, ⟨hsv.source, hsv.dialect, hsv.complaints, hsv.sound⟩,
    ⟨hvu.source, hvu.dialect, hvu.complaints, hvu.sound⟩⟩

theorem list_sole {items : Items} (h : (list l element).run s = (items, t)) (hs : s.token.Sound s.source)
    (hquiet : t.complaints = #[]) (ha : items.nodes = [a]) :
    Spans s.token.fullStart a t ∧ (∃ u : State, u.token = s.token ∧ (l.ends.run u).1 = false) ∧
      ∃ v : State, v.token = t.token ∧ (l.ends.run v).1 = true := by
  obtain ⟨nodes, u, rfl, hnodes, hrun⟩ := run_list h
  obtain rfl : nodes = #[a] := Array.toList_inj.mp (hnodes.symm.trans ha)
  obtain ⟨hspans, hmore, hend⟩ := elements_sole hrun hs hquiet
  exact ⟨⟨hspans.fullStart_eq, hspans.stands, hspans.stop_eq, hspans.laid⟩,
    ⟨{ s with lists := l :: s.lists }, rfl, hmore⟩, hend⟩

end Lists

instance : Looks ListContext.switchClauses.ends := by
  unfold ListContext.ends
  infer_instance

instance : Looks (ListContext.switchClauses.startsElement false) := by
  unfold ListContext.startsElement
  infer_instance

instance : Looks ListContext.sourceElements.ends := by
  unfold ListContext.ends
  infer_instance

instance : Looks (ListContext.sourceElements.startsElement false) := by
  unfold ListContext.startsElement
  infer_instance

theorem label_as (a : Ast) (l : Label) : (a.as l).info.label = l := by
  cases a
  rfl

theorem filter_many (l : Label) (xs : Items) :
    ((Parts.many l xs).children.map (·.ast)).filter (fun a => a.info.label = l) = xs.nodes.map (·.ast.as l) := by
  change ((xs.nodes.map (·.as l)).map (·.ast)).filter _ = _
  rw [List.map_map, List.filter_eq_self.mpr]
  · rfl
  · intro a ha
    obtain ⟨b, -, rfl⟩ := List.mem_map.mp ha
    exact decide_eq_true (label_as b.ast l)

section Productions

-- Each branch of a production counts.
set_option synthInstance.maxSize 20000

variable (goals : Goals) [ReadsValues goals] (k : Kind) (modifiers : Option Items)

instance : SpansFrom start (variableStatement goals start modifiers) := by
  unfold variableStatement
  infer_instance

instance : SpansFrom start (functionDeclaration goals start modifiers) := by
  unfold functionDeclaration
  infer_instance

instance : SpansFrom start (interfaceDeclaration goals start modifiers) := by
  unfold interfaceDeclaration
  infer_instance

instance : SpansFrom start (aliasDeclaration goals start modifiers) := by
  unfold aliasDeclaration
  repeat' first
    | infer_instance
    | refine spansFrom_bind (h := fun _ => ?_)
    | split
    | dsimp only

instance : SpansFrom start (enumDeclaration goals start modifiers) := by
  unfold enumDeclaration
  infer_instance

instance : SpansFrom start (moduleDeclaration goals start modifiers) := by
  unfold moduleDeclaration
  infer_instance

instance : SpansFrom start (importDeclaration goals start modifiers) := by
  unfold importDeclaration
  refine spansFrom_bind (h := fun _ => spansFrom_bind (h := fun _ => ?_))
  extract_lets front ending named
  refine spansFrom_bind (h := fun _ => ?_)
  -- What follows in the declaration is the same whatever stands before it, so it is looked at once.
  have hnamed : ∀ first, SpansFrom start (named first) := by
    intro first
    dsimp -zeta only [named]
    extract_lets typed
    have htyped : ∀ isType, SpansFrom start (typed isType) := by
      intro isType
      dsimp -zeta only [typed]
      extract_lets rest
      have hrest : ∀ target, SpansFrom start (rest target) := by
        intro target
        dsimp only [rest]
        cases target <;> infer_instance
      clear_value rest
      infer_instance
    clear_value typed
    infer_instance
  clear_value named
  infer_instance

instance : SpansFrom start (exportDeclaration goals start modifiers) := by
  unfold exportDeclaration
  infer_instance

instance : SpansFrom start (exportAssignment goals start modifiers) := by
  unfold exportAssignment
  infer_instance

instance : SpansFrom start (exported goals start modifiers) := by
  unfold exported
  refine spansFrom_bind (h := fun _ => spansFrom_bind (h := fun _ => ?_))
  split <;> infer_instance

instance : SpansAt start (ifStatement goals) := by
  unfold ifStatement
  infer_instance

instance : SpansAt start (doStatement goals) := by
  unfold doStatement
  infer_instance

instance [IsFalse k.isFrame] : SpansAt start (headed goals k) := by
  unfold headed
  infer_instance

instance : SpansAt start (forStatement goals) := by
  unfold forStatement
  infer_instance

instance [IsFalse k.isFrame] : SpansAt start (jump k) := by
  unfold jump
  infer_instance

instance : SpansAt start (returnStatement goals) := by
  unfold returnStatement
  infer_instance

instance : SpansAt start (throwStatement goals) := by
  unfold throwStatement
  infer_instance

instance : SpansAt start (clause goals) := by
  unfold clause
  infer_instance

/-- Nothing but trivia stands between the only clause of a switch and the braces. -/
instance spansFrom_switch {e : Branch} : SpansFrom start (do
    let blockStart ← here
    let _ ← expect .openBraceToken
    let clauses ← list .switchClauses (clause goals)
    let _ ← expect .closeBraceToken
    let block ← finish .caseBlock blockStart (.many .clauses clauses)
    finish .switchStatement start (.one .expression e ++ .one .block block)) := by
  obtain ⟨⟨i, cs⟩, hfileless⟩ := e
  refine ⟨fun s hs => ?_⟩
  have hopen := (expect .openBraceToken).leads s
  rcases hlist : (list .switchClauses (clause goals)).run ((expect .openBraceToken).run s).2 with ⟨items, u⟩
  have hclose := (expect .closeBraceToken).leads u
  have hsource := (hclose.source.trans (leads_of_run hlist).source).trans hopen.source
  simp only [run_bind, run_here, hlist]
  refine spans_finish fun hquiet => ⟨nofun, nofun, nofun, fun _ block c hblock hc => ?_⟩
  cases hblock
  obtain ⟨⟨⟨j, ds⟩, _⟩, hsole, rfl⟩ := List.map_eq_singleton_iff.mp ((filter_many _ _).symm.trans hc)
  have hspans := list_sole hlist (hopen.sound hs) (complaints_of_leads hclose hquiet) hsole
  have hfills := fills_brackets (k := .caseBlock) (p := .many .clauses items) (f := fun i => i) rfl rfl hs
    (leads_of_run hlist) hspans.1 hquiet
  rw [← hsource] at hfills
  exact hfills

instance : SpansAt start (switchStatement goals) := by
  unfold switchStatement
  infer_instance

instance : SpansAt start (plainBlock goals) := by
  unfold plainBlock block
  infer_instance

instance : SpansAt start (tryStatement goals) := by
  unfold tryStatement
  infer_instance

instance spansBehind_expressionStatement {e : Branch} :
    SpansBehind start e (finish .expressionStatement start (.one .expression e)) := by
  obtain ⟨⟨i, cs⟩, hfileless⟩ := e
  refine ⟨fun s t _ he hst => spans_finish fun hquiet => ⟨nofun, nofun, fun _ => ?_, nofun⟩⟩
  intro e hchild hk
  change some (Ast.node { i with label := .expression } cs) = some e at hchild
  cases hchild
  rw [hst.source]
  exact (he.laid (complaints_of_leads hst hquiet)).brackets hk

instance : SpansAt start (expressionStatement goals) := by
  unfold expressionStatement
  exact @spansAt_here _ _ (spansAt_behind fun _ => inferInstance)

instance : SpansAt start (declaration goals) := by
  unfold declaration
  refine spansAt_here (h := spansAt_of_spansFrom (h := spansFrom_bind (h := fun _ =>
    spansFrom_bind (h := fun _ => ?_))))
  split <;> infer_instance

instance : SpansAt start (statement goals) := by
  unfold statement
  refine @spansAt_here _ _ (@spansAt_bind _ _ _ _ _ fun k => ?_)
  split <;> infer_instance

end Productions

/-! ## Files -/

section Files

variable {goals : Goals} [hstatement : ∀ i, SpansAt i (goals .statement)] {items : Items} {last a : Branch}
  {s t : State}

omit hstatement in
theorem run_readOnce (h : (readOnce goals).run s = ((items, last), t)) (hdata : s.dialect.data = false) :
    ∃ u, (list .sourceElements (goals .statement)).run s = (items, u) ∧ u.Leads t := by
  have hplain : (dialect.run s).1.data = false := hdata
  dsimp only [readOnce] at h
  rw [run_bind, hplain, if_neg Bool.false_ne_true, run_bind] at h
  have hlast := leads_of_run h
  cases h
  exact ⟨_, rfl, hlast⟩

theorem ends_sourceElements (s : State) :
    (ListContext.sourceElements.ends.run s).1 = decide (s.token.kind = .endOfFileToken) := by
  rw [ListContext.ends, run_bind, run_isAt]
  cases decide (s.token.kind = .endOfFileToken) <;> rfl

theorem token_startAt (s : State) : (s.startAt 0).token = s.source.token s.dialect {} 0 := token_accept s _

theorem sound_startAt (s : State) : (s.startAt 0).token.Sound (s.startAt 0).source := by
  rw [token_startAt, s.leads_startAt.source]
  exact Source.sound_token _ _ (.inl rfl)

/-- What is known of the text inside the first statement of a file, if there are no complaints. -/
theorem readOnce_first (hrun : (readOnce goals).run (s.startAt 0) = ((items, last), t))
    (hdata : s.dialect.data = false) (ha : items.nodes.head? = some a) (hquiet : t.complaints = #[]) :
    a.ast.Laid s.source := by
  have hstart := s.leads_startAt
  obtain ⟨u, hlist, hlast⟩ := run_readOnce hrun ((congrArg Dialect.data hstart.dialect).trans hdata)
  obtain ⟨v, hspans, hsv, hvu⟩ := list_first hlist (sound_startAt s) (complaints_of_leads hlast hquiet) ha
  rw [← hstart.source, ← hsv.source]
  exact hspans.laid (complaints_of_leads (hvu.trans hlast) hquiet)

/-- If a file is read as one statement without complaints, nothing but trivia stands around the statement. -/
theorem readOnce_sole (hrun : (readOnce goals).run (s.startAt 0) = ((items, last), t))
    (hdata : s.dialect.data = false) (ha : items.nodes = [a]) (hquiet : t.complaints = #[]) :
    a.start = s.source.skipTrivia 0 ∧ a.start < s.source.size ∧ a.start ≤ a.stop ∧
      s.source.size ≤ s.source.skipTrivia a.stop := by
  have hstart := s.leads_startAt
  have htoken := token_startAt s
  have hfirst := sound_startAt s
  generalize s.startAt 0 = first at hrun hstart htoken hfirst
  obtain ⟨u, hlist, hlast⟩ := run_readOnce hrun ((congrArg Dialect.data hstart.dialect).trans hdata)
  have hquietly := complaints_of_leads hlast hquiet
  have hleads := leads_of_run hlist
  obtain ⟨hspans, ⟨v, hv, hmore⟩, w, hw, hend⟩ := list_sole hlist hfirst hquietly ha
  rw [ends_sourceElements, hv] at hmore
  rw [ends_sourceElements, hw, decide_eq_true_eq] at hend
  have hsource : u.source = s.source := hleads.source.trans hstart.source
  have hsound := hleads.sound hfirst
  have hstands : a.ast.Stands u.source first.token.fullStart := hspans.stands
  have hstop : a.stop = u.token.fullStart := hspans.stop_eq hquietly
  rw [hsource] at hsound hstands
  rw [htoken] at hstands
  have hlong : s.source.skipTrivia 0 < s.source.size := by
    refine Nat.lt_of_not_le fun h => of_decide_eq_false hmore ?_
    rw [htoken]
    exact Source.kind_token h
  -- The end of the file does not begin the file, as the first token stands before it.
  have hbehind : u.token.fullStart ≠ 0 := by
    intro hzero
    have hending := hsound.ending hend
    rw [hzero] at hending
    exact absurd hlong (Nat.not_lt_of_le hending)
  have hreaches : s.source.skipTrivia 0 ≤ u.token.fullStart := hsound.fullStart.resolve_left hbehind
  have hstarts : a.start = s.source.skipTrivia 0 :=
    hstands.resolve_left fun h => hbehind (hstop.symm.trans h.2)
  rw [hstop]
  exact ⟨hstarts, hstarts ▸ hlong, hstarts ▸ hreaches, hsound.ending hend⟩

end Files

end LintRepair.Syntax.Grammar.Reader

namespace LintRepair.Syntax.SourceFile

open Grammar Reader

theorem complaints_of_errors {f : SourceFile} (h : f.errors = []) : f.complaints = [] := by
  have hnil : ∀ xs : List Complaint, xs.eraseDups = [] → xs = [] := by
    intro xs hxs
    cases xs with
    | nil => rfl
    | cons x xs =>
      rw [List.eraseDups_cons] at hxs
      cases hxs
  have hfound := List.mergeSort_perm ((if f.dialect.untyped then Untyped.inside f.source f.ast else []) ++
    f.complaints ++ if f.dialect.data then Data.ofFile f.source f.ast else []) Complaint.notAfter
  rw [hnil _ h] at hfound
  exact (List.append_eq_nil_iff.mp (List.append_eq_nil_iff.mp (List.nil_perm.mp hfound)).1).2

theorem childrenOf_many {i : NodeInfo} {l other : Label} (h : other ≠ l) (xs : Items) (last : Branch) :
    (Ast.node i ((Parts.many l xs ++ Parts.one other last).children.map (·.ast))).childrenOf l =
      xs.nodes.map (·.ast.as l) := by
  change (((Parts.many l xs).children ++ [last.as other]).map (·.ast)).filter _ = _
  rw [List.map_append, List.filter_append, filter_many, List.filter_eq_nil_iff.mpr, List.append_nil]
  intro a ha
  obtain rfl := List.mem_singleton.mp ha
  rw [decide_eq_true_eq]
  exact fun heq => h ((label_as last.ast other).symm.trans heq)

instance {source : Source} {start : Nat} : SpansAt start (goalsOf source .statement) :=
  inferInstanceAs (SpansAt start (statement _))

variable {d : Dialect} {source : Source} {a : Ast}

/-- A file that is read once and has no errors is what its statements were read as. -/
theorem exists_readOnce (hread : isReread d source = false) (herrors : (read d source).errors = []) :
    ∃ items last t, (readOnce (goalsOf source)).run (State.startAt { source, dialect := d } 0) =
      ((items, last), t) ∧ t.complaints = #[] ∧
        (read d source).ast.childrenOf .statements = items.nodes.map (·.ast.as .statements) := by
  have hcomplaints := complaints_of_errors herrors
  rcases hrun : (readOnce (goalsOf source)).run (State.startAt { source, dialect := d } 0) with ⟨⟨items, last⟩, t⟩
  have hdialect : t.dialect = d := ((State.leads_startAt _).trans (leads_of_run hrun)).dialect
  simp only [isReread, hrun] at hread
  simp only [read, readFile, hrun, hdialect, hread, Bool.false_eq_true, if_false] at hcomplaints ⊢
  have hlabel : Label.endOfFile ≠ .statements := nofun
  exact ⟨items, last, t, rfl, Array.toList_eq_nil_iff.mp (List.append_eq_nil_iff.mp hcomplaints).1,
    childrenOf_many hlabel items last⟩

/-- If a file is one statement and has no errors, nothing but trivia stands around the statement. -/
theorem sole_statement (hdata : d.data = false) (hread : isReread d source = false)
    (herrors : (read d source).errors = []) (hsole : (read d source).ast.childrenOf .statements = [a]) :
    a.start = source.skipTrivia 0 ∧ a.start < source.size ∧ a.start ≤ a.stop ∧
      source.size ≤ source.skipTrivia a.stop := by
  obtain ⟨items, last, t, hrun, hquiet, hstatements⟩ := exists_readOnce hread herrors
  obtain ⟨⟨⟨info, children⟩, _⟩, hitems, rfl⟩ := List.map_eq_singleton_iff.mp (hstatements.symm.trans hsole)
  exact readOnce_sole hrun hdata hitems hquiet

/-- What is known of the text inside the first statement of a file without errors. -/
theorem laid_first (hdata : d.data = false) (hread : isReread d source = false)
    (herrors : (read d source).errors = [])
    (hfirst : ((read d source).ast.childrenOf .statements).head? = some a) : a.Laid source := by
  obtain ⟨items, last, t, hrun, hquiet, hstatements⟩ := exists_readOnce hread herrors
  rw [hstatements, List.head?_map, Option.map_eq_some_iff] at hfirst
  obtain ⟨⟨⟨info, children⟩, _⟩, hitems, rfl⟩ := hfirst
  obtain ⟨hoperation, hbrackets, hstatement, hclauses⟩ := readOnce_first hrun hdata hitems hquiet
  exact ⟨hoperation, hbrackets, hstatement, hclauses⟩

end LintRepair.Syntax.SourceFile
