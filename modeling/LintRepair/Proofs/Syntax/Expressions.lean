import LintRepair.Proofs.Syntax.Spans

/-!
# Where expressions end

An expression begins where the trivia before its first token does, and ends where the trivia before the next token
begins, unless the grammar complains (`Spans`). Productions that go on behind what they have read may return it as it
is, and then nothing more has been read.
-/
namespace LintRepair.Syntax.Grammar.Reader

variable {start : Nat}

/-- The goals that are not read as values. -/
abbrev isOther : Goal → Bool
  | .expression | .assignment _ | .operation _ | .operand | .unary | .access | .primary | .markup _ _ _ _ => false
  | _ => true

/-- What is read as a value spans what was read. -/
class ReadsValues (goals : Goals) : Prop where
  spans : ∀ goal, isOther goal = false → ∀ start, SpansAt start (goals goal)

instance {goals : Goals} {goal : Goal} [h : ReadsValues goals] [hgoal : IsFalse (isOther goal)] :
    SpansAt start (goals goal) := h.spans goal hgoal.eq_false start

section Productions

-- Each branch of a production counts.
set_option synthInstance.maxSize 20000

variable (goals : Goals) [ReadsValues goals]

instance {form : Kind} {modifiers : Option Items} [IsFalse form.isFrame] :
    SpansFrom start (classLike goals form start modifiers) := by
  unfold classLike
  infer_instance

instance : SpansAt start (functionExpression goals) := by
  unfold functionExpression
  infer_instance

instance : SpansAt start (arrayLiteral goals) := by
  unfold arrayLiteral
  infer_instance

instance : SpansAt start (objectLiteral goals) := by
  unfold objectLiteral
  infer_instance

instance : SpansAt start (newExpression goals) := by
  unfold newExpression
  infer_instance

instance : SpansAt start (yieldExpression goals) := by
  unfold yieldExpression
  infer_instance

instance {name : Branch} {modifiers : Option Items} {arrowTypes : Bool} :
    SpansFrom start (simpleArrow goals start name modifiers arrowTypes) := by
  unfold simpleArrow
  infer_instance

instance {e : Branch} {chain : Option Branch} : SpansFrom start (propertyAccess start e chain) := by
  unfold propertyAccess
  refine spansFrom_bind (h := fun name => ?_)
  dsimp only
  split
  · refine spansFrom_bind (h := fun _ => ?_)
    split <;> infer_instance
  · split <;> infer_instance

instance {e : Branch} {chain : Option Branch} : SpansFrom start (elementAccess goals start e chain) := by
  unfold elementAccess
  infer_instance

instance {e : Branch} {chain : Option Branch} {args : Option Items} :
    SpansFrom start (taggedTemplate goals start e chain args) := by
  unfold taggedTemplate
  infer_instance

instance : Tries (expressionTypeArguments? goals) := by
  unfold expressionTypeArguments?
  infer_instance

instance : SpansAt start (superWord goals) := by
  unfold superWord
  refine @spansAt_here _ _ (spansAt_on (h := fun word => spansOn_bind (h := fun _ => ?_)))
  split
  · infer_instance
  · refine spansOn_bind (h := fun argsStart => ⟨fun s hs hword => ?_⟩)
    have hleads := (expressionTypeArguments? goals).leads s
    rw [run_bind]
    cases hrun : ((expressionTypeArguments? goals).run s).1 with
    | none => exact hword.leads hleads (congrArg Token.fullStart (Tries.token_eq s hrun))
    | some args =>
      -- The word may be all that is returned here, but then there is a complaint.
      have hmore := (complainAt argsStart .superTypeArguments).leads ((expressionTypeArguments? goals).run s).2
      have hword := hword.complained (hleads.trans hmore) (complaints_complainAt _ _ _ _)
      dsimp only
      rw [run_bind]
      exact (inferInstance : SpansOn start word _).spans _ (hmore.sound (hleads.sound hs)) hword

instance : SpansAt start (superExpression goals) := by
  unfold superExpression
  infer_instance

/-! ### Accesses and calls -/

theorem noArrows_complainAt (s : State) (i : Nat) (cause : Cause) (empty : Bool) :
    (s.complainAt i cause empty).noArrows = s.noArrows := by
  rw [State.complainAt]
  split <;> rfl

theorem noArrows_next (s : State) : (next.run s).2.noArrows = s.noArrows := by
  have hadvance : ∀ s : State, (advance.run s).2.noArrows = s.noArrows :=
    fun s => accept_congr (f := State.noArrows) noArrows_complainAt s _
  change ((if _ then _ else _ : Reader Unit).run s).2.noArrows = _
  split
  · exact (hadvance _).trans (noArrows_complainAt s _ _ _)
  · exact hadvance s

theorem run_thenIs {test : Reader Bool} {s : State} {b : Bool} {u : State} (hu : (next.run s).2 = u)
    (htest : test.run u = (b, u)) : (thenIs test).run s = (b, s) := by
  have hrun : (thenIs test).run s =
      ((test.run (next.run s).2).1, { s with noArrows := (test.run (next.run s).2).2.noArrows }) := rfl
  rw [hrun, hu, htest, ← hu, noArrows_next]

theorem exists_run_tokenNode? {k : Kind} {s : State} (h : s.token.kind = k) :
    ∃ a, (tokenNode? k).run s = (some a, (next.run s).2) := by
  rw [tokenNode?, run_bind, run_isAt]
  dsimp only
  rw [if_pos (decide_eq_true h)]
  exact ⟨_, rfl⟩

/-- What the mark of a chain stands before. -/
theorem run_startsLink (s : State) :
    (do
      if ← atWord then return true
      if ← isAt .openBracketToken then return true
      atTemplate : Reader Bool).run s =
    (s.token.kind.isWord || decide (s.token.kind = .openBracketToken) || (atTemplate.run s).1, s) := by
  have hword : atWord.run s = (s.token.kind.isWord, s) := rfl
  rw [run_bind, hword]
  cases s.token.kind.isWord with
  | true => rfl
  | false =>
    dsimp only
    rw [if_neg Bool.false_ne_true, run_bind, run_isAt]
    cases decide (s.token.kind = .openBracketToken) <;> rfl

instance spansOn_accesses (chained : Bool) (fuel : Nat) (e : Branch) :
    SpansOn start e (accesses goals start chained fuel e) := by
  induction fuel generalizing e with
  | zero => exact spansOn_pure
  | succ fuel ih =>
    rw [accesses]
    lift_lets
    extract_lets rest
    -- Without a chain the node itself is returned only where nothing more has been read.
    have hplain : SpansOn start e (rest false) := by
      dsimp -zeta only [rest]
      extract_lets afterChain
      rw [if_neg Bool.false_ne_true]
      refine spansOn_bind (h := fun chain => ?_)
      dsimp -zeta only [afterChain]
      extract_lets afterBracket afterDot
      have hlast : SpansOn start e (afterBracket false) := by
        simp only [afterBracket, Bool.false_eq_true, if_false]
        refine spansOn_bind (h := fun _ => ?_)
        split
        · infer_instance
        · refine spansOn_bind (h := fun _ => spansOn_bind (h := fun _ => ?_))
          split
          · infer_instance
          · exact spansOn_tries (fun _ => spansFrom_on) spansOn_pure
      rw [if_neg Bool.false_ne_true]
      refine spansOn_skip ?_ ?_
      · simp only [afterDot, if_true]
        infer_instance
      · simp only [afterDot, Bool.false_eq_true, if_false]
        refine spansOn_bind (h := fun _ => ?_)
        split
        · refine spansOn_skip ?_ hlast
          simp only [afterBracket, if_true]
          infer_instance
        · exact hlast
    refine ⟨fun s hs he => ?_⟩
    rw [run_bind, run_isAt]
    dsimp only
    split
    · next hchained =>
      have hkind : s.token.kind = .questionDotToken := of_decide_eq_true (Bool.and_eq_true_iff.mp hchained).2
      have hsound := (next.leads s).sound hs
      generalize hu : (next.run s).2 = u at hsound
      rw [run_bind, run_thenIs hu (run_startsLink u)]
      dsimp only
      cases hlink : u.token.kind.isWord || decide (u.token.kind = .openBracketToken) || (atTemplate.run u).1 with
      | false => exact hplain.spans s hs he
      | true =>
        obtain ⟨chain, hchain⟩ := exists_run_tokenNode? hkind
        have hword : atWord.run u = (u.token.kind.isWord, u) := rfl
        simp only [rest, if_true, Bool.true_or]
        rw [run_bind, hchain, hu, run_bind, hword]
        dsimp only
        split
        · exact (inferInstance : SpansFrom start _).spans u hsound
        · next hnoWord =>
          have hcontext : context.run u = (u.context, u) := rfl
          rw [run_bind, hcontext, run_bind]
          dsimp only
          rw [run_skip]
          by_cases hbracket : u.token.kind = .openBracketToken
          · rw [if_pos hbracket]
            dsimp only
            rw [if_pos rfl]
            exact (inferInstance : SpansFrom start _).spans _ ((next.leads u).sound hsound)
          · have htemplate : (atTemplate.run u).1 = true := by
              simpa [hnoWord, hbracket] using hlink
            rw [if_neg hbracket]
            dsimp only
            rw [if_neg Bool.false_ne_true, run_bind, htemplate, if_pos rfl]
            exact (inferInstance : SpansFrom start _).spans u hsound
    · exact hplain.spans s hs he

instance spansOn_calls (fuel : Nat) (e : Branch) : SpansOn start e (calls goals start fuel e) := by
  induction fuel generalizing e with
  | zero => exact spansOn_pure
  | succ fuel ih =>
    rw [calls]
    refine spansOn_on (h := fun e => spansOn_tries (fun chain => ?_) ?_)
    · simp only [Option.isSome_some, Bool.true_and, if_true]
      infer_instance
    · simp only [Option.isSome_none, Bool.false_and, Bool.false_or, Bool.false_eq_true, if_false]
      infer_instance

instance : SpansAt start (access goals) := by
  unfold access
  refine @spansAt_here _ _ (spansAt_bind (h := fun fuel => spansAt_bind (h := fun k => ?_)))
  dsimp only
  split <;> infer_instance

/-! ### Brackets and operators -/

instance : SpansAt start (parenthesized goals) := by
  refine ⟨fun s hs hstart => ?_⟩
  subst hstart
  have hopen := (expect .openParenToken).leads s
  have he := (inferInstance : SpansAt _ (allowingIn (goals .expression))).spans
    ((expect .openParenToken).run s).2 (hopen.sound hs) rfl
  have hleads := (allowingIn (goals .expression)).leads ((expect .openParenToken).run s).2
  have hinside : (parenthesized goals).run s =
      (fun r : Branch × State => (finish .parenthesizedExpression s.token.fullStart (.one .expression r.1)).run
        ((expect .closeParenToken).run r.2).2)
        ((allowingIn (goals .expression)).run ((expect .openParenToken).run s).2) := rfl
  rw [hinside]
  generalize (allowingIn (goals .expression)).run ((expect .openParenToken).run s).2 = r at he hleads
  obtain ⟨⟨⟨i, cs⟩, hfileless⟩, u⟩ := r
  refine spans_finish fun hquiet => ⟨nofun, fun _ => ?_, nofun, nofun⟩
  intro e hchild
  change some (Ast.node { i with label := .expression } cs) = some e at hchild
  cases hchild
  have hsource := hleads.source.trans hopen.source
  have hfills := fills_brackets (k := .parenthesizedExpression)
    (p := .one .expression ⟨.node i cs, hfileless⟩) (f := fun i => i) rfl rfl hs hleads he hquiet
  have hlaid := he.laid (complaints_of_leads ((expect .closeParenToken).leads u) hquiet)
  rw [((expect .closeParenToken).leads u).source, hsource]
  rw [hsource] at hlaid
  exact ⟨hfills, hlaid.operation⟩

instance spansOn_operationRest (level fuel : Nat) (left : Branch) :
    SpansOn start left (operationRest goals level start fuel left) := by
  induction fuel generalizing left with
  | zero => exact spansOn_pure
  | succ fuel ih =>
    rw [operationRest]
    refine spansOn_bind (h := fun k => ?_)
    extract_lets own takes
    refine spansOn_bind (h := fun _ => ?_)
    split
    · infer_instance
    · split
      · refine spansOn_bind (h := fun _ => ?_)
        split
        · infer_instance
        · refine spansOn_of_fullStart fun hfull => ?_
          rw [hfull]
          have hform : IsFalse (if k = .asKeyword then .asExpression else .satisfiesExpression : Kind).isFrame := by
            split <;> infer_instance
          infer_instance
      · exact spansOn_joined (fun _ => inferInstance) ih

instance : SpansAt start (update goals) := by
  unfold update
  refine @spansAt_here _ _ (spansAt_bind (h := fun k => ?_))
  split
  · infer_instance
  · refine spansAt_bind (h := fun _ => ?_)
    extract_lets rest
    have hrest : SpansAt start (rest ()) := by
      refine spansAt_on (h := fun e => spansOn_bind (h := fun after => spansOn_bind (h := fun _ => ?_)))
      split
      · refine spansOn_of_fullStart fun hfull => ?_
        rw [hfull]
        infer_instance
      · infer_instance
    clear_value rest
    infer_instance

instance : SpansAt start (unary goals) := by
  unfold unary
  refine @spansAt_here _ _ (spansAt_bind (h := fun k => ?_))
  dsimp only
  split <;> infer_instance

instance : SpansAt start (operand goals) := by
  unfold operand
  refine @spansAt_here _ _ (spansAt_bind (h := fun k => ?_))
  extract_lets rest
  have hrest : ∀ signed, SpansAt start (rest signed) := by
    intro signed
    dsimp only [rest]
    infer_instance
  clear_value rest
  split <;> infer_instance

instance (level : Nat) : SpansAt start (operation goals level) := by
  unfold operation
  infer_instance

/-! ### Arrow functions -/

instance {outerAwaits : Bool} : Succeeds (parameter? goals outerAwaits false) := by
  unfold parameter?
  simp only [Bool.false_and, Bool.false_eq_true, if_false]
  refine succeeds_bind (h := fun _ => succeeds_bind (h := fun _ => succeeds_bind (h := fun _ => ?_)))
  split
  · refine succeeds_bind (h := fun _ => succeeds_bind (h := fun _ => ?_))
    split <;> infer_instance
  · infer_instance

instance succeeds_separated {l : ListContext} {element : Reader (Option Branch)} [Succeeds element]
    {orSemicolon : Bool} (fuel : Nat) (nodes : Array Branch) (comma : Bool) :
    Succeeds (separated l element orSemicolon fuel nodes comma) := by
  induction fuel generalizing nodes comma with
  | zero => exact ⟨fun _ => rfl⟩
  | succ fuel ih =>
    rw [separated]
    refine succeeds_bind (h := fun _ => ?_)
    split
    · refine succeeds_bind (h := fun start => succeeds_option fun a => ?_)
      dsimp only
      infer_instance
    · infer_instance

instance {l : ListContext} {element : Reader (Option Branch)} [Succeeds element] {orSemicolon : Bool} :
    Succeeds (commaList? l element orSemicolon) := by
  unfold commaList?
  have hitems : Succeeds (do
      let start ← here
      match ← separated l element orSemicolon (2 * (← budget)) #[] false with
      | none => return none
      | some (nodes, comma) => return some (← listed start nodes comma)) :=
    succeeds_bind (h := fun _ => succeeds_bind (h := fun _ => succeeds_option fun _ => inferInstance))
  infer_instance

instance {form : FunctionForm} : Succeeds (parameterList? goals form false) := by
  unfold parameterList?
  infer_instance

instance : Succeeds (bracketedArrow? goals false true) := by
  unfold bracketedArrow?
  simp only [Bool.false_and, Bool.and_false, Bool.not_true, Bool.false_eq_true, if_false]
  refine succeeds_bind (h := fun _ => succeeds_bind (h := fun _ => succeeds_bind (h := fun _ =>
    succeeds_bind (h := fun opened => ?_))))
  split
  · exact succeeds_option fun _ => inferInstance
  · exact succeeds_bind (h := fun _ => succeeds_option fun _ => inferInstance)

instance {strict arrowTypes : Bool} : MaySpan start (bracketedArrow? goals strict arrowTypes) := by
  unfold bracketedArrow?
  refine @maySpan_here _ _ (@maySpan_of_spansSome _ _ (spansSome_bind (h := fun modifiers => ?_)))
  extract_lets awaits
  refine spansSome_bind (h := fun typeParameters => spansSome_bind (h := fun opened => ?_))
  split
  · infer_instance
  · extract_lets rest
    have hrest : ∀ parameters, SpansSome start (rest parameters) := by
      intro parameters
      dsimp only [rest]
      cases parameters <;> infer_instance
    clear_value rest
    infer_instance

instance {arrowTypes : Bool} : MaySpan start (possibleArrow? goals arrowTypes) := by
  unfold possibleArrow?
  refine @maySpan_attempt _ _ (maySpan_bind (h := fun place => maySpan_bind (h := fun _ => ?_)))
  split
  · infer_instance
  · refine ⟨fun s hs hstart a ha => ?_⟩
    rw [run_bind] at ha ⊢
    cases hrun : ((bracketedArrow? goals true arrowTypes).run s).1 with
    | none =>
      rw [hrun] at ha
      cases ha
    | some b =>
      rw [hrun] at ha
      cases ha
      exact MaySpan.spans s hs hstart a hrun

instance {arrowTypes : Bool} : Tries (possibleArrow? goals arrowTypes) := by
  unfold possibleArrow?
  infer_instance

instance {arrowTypes : Bool} : Tries (arrowFunction? goals arrowTypes) := by
  unfold arrowFunction?
  refine tries_bind (h := fun guess => ?_)
  extract_lets rest
  have hsome : ∀ a, rest (some a) = pure (some a) := fun _ => rfl
  have hnone : Tries (rest none) := by
    simp only [rest, Option.isSome_none, Bool.false_eq_true, if_false]
    infer_instance
  clear_value rest
  split <;> exact tries_orElse hsome hnone

instance {arrowTypes : Bool} : MaySpan start (arrowFunction? goals arrowTypes) := by
  unfold arrowFunction?
  refine maySpan_bind (h := fun guess => ?_)
  extract_lets rest
  have hsome : ∀ a, rest (some a) = pure (some a) := fun _ => rfl
  have hnone : MaySpan start (rest none) := by
    simp only [rest, Option.isSome_none, Bool.false_eq_true, if_false]
    infer_instance
  clear_value rest
  split <;> exact maySpan_orElse hsome hnone

/-! ### Expressions -/

instance {condition : Branch} {arrowTypes : Bool} :
    SpansOn start condition (conditionalRest goals start condition arrowTypes) := by
  unfold conditionalRest
  exact spansOn_tries (fun _ => inferInstance) inferInstance

instance (arrowTypes : Bool) : SpansAt start (assignment goals arrowTypes) := by
  unfold assignment
  refine spansAt_bind (h := fun _ => ?_)
  split
  · infer_instance
  · refine spansAt_orElse (fun _ => spansOn_pure) (@spansAt_here _ _ ?_)
    refine spansAt_on (h := fun e => spansOn_bind (h := fun _ => ?_))
    split
    · infer_instance
    · extract_lets rest
      have hrest : ∀ k, SpansOn start e (rest k) := by
        intro k
        dsimp only [rest]
        split
        · exact spansOn_joined (f := pure) (fun _ => inferInstance) fun _ => spansOn_pure
        · infer_instance
      clear_value rest
      infer_instance

instance spansOn_expressionRest (fuel : Nat) (e : Branch) : SpansOn start e (expressionRest goals start fuel e) := by
  induction fuel generalizing e with
  | zero => exact spansOn_pure
  | succ fuel ih =>
    rw [expressionRest]
    exact spansOn_tokenNode? (spansOn_joined (fun _ => inferInstance) ih) spansOn_pure

instance : SpansAt start (expression goals) := by
  unfold expression
  infer_instance

instance : SpansAt start (primary goals) := by
  unfold primary
  refine spansAt_bind (h := fun k => ?_)
  split <;> infer_instance

instance {inExpression : Bool} : SpansAt start (openingTag goals inExpression) := by
  unfold openingTag
  infer_instance

instance {opening : Branch} {inExpression : Bool} {parent : Option Branch} :
    SpansFrom start (elementRest goals start opening inExpression parent) := by
  unfold elementRest
  refine spansFrom_bind (h := fun children => ?_)
  dsimp only
  split <;> infer_instance

instance {inExpression : Bool} {firstRoot : Option Nat} {parent : Option Branch} {isUnary : Bool} :
    SpansAt start (markup goals inExpression firstRoot parent isUnary) := by
  unfold markup
  refine @spansAt_here _ _ (spansAt_on (h := fun opening => ?_))
  extract_lets rest
  have hrest : ∀ whole, SpansOn start whole (rest whole) := by
    intro whole
    refine spansOn_bind (h := fun _ => ?_)
    split
    · infer_instance
    · exact spansOn_of_spansFrom (h := spansFrom_bind (h := fun _ => spansFrom_bind (h := fun _ =>
        spansFrom_complained)))
  clear_value rest
  split <;> infer_instance

theorem readsValues_produce : ReadsValues (produce goals) := by
  refine ⟨fun goal hgoal start => ?_⟩
  cases goal with
  | expression => exact inferInstanceAs (SpansAt start (expression goals))
  | assignment arrowTypes => exact inferInstanceAs (SpansAt start (assignment goals arrowTypes))
  | operation level => exact inferInstanceAs (SpansAt start (operation goals level))
  | operand => exact inferInstanceAs (SpansAt start (operand goals))
  | unary => exact inferInstanceAs (SpansAt start (unary goals))
  | access => exact inferInstanceAs (SpansAt start (access goals))
  | primary => exact inferInstanceAs (SpansAt start (primary goals))
  | markup inExpression firstRoot parent isUnary =>
    exact inferInstanceAs (SpansAt start (markup goals inExpression firstRoot parent isUnary))
  | statement | decoration | type | typeOperand | pattern _ | namespaceBody => cases hgoal

end Productions

instance readsValues_goalsWithin (depth : Nat) : ReadsValues (goalsWithin depth) := by
  induction depth with
  | zero => exact ⟨fun _ _ start => inferInstanceAs (SpansAt start (absent .identifier))⟩
  | succ depth ih => exact readsValues_produce (goalsWithin depth)

end LintRepair.Syntax.Grammar.Reader
