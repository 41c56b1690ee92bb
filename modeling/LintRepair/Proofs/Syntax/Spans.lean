import LintRepair.Syntax.Document

/-!
# What a node takes

A node is put together where its last token has been read, so it ends where the trivia before the next token
begins. Where it begins is said by the offset that its production has noted before. That the two fit
together, and that the node is not left behind by readings that go on after it, is told here of each way to put
readings together, so that it can be inferred of every production. What is known of the text inside a node, between
brackets or beside an operator, comes with it.
-/
namespace LintRepair.Syntax

/-- The node begins behind the trivia at the offset, or has no width and stands at the offset. -/
def Ast.Stands (s : Source) (i : Nat) (a : Ast) : Prop :=
  (a.start = i ∧ a.stop = i) ∨ a.start = s.skipTrivia i

/-- Nothing but trivia stands between the inner node and the brackets at the ends of the outer one. -/
def Ast.Fills (s : Source) (outer inner : Ast) : Prop :=
  (outer.start < outer.stop → inner.Stands s (outer.start + 1)) ∧ s.skipTrivia inner.stop + 1 = outer.stop

/-- Nothing but trivia stands between the operator of the node and its operands. -/
def Ast.Joins (s : Source) (a : Ast) : Prop :=
  ∀ o, a.child? .operator = some o → ∃ l r, a.child? .left = some l ∧ a.child? .right = some r ∧
    o.Stands s l.stop ∧ r.Stands s o.stop

/-- Nothing but trivia stands between what is in the brackets of the node and the brackets, and between an
operator there and its operands. -/
def Ast.Encloses (s : Source) (a : Ast) : Prop :=
  ∀ e, a.child? .expression = some e → a.Fills s e ∧ (e.kind = .binaryExpression → e.Joins s)

/-- What is known of the text inside a node, by its kind. -/
structure Ast.Laid (s : Source) (a : Ast) : Prop where
  operation : a.kind = .binaryExpression → a.Joins s
  brackets : a.kind = .parenthesizedExpression → a.Encloses s
  statement : a.kind = .expressionStatement → ∀ e, a.child? .expression = some e →
    e.kind = .parenthesizedExpression → e.Encloses s
  clauses : a.kind = .switchStatement → ∀ block c, a.child? .block = some block →
    block.childrenOf .clauses = [c] → block.Fills s c

/-- The kinds of nodes of whose inside something is known. -/
abbrev Kind.isFrame : Kind → Bool
  | .binaryExpression | .parenthesizedExpression | .expressionStatement | .switchStatement => true
  | _ => false

theorem Ast.laid_of_not_isFrame {s : Source} {a : Ast} (h : a.kind.isFrame = false) : a.Laid s := by
  have hne : ∀ k : Kind, k.isFrame = true → a.kind ≠ k := by
    rintro k hk rfl
    exact absurd (h.symm.trans hk) Bool.false_ne_true
  exact ⟨fun hk => absurd hk (hne _ rfl), fun hk => absurd hk (hne _ rfl), fun hk => absurd hk (hne _ rfl),
    fun hk => absurd hk (hne _ rfl)⟩

theorem Ast.laid_of_no_children {s : Source} {i : NodeInfo} : (Ast.node i []).Laid s :=
  ⟨fun _ => nofun, fun _ => nofun, fun _ => nofun, fun _ => nofun⟩

namespace Grammar.Reader

variable {α β : Type} {start : Nat}

theorem run_bind (x : Reader α) (f : α → Reader β) (s : State) :
    (x >>= f).run s = (f (x.run s).1).run (x.run s).2 := rfl

theorem run_isAt (k : Kind) (s : State) : (isAt k).run s = (decide (s.token.kind = k), s) := rfl

theorem run_here (s : State) : here.run s = (s.token.fullStart, s) := rfl

theorem leads_of_run {x : Reader α} {a : α} {s t : State} (h : x.run s = (a, t)) : s.Leads t := by
  have hleads := x.leads s
  rwa [h] at hleads

/-! ## Looking ahead -/

/-- The reading leaves the current token as it is. -/
class Looks (x : Reader α) : Prop where
  token_eq : ∀ s, (x.run s).2.token = s.token

instance {a : α} : Looks (pure a) := ⟨fun _ => rfl⟩

instance : Looks kind := ⟨fun _ => rfl⟩

instance {k : Kind} : Looks (isAt k) := ⟨fun _ => rfl⟩

instance {ks : List Kind} : Looks (isAtAny ks) := ⟨fun _ => rfl⟩

instance : Looks here := ⟨fun _ => rfl⟩

instance : Looks tokenStart := ⟨fun _ => rfl⟩

instance : Looks afterLineEnd := ⟨fun _ => rfl⟩

instance : Looks dialect := ⟨fun _ => rfl⟩

instance : Looks context := ⟨fun _ => rfl⟩

instance : Looks state := ⟨fun _ => rfl⟩

instance : Looks budget := ⟨fun _ => rfl⟩

instance {x : Reader α} : Looks (peek x) := ⟨fun _ => rfl⟩

instance looks_bind {x : Reader α} {f : α → Reader β} [hx : Looks x] [h : ∀ a, Looks (f a)] : Looks (x >>= f) :=
  ⟨fun s => ((h _).token_eq _).trans (hx.token_eq s)⟩

instance {c : Prop} [Decidable c] {x y : Reader α} [Looks x] [Looks y] : Looks (if c then x else y) := by
  split <;> infer_instance

instance {x : Reader Bool} : Looks (thenIs x) := by
  unfold thenIs
  infer_instance

instance {ks : List Kind} : Looks (thenAtAny ks) := by
  unfold thenAtAny
  infer_instance

instance : Looks atAwaitUsing := by
  unfold atAwaitUsing
  infer_instance

instance : Looks atUsing := by
  unfold atUsing
  infer_instance

instance : Looks startsDeclaration := by
  unfold startsDeclaration
  infer_instance

instance {x : Reader Bool} : Looks (thenSameLine x) := by
  unfold thenSameLine
  infer_instance

instance : Looks atName := by
  unfold atName
  infer_instance

instance : Looks atTemplate := by
  unfold atTemplate
  infer_instance

instance : Looks startsAccess := by
  unfold startsAccess
  refine looks_bind (h := fun _ => ?_)
  split <;> infer_instance

instance : Looks atBinaryOperator := by
  unfold atBinaryOperator
  infer_instance

instance : Looks startsExpression := by
  unfold startsExpression
  infer_instance

instance : Looks startsStatement := by
  unfold startsStatement
  refine looks_bind (h := fun _ => ?_)
  split <;> infer_instance

instance : Looks atYield := by
  unfold atYield
  infer_instance

instance : Looks atAwait := by
  unfold atAwait
  infer_instance

instance : Looks guessArrow := by
  unfold guessArrow
  refine looks_bind (h := fun _ => ?_)
  split <;> infer_instance

theorem token_complainAt (s : State) (start : Nat) (cause : Cause) (empty : Bool) :
    (s.complainAt start cause empty).token = s.token := by
  rw [State.complainAt]
  split <;> rfl

instance {i : Nat} {cause : Cause} {empty : Bool} : Looks (complainAt i cause empty) :=
  ⟨fun s => token_complainAt s i cause empty⟩

instance {cause : Cause} : Looks (complain cause) := by
  unfold complain
  infer_instance

/-- What no complaint changes is changed with the token only. -/
theorem accept_congr {f : State → β} (h : ∀ s i cause empty, f (State.complainAt s i cause empty) = f s) (s : State)
    (t : Token) : f (s.accept t) = f { s with token := t } := by
  have hfold : ∀ (cs : List Complaint) (s : State),
      f (cs.foldl (fun s c => s.complainAt c.start c.cause false) s) = f s := by
    intro cs
    induction cs with
    | nil => exact fun _ => rfl
    | cons c rest ih => exact fun s => (ih _).trans (h s c.start c.cause false)
  exact hfold t.complaints _

theorem token_accept (s : State) (t : Token) : (s.accept t).token = t :=
  accept_congr (f := State.token) token_complainAt s t

/-- The reading leaves the place of the current token as it is. -/
class Stays (x : Reader α) : Prop where
  fullStart_eq : ∀ s, (x.run s).2.token.fullStart = s.token.fullStart

instance {x : Reader α} [h : Looks x] : Stays x := ⟨fun s => congrArg Token.fullStart (h.token_eq s)⟩

instance stays_bind {x : Reader α} {f : α → Reader β} [hx : Stays x] [h : ∀ a, Stays (f a)] : Stays (x >>= f) :=
  ⟨fun s => ((h _).fullStart_eq _).trans (hx.fullStart_eq s)⟩

theorem stays_accept {t : State → Token} {h : ∀ s : State, s.token.Sound s.source → (t s).Sound s.source}
    (ht : ∀ s, (t s).fullStart = s.token.fullStart) : Stays (accept t h) :=
  ⟨fun s => (congrArg Token.fullStart (token_accept s (t s))).trans (ht s)⟩

instance {report : Bool} : Stays (rereadTemplate report) := stays_accept fun _ => rfl

instance {h : ∀ s : State, s.token.Sound s.source → (s.token.asPattern s.source).Sound s.source} :
    Stays (accept (fun s => s.token.asPattern s.source) h) := stays_accept fun _ => rfl

instance : Stays joinGreater := by
  refine @stays_bind _ _ _ _ (stays_accept fun s => ?_) _
  rw [Token.joinGreater]
  split
  · rfl
  · dsimp only
    split <;> rfl

/-! ## Complaints and brackets -/

theorem complaints_of_leads {s t : State} (h : s.Leads t) (ht : t.complaints = #[]) : s.complaints = #[] := by
  have hprefix := h.complaints
  rw [ht] at hprefix
  exact Array.toList_eq_nil_iff.mp (List.prefix_nil.mp hprefix)

theorem complaints_complainAt (s : State) (i : Nat) (cause : Cause) (empty : Bool) :
    (s.complainAt i cause empty).complaints ≠ #[] := by
  rw [State.complainAt]
  split
  · next h =>
    intro hnone
    rw [hnone] at h
    cases h
  · exact Array.push_ne_empty

theorem complaints_complain (cause : Cause) (s : State) : ((complain cause).run s).2.complaints ≠ #[] :=
  complaints_complainAt s s.token.start cause _

/-- What is expected is there if there is no complaint. -/
theorem run_expect {k : Kind} {s : State} (h : ((expect k).run s).2.complaints = #[]) :
    s.token.kind = k ∧ ((expect k).run s).2 = (next.run s).2 := by
  have hrun : (expect k).run s = if s.token.kind = k then (true, (next.run s).2)
      else (false, ((complain (.expected k.text)).run s).2) := by
    rw [expect, expectOr, run_bind, run_isAt]
    by_cases h : s.token.kind = k
    · rw [if_pos h, decide_eq_true h]
      rfl
    · rw [if_neg h, decide_eq_false h]
      rfl
  rw [hrun] at h ⊢
  split at h
  · next hk =>
    rw [if_pos hk]
    exact ⟨hk, rfl⟩
  · exact absurd h (complaints_complain _ s)

theorem fullStart_next (s : State) : (next.run s).2.token.fullStart = s.token.stop := by
  have hadvance : ∀ s : State, (advance.run s).2.token.fullStart = s.token.stop :=
    fun s => congrArg Token.fullStart (token_accept s _)
  change ((if _ then _ else _ : Reader Unit).run s).2.token.fullStart = _
  split
  · refine (hadvance _).trans (congrArg Token.stop ?_)
    exact Looks.token_eq (x := complain .escapedKeyword) s
  · exact hadvance s

/-- Behind a bracket the text inside begins, one character behind the trivia before the bracket. -/
theorem run_expect_bracket {k : Kind} (hk : k.isBracket = true) {s : State} (hs : s.token.Sound s.source)
    (h : ((expect k).run s).2.complaints = #[]) :
    ((expect k).run s).2.token.fullStart = s.source.skipTrivia s.token.fullStart + 1 := by
  obtain ⟨hkind, hrun⟩ := run_expect h
  obtain ⟨hstart, hstop⟩ := hs.bracket (hkind ▸ hk)
  rw [hrun, fullStart_next, hstop, hstart]

/-! ## Nodes that span what was read -/

/-- The node begins behind the trivia at the offset and ends where that of the next token begins. -/
structure Spans (start : Nat) (a : Branch) (s : State) : Prop where
  fullStart_eq : a.fullStart = start
  stands : a.ast.Stands s.source start
  stop_eq : s.complaints = #[] → a.stop = s.token.fullStart
  laid : s.complaints = #[] → a.ast.Laid s.source

theorem Spans.leads {a : Branch} {s t : State} (h : Spans start a s) (hst : s.Leads t)
    (hstay : t.token.fullStart = s.token.fullStart) : Spans start a t where
  fullStart_eq := h.fullStart_eq
  stands := hst.source ▸ h.stands
  stop_eq hquiet := (h.stop_eq (complaints_of_leads hst hquiet)).trans hstay.symm
  laid hquiet := hst.source ▸ h.laid (complaints_of_leads hst hquiet)

/-- Behind a complaint it does not matter where a node ends. -/
theorem Spans.complained {a : Branch} {s t : State} (h : Spans start a s) (hst : s.Leads t)
    (ht : t.complaints ≠ #[]) : Spans start a t :=
  ⟨h.fullStart_eq, hst.source ▸ h.stands, fun hquiet => absurd hquiet ht, fun hquiet => absurd hquiet ht⟩

theorem stands_finish (k : Kind) (start : Nat) (parts : Parts) (f : NodeInfo → NodeInfo) (s : State) :
    ((finish k start parts f).run s).1.ast.Stands s.source start := by
  by_cases h : start = s.token.fullStart ∧ k ≠ .endOfFileToken
  · refine .inl ⟨?_, h.1.symm⟩
    change (if decide (start = s.token.fullStart) && decide (k ≠ .endOfFileToken) then start else _) = start
    rw [decide_eq_true h.1, decide_eq_true h.2, Bool.and_self, if_pos rfl]
  · refine .inr ?_
    change (if decide (start = s.token.fullStart) && decide (k ≠ .endOfFileToken) then start else _) = _
    rw [← Bool.decide_and, decide_eq_false h, if_neg Bool.false_ne_true]

theorem spans_finish {k : Kind} {parts : Parts} {f : NodeInfo → NodeInfo} {s : State}
    (hlaid : s.complaints = #[] → ((finish k start parts f).run s).1.ast.Laid s.source) :
    Spans start ((finish k start parts f).run s).1 ((finish k start parts f).run s).2 :=
  ⟨rfl, stands_finish k start parts f s, fun _ => rfl, hlaid⟩

/-- Wherever the reading takes place, its node begins at the offset. -/
class SpansFrom (start : Nat) (x : Reader Branch) : Prop where
  spans : ∀ s : State, s.token.Sound s.source → Spans start (x.run s).1 (x.run s).2

/-- If the reading takes place at the offset, its node begins there. -/
class SpansAt (start : Nat) (x : Reader Branch) : Prop where
  spans : ∀ s : State, s.token.Sound s.source → s.token.fullStart = start → Spans start (x.run s).1 (x.run s).2

/-- If the reading takes place behind a node that begins at the offset, so does its own. -/
class SpansOn (start : Nat) (a : Branch) (x : Reader Branch) : Prop where
  spans : ∀ s : State, s.token.Sound s.source → Spans start a s → Spans start (x.run s).1 (x.run s).2

/-- What holds of `false` only, and is found by computing. -/
class IsFalse (b : Bool) : Prop where
  eq_false : b = false

instance : IsFalse false := ⟨rfl⟩

instance {k : Kind} {parts : Parts} {f : NodeInfo → NodeInfo}
    [h : IsFalse (f { kind := k, lists := parts.lists }).kind.isFrame] : SpansFrom start (finish k start parts f) := by
  refine ⟨fun s _ => spans_finish fun _ => Ast.laid_of_not_isFrame ?_⟩
  change (if (f { kind := k, lists := parts.lists }).kind = .sourceFile then Kind.unknown else _).isFrame = false
  split
  · rfl
  · exact h.eq_false

instance {k : Kind} {f : NodeInfo → NodeInfo} : SpansFrom start (finish k start .none f) :=
  ⟨fun _ _ => spans_finish fun _ => Ast.laid_of_no_children⟩

instance spansFrom_bind {x : Reader α} {f : α → Reader Branch} [h : ∀ a, SpansFrom start (f a)] :
    SpansFrom start (x >>= f) := ⟨fun s hs => (h _).spans _ ((x.leads s).sound hs)⟩

instance {c : Prop} [Decidable c] {x y : Reader Branch} [SpansFrom start x] [SpansFrom start y] :
    SpansFrom start (if c then x else y) := by
  split <;> infer_instance

instance {f : Context → Context} {x : Reader Branch} [hx : SpansFrom start x] :
    SpansFrom start (within f x) := by
  refine ⟨fun s hs => ?_⟩
  obtain ⟨hfull, hstands, hstop, hlaid⟩ := hx.spans { s with context := f s.context } hs
  exact ⟨hfull, hstands, hstop, hlaid⟩

instance spansAt_of_spansFrom {x : Reader Branch} [h : SpansFrom start x] : SpansAt start x :=
  ⟨fun s hs _ => h.spans s hs⟩

instance spansAt_here {f : Nat → Reader Branch} [h : SpansAt start (f start)] : SpansAt start (here >>= f) := by
  refine ⟨fun s hs hstart => ?_⟩
  subst hstart
  exact h.spans s hs rfl

instance spansAt_bind {x : Reader α} {f : α → Reader Branch} [hx : Stays x] [h : ∀ a, SpansAt start (f a)] :
    SpansAt start (x >>= f) :=
  ⟨fun s hs hstart => (h _).spans _ ((x.leads s).sound hs) ((hx.fullStart_eq s).trans hstart)⟩

instance {c : Prop} [Decidable c] {x y : Reader Branch} [SpansAt start x] [SpansAt start y] :
    SpansAt start (if c then x else y) := by
  split <;> infer_instance

instance {f : Context → Context} {x : Reader Branch} [hx : SpansAt start x] : SpansAt start (within f x) := by
  refine ⟨fun s hs hstart => ?_⟩
  obtain ⟨hfull, hstands, hstop, hlaid⟩ := hx.spans { s with context := f s.context } hs hstart
  exact ⟨hfull, hstands, hstop, hlaid⟩

instance {x : Reader Branch} [hx : SpansAt start x] : SpansAt start (allowingIn x) := by
  unfold allowingIn
  infer_instance

instance spansOn_pure {a : Branch} : SpansOn start a (pure a) := ⟨fun _ _ h => h⟩

instance spansOn_of_spansFrom {a : Branch} {x : Reader Branch} [h : SpansFrom start x] : SpansOn start a x :=
  ⟨fun s hs _ => h.spans s hs⟩

instance spansOn_bind {a : Branch} {x : Reader α} {f : α → Reader Branch} [hx : Stays x]
    [h : ∀ b, SpansOn start a (f b)] : SpansOn start a (x >>= f) :=
  ⟨fun s hs ha => (h _).spans _ ((x.leads s).sound hs) (ha.leads (x.leads s) (hx.fullStart_eq s))⟩

instance {a : Branch} {c : Prop} [Decidable c] {x y : Reader Branch} [SpansOn start a x] [SpansOn start a y] :
    SpansOn start a (if c then x else y) := by
  split <;> infer_instance

/-- A node is read, and then what is behind it. -/
instance spansFrom_on {x : Reader Branch} {f : Branch → Reader Branch} [hx : SpansFrom start x]
    [h : ∀ a, SpansOn start a (f a)] : SpansFrom start (x >>= f) :=
  ⟨fun s hs => (h _).spans _ ((x.leads s).sound hs) (hx.spans s hs)⟩

instance spansAt_on {x : Reader Branch} {f : Branch → Reader Branch} [hx : SpansAt start x]
    [h : ∀ a, SpansOn start a (f a)] : SpansAt start (x >>= f) :=
  ⟨fun s hs hstart => (h _).spans _ ((x.leads s).sound hs) (hx.spans s hs hstart)⟩

instance spansOn_on {a : Branch} {x : Reader Branch} {f : Branch → Reader Branch} [hx : SpansOn start a x]
    [h : ∀ b, SpansOn start b (f b)] : SpansOn start a (x >>= f) :=
  ⟨fun s hs ha => (h _).spans _ ((x.leads s).sound hs) (hx.spans s hs ha)⟩

/-! ## Readings that may fail -/

/-- Where nothing is read, the current token stays. -/
class Tries (x : Reader (Option α)) : Prop where
  token_eq : ∀ s, (x.run s).1 = none → (x.run s).2.token = s.token

instance {x : Reader (Option α)} : Tries (attempt x) := by
  refine ⟨fun s => ?_⟩
  dsimp only [attempt]
  rcases x.run s with ⟨_ | a, t⟩
  · exact fun _ => rfl
  · exact fun h => nomatch h

instance {k : Kind} : Tries (tokenNode? k) := by
  refine ⟨fun _ hnone => ?_⟩
  rw [tokenNode?, run_bind, run_isAt] at hnone ⊢
  split at hnone
  · cases hnone
  · next hk => rw [if_neg hk]; rfl

theorem spansOn_tries {a : Branch} {x : Reader (Option α)} {f : Option α → Reader Branch} [hx : Tries x]
    (hsome : ∀ b, SpansFrom start (f (some b))) (hnone : SpansOn start a (f none)) :
    SpansOn start a (x >>= f) := by
  refine ⟨fun s hs ha => ?_⟩
  have hleads := x.leads s
  have hsound := hleads.sound hs
  rw [run_bind]
  cases hrun : (x.run s).1 with
  | some b => exact (hsome b).spans _ hsound
  | none => exact hnone.spans _ hsound (ha.leads hleads (congrArg Token.fullStart (hx.token_eq s hrun)))

theorem run_skip (k : Kind) (s : State) :
    (skip? k).run s = if s.token.kind = k then (true, (next.run s).2) else (false, s) := by
  rw [skip?, run_bind, run_isAt]
  by_cases h : s.token.kind = k
  · rw [if_pos h, decide_eq_true h]
    rfl
  · rw [if_neg h, decide_eq_false h]
    rfl

theorem spansOn_skip {a : Branch} {k : Kind} {f : Bool → Reader Branch} (htrue : SpansFrom start (f true))
    (hfalse : SpansOn start a (f false)) : SpansOn start a (skip? k >>= f) := by
  refine ⟨fun s hs ha => ?_⟩
  rw [run_bind, run_skip]
  split
  · exact htrue.spans _ ((next.leads s).sound hs)
  · exact hfalse.spans s hs ha

instance : Tries (pure none : Reader (Option α)) := ⟨fun _ _ => rfl⟩

instance tries_bind {x : Reader α} {f : α → Reader (Option β)} [hx : Looks x] [h : ∀ a, Tries (f a)] :
    Tries (x >>= f) := ⟨fun s hnone => ((h _).token_eq _ hnone).trans (hx.token_eq s)⟩

instance {c : Prop} [Decidable c] {x y : Reader (Option α)} [Tries x] [Tries y] : Tries (if c then x else y) := by
  split <;> infer_instance

/-- What is read first is the answer, if it is anything. -/
theorem tries_orElse {x : Reader (Option α)} {f : Option α → Reader (Option α)} [hx : Tries x]
    (hsome : ∀ a, f (some a) = pure (some a)) (hnone : Tries (f none)) : Tries (x >>= f) := by
  refine ⟨fun s hs => ?_⟩
  rw [run_bind] at hs ⊢
  cases hrun : (x.run s).1 with
  | some a =>
    rw [hrun, hsome] at hs
    cases hs
  | none =>
    rw [hrun] at hs
    exact (hnone.token_eq _ hs).trans (hx.token_eq s hrun)

/-- Something is always read. -/
class Succeeds (x : Reader (Option α)) : Prop where
  isSome : ∀ s, (x.run s).1.isSome = true

instance {a : α} : Succeeds (pure (some a)) := ⟨fun _ => rfl⟩

instance succeeds_bind {x : Reader α} {f : α → Reader (Option β)} [h : ∀ a, Succeeds (f a)] : Succeeds (x >>= f) :=
  ⟨fun _ => (h _).isSome _⟩

instance {c : Prop} [Decidable c] {x y : Reader (Option α)} [Succeeds x] [Succeeds y] :
    Succeeds (if c then x else y) := by
  split <;> infer_instance

theorem succeeds_option {x : Reader (Option α)} {f : Option α → Reader (Option β)} [hx : Succeeds x]
    (h : ∀ a, Succeeds (f (some a))) : Succeeds (x >>= f) := by
  refine ⟨fun s => ?_⟩
  obtain ⟨a, ha⟩ := Option.isSome_iff_exists.mp (hx.isSome s)
  rw [run_bind, ha]
  exact (h a).isSome _

instance {f : Context → Context} {x : Reader (Option α)} [hx : Succeeds x] : Succeeds (within f x) :=
  ⟨fun s => hx.isSome { s with context := f s.context }⟩

instance {l : ListContext} {x : Reader (Option α)} [hx : Succeeds x] : Succeeds (inList l x) :=
  ⟨fun s => hx.isSome { s with lists := l :: s.lists }⟩

instance {x : Reader (Option α)} [h : Succeeds x] : Tries x := by
  refine ⟨fun s hnone => ?_⟩
  have hsome := h.isSome s
  rw [hnone] at hsome
  cases hsome

/-- If anything is read, its node begins at the offset. -/
class SpansSome (start : Nat) (x : Reader (Option Branch)) : Prop where
  spans : ∀ s : State, s.token.Sound s.source → ∀ a, (x.run s).1 = some a → Spans start a (x.run s).2

instance : SpansSome start (pure none) := ⟨fun _ _ _ => nofun⟩

instance {x : Reader Branch} [hx : SpansFrom start x] : SpansSome start (do return some (← x)) := by
  refine ⟨fun s hs a ha => ?_⟩
  cases ha
  exact hx.spans s hs

instance spansSome_bind {x : Reader α} {f : α → Reader (Option Branch)} [h : ∀ a, SpansSome start (f a)] :
    SpansSome start (x >>= f) := ⟨fun s hs => (h _).spans _ ((x.leads s).sound hs)⟩

instance {c : Prop} [Decidable c] {x y : Reader (Option Branch)} [SpansSome start x] [SpansSome start y] :
    SpansSome start (if c then x else y) := by
  split <;> infer_instance

/-- If anything is read at the offset, its node begins there. -/
class MaySpan (start : Nat) (x : Reader (Option Branch)) : Prop where
  spans : ∀ s : State, s.token.Sound s.source → s.token.fullStart = start →
    ∀ a, (x.run s).1 = some a → Spans start a (x.run s).2

instance maySpan_of_spansSome {x : Reader (Option Branch)} [h : SpansSome start x] : MaySpan start x :=
  ⟨fun s hs _ => h.spans s hs⟩

instance maySpan_here {f : Nat → Reader (Option Branch)} [h : MaySpan start (f start)] :
    MaySpan start (here >>= f) := by
  refine ⟨fun s hs hstart => ?_⟩
  subst hstart
  exact h.spans s hs rfl

instance maySpan_bind {x : Reader α} {f : α → Reader (Option Branch)} [hx : Stays x]
    [h : ∀ a, MaySpan start (f a)] : MaySpan start (x >>= f) :=
  ⟨fun s hs hstart => (h _).spans _ ((x.leads s).sound hs) ((hx.fullStart_eq s).trans hstart)⟩

instance {c : Prop} [Decidable c] {x y : Reader (Option Branch)} [MaySpan start x] [MaySpan start y] :
    MaySpan start (if c then x else y) := by
  split <;> infer_instance

instance maySpan_attempt {x : Reader (Option Branch)} [hx : MaySpan start x] : MaySpan start (attempt x) := by
  refine ⟨fun s hs hstart a ha => ?_⟩
  have hspans := hx.spans s hs hstart a
  dsimp only [attempt] at ha ⊢
  generalize x.run s = r at ha hspans
  obtain ⟨_ | b, t⟩ := r
  · cases ha
  · exact hspans ha

theorem maySpan_orElse {x : Reader (Option Branch)} {f : Option Branch → Reader (Option Branch)}
    [hx : Tries x] [hspans : MaySpan start x] (hsome : ∀ a, f (some a) = pure (some a))
    (hnone : MaySpan start (f none)) : MaySpan start (x >>= f) := by
  refine ⟨fun s hs hstart a ha => ?_⟩
  rw [run_bind] at ha ⊢
  cases hrun : (x.run s).1 with
  | some b =>
    rw [hrun, hsome] at ha
    rw [hsome]
    cases ha
    exact hspans.spans s hs hstart a hrun
  | none =>
    rw [hrun] at ha
    exact hnone.spans _ ((x.leads s).sound hs) ((congrArg Token.fullStart (hx.token_eq s hrun)).trans hstart) a ha

theorem spansAt_orElse {x : Reader (Option Branch)} {f : Option Branch → Reader Branch} [hx : Tries x]
    [hspans : MaySpan start x] (hsome : ∀ a, SpansOn start a (f (some a))) (hnone : SpansAt start (f none)) :
    SpansAt start (x >>= f) := by
  refine ⟨fun s hs hstart => ?_⟩
  have hsound := (x.leads s).sound hs
  rw [run_bind]
  cases hrun : (x.run s).1 with
  | some a => exact (hsome a).spans _ hsound (hspans.spans s hs hstart a hrun)
  | none => exact hnone.spans _ hsound ((congrArg Token.fullStart (hx.token_eq s hrun)).trans hstart)

/-! ## Tokens and names -/

instance spansAt_state {f : State → Reader Branch} [h : ∀ s : State, SpansFrom s.token.fullStart (f s)] :
    SpansAt start (state >>= f) := by
  refine ⟨fun s hs hstart => ?_⟩
  subst hstart
  exact (h s).spans s hs

instance : SpansAt start tokenNode := by
  unfold tokenNode
  infer_instance

instance : SpansAt start literal := by
  unfold literal
  infer_instance

instance : SpansAt start takeName := by
  unfold takeName
  infer_instance

instance : SpansAt start privateName := by
  unfold privateName
  infer_instance

instance {k : Kind} : SpansAt start (absent k) := by
  unfold absent
  infer_instance

instance {k : Kind} {cause : Cause} : SpansAt start (missing k cause) := by
  unfold missing
  infer_instance

instance {k : Kind} {cause : Cause} : SpansAt start (missingHere k cause) := by
  unfold missingHere
  infer_instance

instance {isName : Bool} {cause onPrivate : Option Cause} : SpansAt start (nameIf isName cause onPrivate) := by
  unfold nameIf
  infer_instance

instance {cause : Cause} : SpansAt start (nameOr cause) := by
  unfold nameOr
  infer_instance

instance {k inner : Kind} {tagged : Bool} {label : Label} {x : Reader Branch} [IsFalse k.isFrame] :
    SpansAt start (templateOf k inner tagged label x) := by
  unfold templateOf
  infer_instance

/-! ## Brackets and operators -/

/-- Nothing but trivia stands between brackets and what is read between them. -/
theorem fills_brackets {first last k : Kind} {p : Parts} {f : NodeInfo → NodeInfo} {s u : State} {e : Branch}
    (hfirst : first.isBracket = true) (hlast : last.isBracket = true) (hs : s.token.Sound s.source)
    (hleads : ((expect first).run s).2.Leads u) (he : Spans ((expect first).run s).2.token.fullStart e u)
    (hquiet : ((expect last).run u).2.complaints = #[]) :
    ((finish k s.token.fullStart p f).run ((expect last).run u).2).1.ast.Fills s.source e.ast := by
  have hopen := (expect first).leads s
  have hclose := (expect last).leads u
  have hinside := complaints_of_leads hclose hquiet
  have hsource : u.source = s.source := hleads.source.trans hopen.source
  have hbegin := run_expect_bracket hfirst hs (complaints_of_leads hleads hinside)
  have hend := run_expect_bracket hlast (hleads.sound (hopen.sound hs)) hquiet
  refine ⟨fun hlong => ?_, ?_⟩
  · obtain ⟨hstart, hstop⟩ | hstart :=
      stands_finish k s.token.fullStart p f ((expect last).run u).2
    · exact absurd (hstart.trans hstop.symm) (Nat.ne_of_lt hlong)
    · rw [hstart, hclose.source, hsource, ← hbegin, ← hsource]
      exact he.stands
  · change _ = ((expect last).run u).2.token.fullStart
    rw [hend, ← hsource]
    exact congrArg (u.source.skipTrivia · + 1) (he.stop_eq hinside)

/-- Nothing but trivia stands between an operator and what is read on both sides of it. -/
theorem spans_joined {token : Kind} {left operator right : Branch} {s u v : State} (hs : Spans start left s)
    (hsu : s.Leads u) (huv : u.Leads v) (hoperator : Spans s.token.fullStart operator u)
    (hright : Spans u.token.fullStart right v) :
    Spans start
      ((finish .binaryExpression start (.one .left left ++ .one .operator operator ++ .one .right right)
        fun i => { i with token }).run v).1
      ((finish .binaryExpression start (.one .left left ++ .one .operator operator ++ .one .right right)
        fun i => { i with token }).run v).2 := by
  obtain ⟨⟨i, ls⟩, hl⟩ := left
  obtain ⟨⟨j, os⟩, ho⟩ := operator
  obtain ⟨⟨k, rs⟩, hr⟩ := right
  refine spans_finish fun hquiet => ⟨fun _ => ?_, nofun, nofun, nofun⟩
  have hquietly := complaints_of_leads huv hquiet
  intro o hchild
  change some (Ast.node { j with label := .operator } os) = some o at hchild
  cases hchild
  refine ⟨.node { i with label := .left } ls, .node { k with label := .right } rs, rfl, rfl, ?_, ?_⟩
  · have hstop : i.stop = s.token.fullStart := hs.stop_eq (complaints_of_leads hsu hquietly)
    have hstands := hoperator.stands
    rw [← hstop, ← huv.source] at hstands
    exact hstands
  · have hstop : j.stop = u.token.fullStart := hoperator.stop_eq hquietly
    have hstands := hright.stands
    rw [← hstop] at hstands
    exact hstands

theorem spansOn_joined {token : Kind} {left : Branch} {x : Reader Branch} {f : Branch → Reader Branch}
    (hx : ∀ i, SpansAt i x) (hf : ∀ e, SpansOn start e (f e)) :
    SpansOn start left (do
      let operator ← tokenNode
      let right ← x
      let e ← finish .binaryExpression start (.one .left left ++ .one .operator operator ++ .one .right right)
        fun i => { i with token }
      f e) := by
  refine ⟨fun s hs hleft => ?_⟩
  have hoperator := (inferInstance : SpansAt _ tokenNode).spans s hs rfl
  have hsound := (tokenNode.leads s).sound hs
  have hright := (hx _).spans (tokenNode.run s).2 hsound rfl
  have hleads := x.leads (tokenNode.run s).2
  exact (hf _).spans _ (hleads.sound hsound) (spans_joined hleft (tokenNode.leads s) hleads hoperator hright)

theorem spansOn_of_fullStart {a : Branch} {x : Reader Branch} (h : a.fullStart = start → SpansOn start a x) :
    SpansOn start a x := ⟨fun s hs ha => (h ha.fullStart_eq).spans s hs ha⟩

theorem spansOn_tokenNode? {a : Branch} {k : Kind} {f : Option Branch → Reader Branch}
    (hsome : SpansOn start a (tokenNode >>= fun b => f (some b))) (hnone : SpansOn start a (f none)) :
    SpansOn start a (tokenNode? k >>= f) := by
  refine ⟨fun s hs ha => ?_⟩
  rw [tokenNode?, run_bind, run_bind, run_isAt]
  dsimp only
  split
  · exact hsome.spans s hs ha
  · exact hnone.spans s hs ha

/-- What is put together behind a complaint may be of any kind. -/
theorem spansFrom_complained {i : Nat} {cause : Cause} {empty : Bool} {k : Kind} {parts : Parts}
    {f : NodeInfo → NodeInfo} : SpansFrom start (do
      complainAt i cause empty
      finish k start parts f) :=
  ⟨fun s _ => spans_finish fun hquiet => absurd hquiet (complaints_complainAt s i cause empty)⟩

end Grammar.Reader
end LintRepair.Syntax
