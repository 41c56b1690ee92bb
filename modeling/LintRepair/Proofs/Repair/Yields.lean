import LintRepair.Repair.Journal
import Mathlib.Data.Prod.Basic

/-!
# Runs that give a result

A run either fails or yields a value and a new journal. A compound run yields exactly when its parts
yield one after the other. A run that only speaks to the log comes to the same from every journal.
What a run leaves in the journal when it fails is said by triples with two postconditions.
-/
namespace LintRepair.Run

variable {α β : Type} {x : Run α} {j j' : Journal} {a b : α}

/-- From the first journal the run gets to the value and the second journal. -/
def Yields (x : Run α) (j : Journal) (a : α) (j' : Journal) : Prop :=
  Id.run (StateT.run (ExceptT.run x) j) = (.ok a, j')

theorem Yields.unique (h : x.Yields j a j') {j'' : Journal} (h' : x.Yields j b j'') : a = b := by
  rw [Yields, h] at h'
  exact Except.ok.inj (Prod.mk.inj h').1

theorem Yields.unique_journal (h : x.Yields j a j') {j'' : Journal} (h' : x.Yields j b j'') :
    j' = j'' := by
  rw [Yields, h] at h'
  exact (Prod.mk.inj h').2

@[simp] theorem yields_pure : (pure a : Run α).Yields j b j' ↔ a = b ∧ j = j' := by
  change ((.ok a, j) : Except Fault α × Journal) = (.ok b, j') ↔ _
  simp

theorem yields_bind {f : α → Run β} {c : β} {j'' : Journal} :
    (x >>= f).Yields j c j'' ↔ ∃ a j', x.Yields j a j' ∧ (f a).Yields j' c j'' := by
  unfold Yields
  simp only [bind, ExceptT.bind, ExceptT.mk, ExceptT.run, StateT.bind, StateT.run, Id.run]
  cases hx : x j with
  | mk r k =>
    cases r with
    | error f =>
      refine iff_of_false ?_ ?_
      · intro h
        cases h
      · rintro ⟨b, k', hb, -⟩
        cases hb
    | ok a =>
      constructor
      · exact fun h => ⟨a, k, rfl, h⟩
      · rintro ⟨b, k', hb, h⟩
        cases hb
        exact h

theorem Yields.bind {f : α → Run β} {c : β} {j'' : Journal} (hx : x.Yields j a j')
    (hf : (f a).Yields j' c j'') : (x >>= f).Yields j c j'' :=
  yields_bind.mpr ⟨a, j', hx, hf⟩

theorem Yields.pure (a : α) (j : Journal) : (Pure.pure a : Run α).Yields j a j :=
  yields_pure.mpr ⟨rfl, rfl⟩

@[simp] theorem not_yields_throw {f : Fault} : ¬ (throw f : Run α).Yields j a j' := by
  intro h
  cases h

theorem not_yields_bind_throw {f : α → Fault} {b : β} :
    ¬ (x >>= fun a => (throw (f a) : Run β)).Yields j b j' := by
  rw [yields_bind]
  rintro ⟨a, k, -, h⟩
  exact not_yields_throw h

@[simp] theorem yields_log {entry : LogEntry} {u : Unit} :
    (Run.log entry).Yields j u j' ↔ { j with entries := j.entries ++ [entry] } = j' := by
  change ((.ok (), { j with entries := j.entries ++ [entry] }) : Except Fault Unit × Journal) =
    (.ok u, j') ↔ _
  simp

theorem yields_tryCatch {handle : Fault → Run α}
    (hfail : ∀ f j a j', ¬ (handle f).Yields j a j') :
    (tryCatch x handle).Yields j a j' ↔ x.Yields j a j' := by
  unfold Yields
  simp only [tryCatch, tryCatchThe, MonadExceptOf.tryCatch, ExceptT.tryCatch, ExceptT.mk,
    ExceptT.run, StateT.run, bind, StateT.bind, Id.run]
  cases hx : x j with
  | mk r k =>
    cases r with
    | error f => exact iff_of_false (hfail f k a j') (by simp)
    | ok a => rfl

@[simp] theorem yields_lift {r : Except Fault α} :
    (Run.lift r).Yields j a j' ↔ r = .ok a ∧ j = j' := by
  cases r with
  | error f => simp [Run.lift]
  | ok b => simp [Run.lift]

/-- From every journal the run gets to a value of this kind. -/
def Gives (x : Run α) (P : α → Prop) : Prop := ∀ j, ∃ a j', x.Yields j a j' ∧ P a

theorem Gives.bind {P : α → Prop} {Q : β → Prop} {f : α → Run β} (hx : x.Gives P)
    (hf : ∀ a, P a → (f a).Gives Q) : (x >>= f).Gives Q := by
  intro j
  obtain ⟨a, k, ha, hP⟩ := hx j
  obtain ⟨b, j', hb, hQ⟩ := hf a hP k
  exact ⟨b, j', ha.bind hb, hQ⟩

theorem gives_pure {P : α → Prop} (ha : P a) : (Pure.pure a : Run α).Gives P :=
  fun j => ⟨a, j, .pure a j, ha⟩

theorem gives_log (entry : LogEntry) : (Run.log entry).Gives fun _ => True :=
  fun _ => ⟨(), _, yields_log.mpr rfl, trivial⟩

theorem gives_lift {P : α → Prop} {r : Except Fault α} (hr : r = .ok a) (ha : P a) :
    (Run.lift r).Gives P :=
  fun j => ⟨a, j, yields_lift.mpr ⟨hr, rfl⟩, ha⟩

/-- Two runs that go on alike from whatever their common part yields are alike. -/
theorem run_bind_congr {f g : α → Run β}
    (h : ∀ a j', x.Yields j a j' → (f a).run.run j' = (g a).run.run j') :
    (x >>= f).run.run j = (x >>= g).run.run j := by
  unfold Yields at h
  simp only [bind, ExceptT.bind, ExceptT.mk, ExceptT.run, StateT.bind, StateT.run, Id.run] at h ⊢
  cases hx : x j with
  | mk r k =>
    cases r with
    | error f => rfl
    | ok a => exact h a k hx

theorem foldlM_invariant {P : β → Prop} {f : β → α → Run β} {xs : List α}
    (hstep : ∀ a ∈ xs, ∀ b j b' j', P b → (f b a).Yields j b' j' → P b') {b c : β} (hb : P b)
    (h : (xs.foldlM f b).Yields j c j') : P c := by
  induction xs generalizing b j with
  | nil =>
    rw [List.foldlM_nil, yields_pure] at h
    exact h.1 ▸ hb
  | cons x rest ih =>
    rw [List.foldlM_cons, yields_bind] at h
    obtain ⟨b', k, hx, hrest⟩ := h
    exact ih (fun a ha => hstep a (List.mem_cons_of_mem _ ha))
      (hstep x List.mem_cons_self _ _ _ _ hb hx) hrest

/-- What a run comes to, without what it leaves in the journal. -/
def outcome (x : Run α) (j : Journal) : Except Fault α := (Id.run (StateT.run (ExceptT.run x) j)).1

theorem exists_yields {f : α → β} {b : β} (h : (x.outcome j).toOption.map f = some b) :
    ∃ a j', x.Yields j a j' ∧ f a = b := by
  unfold outcome at h
  unfold Yields
  generalize Id.run (StateT.run (ExceptT.run x) j) = result at h
  obtain ⟨r, j'⟩ := result
  cases r with
  | error fault => cases h
  | ok a => exact ⟨a, j', rfl, Option.some.inj h⟩

/-- From the first journal the run fails and leaves the second one. -/
def Fails (x : Run α) (j : Journal) (f : Fault) (j' : Journal) : Prop :=
  Id.run (StateT.run (ExceptT.run x) j) = (.error f, j')

theorem exists_fails (h : (x.outcome j).toOption.isNone = true) : ∃ f j', x.Fails j f j' := by
  unfold outcome at h
  unfold Fails
  generalize Id.run (StateT.run (ExceptT.run x) j) = result at h
  obtain ⟨r, j'⟩ := result
  cases r with
  | error f => exact ⟨f, j', rfl⟩
  | ok a => cases h

/-- The run takes no notice of the journal and only adds to its log. -/
def Speaks (x : Run α) : Prop :=
  ∃ r entries, ∀ j, Id.run (StateT.run (ExceptT.run x) j) =
    (r, { j with entries := j.entries ++ entries })

theorem speaks_pure (a : α) : (pure a : Run α).Speaks := by
  refine ⟨.ok a, [], fun j => ?_⟩
  rw [List.append_nil]
  rfl

theorem speaks_throw (f : Fault) : (throw f : Run α).Speaks := by
  refine ⟨.error f, [], fun j => ?_⟩
  rw [List.append_nil]
  rfl

theorem speaks_log (entry : LogEntry) : (Run.log entry).Speaks := ⟨.ok (), [entry], fun _ => rfl⟩

theorem speaks_lift (r : Except Fault α) : (Run.lift r).Speaks := by
  cases r with
  | error f => exact speaks_throw f
  | ok a => exact speaks_pure a

theorem Speaks.bind {f : α → Run β} (hx : x.Speaks) (hf : ∀ a, (f a).Speaks) :
    (x >>= f).Speaks := by
  obtain ⟨r, entries, hr⟩ := hx
  simp only [ExceptT.run, StateT.run, Id.run] at hr
  cases r with
  | error fault =>
    refine ⟨.error fault, entries, fun j => ?_⟩
    simp only [Bind.bind, ExceptT.bind, ExceptT.mk, ExceptT.run, StateT.bind, StateT.run, Id.run, hr]
    rfl
  | ok a =>
    obtain ⟨s, more, hs⟩ := hf a
    simp only [ExceptT.run, StateT.run, Id.run] at hs
    refine ⟨s, entries ++ more, fun j => ?_⟩
    rw [← List.append_assoc]
    simp only [Bind.bind, ExceptT.bind, ExceptT.mk, ExceptT.run, StateT.bind, StateT.run, Id.run, hr]
    exact hs _

theorem Speaks.foldlM {f : β → α → Run β} {xs : List α} (hf : ∀ b, ∀ a ∈ xs, (f b a).Speaks) (b : β) :
    (xs.foldlM f b).Speaks := by
  induction xs generalizing b with
  | nil => exact speaks_pure b
  | cons x rest ih =>
    rw [List.foldlM_cons]
    exact (hf b x List.mem_cons_self).bind
      fun c => ih (fun b a ha => hf b a (List.mem_cons_of_mem _ ha)) c

theorem Speaks.yields (hx : x.Speaks) (h : x.Yields j a j') (k : Journal) :
    ∃ k', x.Yields k a k' := by
  obtain ⟨r, entries, hr⟩ := hx
  have hj := (hr j).symm.trans h
  obtain rfl : r = .ok a := (Prod.mk.inj hj).1
  exact ⟨_, hr k⟩

/-- The run leaves the abort signal alone. -/
def Quiet (x : Run α) : Prop :=
  ∀ j, (Id.run (StateT.run (ExceptT.run x) j)).2.signalReads = j.signalReads

theorem Quiet.signalReads_eq (hx : x.Quiet) (h : x.Yields j a j') :
    j'.signalReads = j.signalReads := by
  have hj := hx j
  rwa [h] at hj

theorem Speaks.quiet (hx : x.Speaks) : x.Quiet := by
  obtain ⟨r, entries, hr⟩ := hx
  intro j
  rw [hr]

theorem Quiet.bind {f : α → Run β} (hx : x.Quiet) (hf : ∀ a, (f a).Quiet) : (x >>= f).Quiet := by
  intro j
  have hj := hx j
  simp only [Bind.bind, ExceptT.bind, ExceptT.mk, ExceptT.run, StateT.bind, StateT.run, Id.run]
    at hj ⊢
  cases hxj : x j with
  | mk r k =>
    rw [hxj] at hj
    cases r with
    | error f => exact hj
    | ok a => exact (hf a k).trans hj

/-- From a journal with `P` the run yields with `Q`, or it fails with `E`. -/
def Leaves (x : Run α) (P : Journal → Prop) (Q : α → Journal → Prop) (E : Journal → Prop) : Prop :=
  ∀ j, P j → match Id.run (StateT.run (ExceptT.run x) j) with
    | (.ok a, j') => Q a j'
    | (.error _, j') => E j'

section Leaves

variable {P E R : Journal → Prop} {Q : α → Journal → Prop} {S : β → Journal → Prop}

theorem Leaves.of_yields (hx : x.Leaves P Q E) (hj : P j) (h : x.Yields j a j') : Q a j' := by
  have hend := hx j hj
  rwa [h] at hend

theorem Leaves.of_fails {f : Fault} (hx : x.Leaves P Q E) (hj : P j) (h : x.Fails j f j') :
    E j' := by
  have hend := hx j hj
  rwa [h] at hend

theorem Leaves.bind {f : α → Run β} (hx : x.Leaves P Q E) (hf : ∀ a, (f a).Leaves (Q a) S E) :
    (x >>= f).Leaves P S E := by
  intro j hj
  have hend := hx j hj
  simp only [Bind.bind, ExceptT.bind, ExceptT.mk, ExceptT.run, StateT.bind, StateT.run, Id.run]
    at hend ⊢
  cases hxj : x j with
  | mk r k =>
    rw [hxj] at hend
    cases r with
    | error f => exact hend
    | ok a => exact hf a k hend

theorem Leaves.tryCatch {handle : Fault → Run α} (hx : x.Leaves P Q R)
    (hhandle : ∀ f, (handle f).Leaves R Q E) : (tryCatch x handle).Leaves P Q E := by
  intro j hj
  have hend := hx j hj
  simp only [MonadExcept.tryCatch, tryCatchThe, MonadExceptOf.tryCatch, ExceptT.tryCatch, ExceptT.mk,
    ExceptT.run, StateT.run, Bind.bind, StateT.bind, Id.run] at hend ⊢
  cases hxj : x j with
  | mk r k =>
    rw [hxj] at hend
    cases r with
    | error f => exact hhandle f k hend
    | ok a => exact hend

theorem Leaves.mono {Q' : α → Journal → Prop} (hx : x.Leaves P Q R) (hQ : ∀ a j, Q a j → Q' a j)
    (hR : ∀ j, R j → E j) : x.Leaves P Q' E := by
  intro j hj
  have hend := hx j hj
  generalize Id.run (StateT.run (ExceptT.run x) j) = result at hend ⊢
  obtain ⟨r, j'⟩ := result
  cases r with
  | error f => exact hR j' hend
  | ok a => exact hQ a j' hend

theorem leaves_and {p : Prop} (h : p → x.Leaves P Q E) : x.Leaves (fun j => p ∧ P j) Q E :=
  fun j hj => h hj.1 j hj.2

theorem leaves_pure (h : ∀ j, P j → Q a j) : (Pure.pure a : Run α).Leaves P Q E := h

theorem leaves_throw {f : Fault} (h : ∀ j, P j → E j) : (throw f : Run α).Leaves P Q E := h

theorem leaves_lift {r : Except Fault α} (h : ∀ a, r = .ok a → ∀ j, P j → Q a j)
    (hfault : ∀ j, P j → E j) : (Run.lift r).Leaves P Q E := by
  cases r with
  | error f => exact hfault
  | ok a => exact h a rfl

theorem leaves_release {S : Unit → Journal → Prop} {number : Nat}
    (h : ∀ j, P j → S () { j with released := j.released ++ [number] }) :
    (Run.release number).Leaves P S E := h

end Leaves

end LintRepair.Run
