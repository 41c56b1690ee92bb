import LintRepair.Project.Batches
import LintRepair.Proofs.Project.Independence

/-!
# The batch loop

A list is worked off by a counter that goes up by the size of the batches while it is below the length
of the list, and each turn works on the members from the counter on. The batches of a list are what
this loop goes through. It ends for every size from one on, and for a list with members for no other.
-/
namespace LintRepair

variable {α β σ : Type}

/-- The place in a list that an index stands for; below zero it counts from the end. -/
def sliceIndex (length : Nat) (i : Int) : Nat :=
  if i < 0 then (length + i).toNat else min i.toNat length

/-- The members of a list from an index up to another one. -/
def slice (xs : List α) (i j : Int) : List α :=
  (xs.take (sliceIndex xs.length j)).drop (sliceIndex xs.length i)

/-- The slices that the loop takes from a counter on, if it comes to an end. -/
inductive Windows (size : Int) (xs : List α) : Int → List (List α) → Prop where
  | stop {i : Int} (h : xs.length ≤ i) : Windows size xs i []
  | turn {i : Int} {bs : List (List α)} (h : i < xs.length) (rest : Windows size xs (i + size) bs) :
    Windows size xs i (slice xs i (i + size) :: bs)

theorem slice_forward {size i : Int} {xs : List α} (hsize : 1 ≤ size) (hi : 0 ≤ i) :
    slice xs i (i + size) = (xs.drop i.toNat).take size.toNat := by
  unfold slice sliceIndex
  rw [if_neg (by lia), if_neg (by lia), List.drop_take, Int.toNat_add hi (by lia)]
  by_cases hle : i.toNat ≤ xs.length
  · rw [Nat.min_eq_left hle, List.take_eq_take_iff, List.length_drop]
    lia
  · rw [List.drop_of_length_le (by lia), List.drop_of_length_le (by lia), List.take_nil,
      List.take_nil]

theorem pieces_drop {size i : Int} {xs : List α} (hsize : 1 ≤ size) (hi : 0 ≤ i)
    (hlt : i < xs.length) : pieces (size.toNat - 1) (xs.drop i.toNat) =
      slice xs i (i + size) :: pieces (size.toNat - 1) (xs.drop (i + size).toNat) := by
  rw [slice_forward hsize hi, Int.toNat_add hi (by lia), ← List.drop_drop]
  obtain ⟨n, hn⟩ : ∃ n, size.toNat = n + 1 := ⟨size.toNat - 1, by lia⟩
  rw [hn, Nat.add_sub_cancel]
  cases hxs : xs.drop i.toNat with
  | nil =>
    have := List.drop_eq_nil_iff.mp hxs
    lia
  | cons x rest => rw [pieces, List.take_succ_cons, List.drop_succ_cons]

theorem exists_windows {size i : Int} (xs : List α) (hsize : 1 ≤ size) (hi : 0 ≤ i) :
    Windows size xs i (pieces (size.toNat - 1) (xs.drop i.toNat)) := by
  obtain ⟨k, hk⟩ : ∃ k : Nat, xs.length - i ≤ k := ⟨xs.length, by lia⟩
  induction k generalizing i with
  | zero =>
    rw [List.drop_of_length_le (by lia), pieces]
    exact .stop (by lia)
  | succ k ih =>
    by_cases hlt : i < xs.length
    · rw [pieces_drop hsize hi hlt]
      exact .turn hlt (ih (by lia) (by lia))
    · rw [List.drop_of_length_le (by lia), pieces]
      exact .stop (by lia)

/-- A loop that ends goes forward, unless there is nothing to go through. -/
theorem Windows.one_le {size i : Int} {xs : List α} {bs : List (List α)}
    (h : Windows size xs i bs) (hi : i < xs.length) : 1 ≤ size := by
  induction h with
  | stop h => lia
  | @turn i bs h rest ih =>
    by_cases hlt : i + size < xs.length
    · exact ih hlt
    · lia

theorem Windows.unique {size i : Int} {xs : List α} {bs bs' : List (List α)}
    (h : Windows size xs i bs) (h' : Windows size xs i bs') : bs = bs' := by
  induction h generalizing bs' with
  | stop h =>
    cases h' with
    | stop _ => rfl
    | turn hlt _ => lia
  | turn h rest ih =>
    cases h' with
    | stop _ => lia
    | turn _ rest' => rw [ih rest']

/-- The batches of a list are what the loop goes through. -/
theorem windows_iff_batches {size : Int} {xs : List α} {bs : List (List α)} :
    Windows size xs 0 bs ↔ batches size xs = .ok bs := by
  unfold batches
  by_cases hempty : xs.isEmpty
  · obtain rfl := List.isEmpty_iff.mp hempty
    rw [if_pos hempty]
    constructor
    · intro h
      rw [h.unique (.stop (Int.le_refl 0))]
    · intro h
      obtain rfl : [] = bs := Except.ok.inj h
      exact .stop (Int.le_refl 0)
  · rw [if_neg hempty]
    have hpos : (0 : Int) < xs.length := by
      have := List.length_pos_iff.mpr fun h => hempty (List.isEmpty_iff.mpr h)
      lia
    by_cases hsize : size < 1
    · rw [if_pos hsize]
      refine ⟨fun h => ?_, fun h => by cases h⟩
      have := h.one_le hpos
      lia
    · rw [if_neg hsize]
      have hloop : Windows size xs 0 _ := exists_windows xs (by lia) (Int.le_refl 0)
      constructor
      · intro h
        rw [h.unique hloop]
        rfl
      · intro h
        obtain rfl := Except.ok.inj h
        exact hloop

theorem Windows.flatten {size : Int} {xs : List α} {bs : List (List α)}
    (h : Windows size xs 0 bs) : bs.flatten = xs := by
  by_cases hxs : xs = []
  · subst hxs
    rw [h.unique (.stop (Int.le_refl 0))]
    rfl
  · have hpos : (0 : Int) < xs.length := by
      have := List.length_pos_iff.mpr hxs
      lia
    have hsize := h.one_le hpos
    rw [h.unique (exists_windows xs hsize (Int.le_refl 0))]
    exact pieces_flatten _ _

/-! ## Working through the batches -/

/-- The members of a list are worked on one after the other, each once: the work on each starts from
the files that the work on the members before it has left. -/
inductive InTurn (work : α → Work β) : List (α × Except Fault β) → Session → Session → Prop where
  | done {s s' : Session} (h : s'.files = s.files) : InTurn work [] s s'
  | next {x : α} {r : Except Fault β} {ends : List (α × Except Fault β)} {s s₁ s₂ s' : Session}
    (h : s₁.files = s.files) (hx : (work x).on s₁ = (r, s₂)) (rest : InTurn work ends s₂ s') :
    InTurn work ((x, r) :: ends) s s'

section Turns

variable {work : α → Work β} {take : σ → α → Except Fault β → Work σ}
  {taken : σ → α → Except Fault β → σ} {ends more : List (α × Except Fault β)} {s s' s'' : Session}

theorem InTurn.from (h : InTurn work ends s' s'') (hfiles : s'.files = s.files) :
    InTurn work ends s s'' := by
  cases h with
  | done h => exact .done (h.trans hfiles)
  | next h hx rest => exact .next (h.trans hfiles) hx rest

theorem InTurn.append (h : InTurn work ends s s') (h' : InTurn work more s' s'') :
    InTurn work (ends ++ more) s s'' := by
  induction h with
  | done h => exact h'.from h
  | next h hx rest ih => exact .next h hx (ih h')

theorem settleAll_inTurn (xs : List α) (work : α → Work β) (s : Session) :
    ∃ ends s', (settleAll xs work).on s = (.ok ends, s') ∧ ends.map Prod.fst = xs ∧
      InTurn work ends s s' := by
  induction xs generalizing s with
  | nil => exact ⟨[], s, rfl, rfl, .done rfl⟩
  | cons x rest ih =>
    obtain ⟨ends, s', hrest, hxs, hturns⟩ := ih ((work x).on s).2
    refine ⟨_, s', settleAll_cons_on hrest, ?_, .next rfl rfl hturns⟩
    rw [List.map_cons, hxs]

theorem takeAll_on (htake : ∀ c x r, Matches (Session.Alike Eq) Eq (take c x r) (pure (taken c x r)))
    (c : σ) (ends : List (α × Except Fault β)) (s : Session) :
    ∃ s', (takeAll take c ends).on s = (.ok (ends.foldl (fun c y => taken c y.1 y.2) c), s') ∧
      s'.files = s.files :=
  (takeAll_matches htake ends c).exists_on (t := s) rfl rfl

variable (work)

theorem foldlM_inTurn
    (htake : ∀ c x r, Matches (Session.Alike Eq) Eq (take c x r) (pure (taken c x r)))
    (bs : List (List α)) (c : σ) (s : Session) : ∃ ends s',
      (bs.foldlM (fun c batch => settleAll batch work >>= takeAll take c) c).on s =
        (.ok (ends.foldl (fun c y => taken c y.1 y.2) c), s') ∧
      ends.map Prod.fst = bs.flatten ∧ InTurn work ends s s' := by
  induction bs generalizing c s with
  | nil => exact ⟨[], s, rfl, rfl, .done rfl⟩
  | cons batch rest ih =>
    obtain ⟨ends, s₁, hbatch, hxs, hturns⟩ := settleAll_inTurn batch work s
    obtain ⟨s₂, htaken, hfiles⟩ := takeAll_on htake c ends s₁
    obtain ⟨more, s', hrest, hys, hmore⟩ := ih (ends.foldl (fun c y => taken c y.1 y.2) c) s₂
    refine ⟨ends ++ more, s', ?_, ?_, hturns.append (hmore.from hfiles)⟩
    · rw [List.foldlM_cons, bind_assoc, Work.on_bind_of_ok hbatch, Work.on_bind_of_ok htaken, hrest,
        List.foldl_append]
    · rw [List.map_append, hxs, hys, List.flatten_cons]

/-- Where the loop ends, every member has been worked on once. -/
theorem inBatches_inTurn
    (htake : ∀ c x r, Matches (Session.Alike Eq) Eq (take c x r) (pure (taken c x r)))
    {size : Int} {xs : List α} {bs : List (List α)} (hbs : Windows size xs 0 bs) (start : σ)
    (s : Session) : ∃ ends s',
      (inBatches size xs work take start).on s =
        (.ok (ends.foldl (fun c y => taken c y.1 y.2) start), s') ∧
      ends.map Prod.fst = xs ∧ InTurn work ends s s' := by
  obtain ⟨ends, s', hon, hxs, hturns⟩ := foldlM_inTurn work htake bs start s
  rw [hbs.flatten] at hxs
  have hlift : (Work.lift (batches size xs)).on s = (.ok bs, s) := by
    rw [windows_iff_batches.mp hbs]
    rfl
  refine ⟨ends, s', ?_, hxs, hturns⟩
  unfold inBatches
  rw [Work.on_bind_of_ok hlift]
  exact hon

end Turns
end LintRepair
