import LintRepair.Text.Position

/-!
# Splicing a text

Spans of a text are replaced all at once, whatever the order in which they are listed. The text is
read unit by unit, so a stretch without spans stays and a span becomes its new text.
-/
namespace LintRepair

def Span.Contains (s : Span) (i : Nat) : Prop := s.start ≤ i ∧ i < s.stop

/-- A span and the text that takes its place. -/
structure Splice where
  span : Span
  text : Text
deriving DecidableEq, Repr, Inhabited

namespace Text

/-- What becomes of one unit: the first one of a span gives way to the new text, and the others of a
span to nothing. -/
def spliceAt (source : Text) (xs : List Splice) (i : Nat) : Text :=
  match xs.find? fun x => x.span.start = i with
  | some x => x.text
  | none =>
    if xs.any fun x => x.span.start < i && i < x.span.stop then [] else source.slice i (i + 1)

def spliceOn (source : Text) (xs : List Splice) (start stop : Nat) : Text :=
  (List.range' start (stop - start)).flatMap (source.spliceAt xs)

/-- The text with all the spans replaced. -/
def splice (source : Text) (xs : List Splice) : Text := source.spliceOn xs 0 source.length

theorem length_slice {t : Text} {a b : Nat} (hab : a ≤ b) (hb : b ≤ t.length) :
    a + (t.slice a b).length = b := by
  rw [slice, List.length_drop, List.length_take]
  omega

variable {source : Text} {xs : List Splice} {x : Splice} {a b c i : Nat}

theorem spliceOn_append (source : Text) (xs : List Splice) (hab : a ≤ b) (hbc : b ≤ c) :
    source.spliceOn xs a b ++ source.spliceOn xs b c = source.spliceOn xs a c := by
  have hrange : List.range' a (b - a) ++ List.range' b (c - b) = List.range' a (c - a) := by
    have h := List.range'_append_1 (s := a) (m := b - a) (n := c - b)
    rwa [show a + (b - a) = b by omega, show b - a + (c - b) = c - a by omega] at h
  rw [spliceOn, spliceOn, ← List.flatMap_append, hrange, spliceOn]

theorem spliceOn_self (source : Text) (xs : List Splice) (a : Nat) : source.spliceOn xs a a = [] := by
  rw [spliceOn, Nat.sub_self]
  rfl

theorem spliceAt_of_clear (source : Text) (hfull : ∀ x ∈ xs, x.span.start < x.span.stop)
    (hclear : ∀ x ∈ xs, ¬ x.span.Contains i) : source.spliceAt xs i = source.slice i (i + 1) := by
  have hnone : xs.find? (fun x => x.span.start = i) = none := by
    rw [List.find?_eq_none]
    intro x hx hstart
    have hi := of_decide_eq_true hstart
    have hlt := hfull x hx
    exact hclear x hx ⟨by omega, by omega⟩
  have hany : (xs.any fun x => x.span.start < i && i < x.span.stop) = false := by
    rw [List.any_eq_false]
    intro x hx hin
    simp only [Bool.and_eq_true, decide_eq_true_eq] at hin
    exact hclear x hx ⟨by omega, hin.2⟩
  rw [spliceAt, hnone]
  simp only [hany, Bool.false_eq_true, if_false]

theorem spliceOn_of_clear (hfull : ∀ x ∈ xs, x.span.start < x.span.stop) (hab : a ≤ b)
    (hclear : ∀ x ∈ xs, ∀ i, a ≤ i → i < b → ¬ x.span.Contains i) :
    source.spliceOn xs a b = source.slice a b := by
  obtain ⟨n, rfl⟩ : ∃ n, b = a + n := ⟨b - a, by omega⟩
  clear hab
  induction n with
  | zero => rw [Nat.add_zero, spliceOn_self, slice_eq_nil (Nat.le_refl a)]
  | succ n ih =>
    have hlast := spliceAt_of_clear source (i := a + n) hfull fun x hx =>
      hclear x hx (a + n) (by omega) (by omega)
    have hone : source.spliceOn xs (a + n) (a + n + 1) = source.spliceAt xs (a + n) := by
      rw [spliceOn, Nat.add_sub_cancel_left]
      exact List.append_nil _
    rw [← Nat.add_assoc, ← spliceOn_append source xs (Nat.le_add_right a n) (Nat.le_succ _),
      ih fun x hx i hai hin => hclear x hx i hai (by omega), hone, hlast,
      slice_append_slice _ (Nat.le_add_right a n) (Nat.le_succ _)]

/-- A span that shares no unit with another one becomes its new text. -/
theorem spliceOn_span (source : Text) (hfull : ∀ y ∈ xs, y.span.start < y.span.stop) (hx : x ∈ xs)
    (hone : ∀ y ∈ xs, ∀ i, y.span.Contains i → x.span.Contains i → y = x) :
    source.spliceOn xs x.span.start x.span.stop = x.text := by
  have hlt := hfull x hx
  have hself : xs.find? (fun y => y.span.start = x.span.start) = some x := by
    cases hfind : xs.find? (fun y => y.span.start = x.span.start) with
    | none => exact absurd (decide_eq_true rfl) (List.find?_eq_none.mp hfind x hx)
    | some y =>
      have hfound := List.find?_some hfind
      have hstart : y.span.start = x.span.start := of_decide_eq_true hfound
      have hy := List.mem_of_find?_eq_some hfind
      have hlt' := hfull y hy
      rw [hone y hy x.span.start ⟨by omega, by omega⟩ ⟨by omega, by omega⟩]
  have hrest : ∀ i ∈ List.range' (x.span.start + 1) (x.span.stop - x.span.start - 1),
      source.spliceAt xs i = [] := by
    intro i hi
    rw [List.mem_range'_1] at hi
    have hnone : xs.find? (fun y => y.span.start = i) = none := by
      rw [List.find?_eq_none]
      intro y hy hstart
      have hi' := of_decide_eq_true hstart
      have hlt' := hfull y hy
      have heq := hone y hy i ⟨by omega, by omega⟩ ⟨by omega, by omega⟩
      rw [heq] at hi'
      omega
    have hany : (xs.any fun y => y.span.start < i && i < y.span.stop) = true := by
      rw [List.any_eq_true]
      refine ⟨x, hx, ?_⟩
      simp only [Bool.and_eq_true, decide_eq_true_eq]
      omega
    rw [spliceAt, hnone]
    simp only [hany, if_true]
  obtain ⟨n, hn⟩ : ∃ n, x.span.stop - x.span.start = n + 1 :=
    ⟨x.span.stop - x.span.start - 1, by omega⟩
  rw [hn, Nat.add_sub_cancel] at hrest
  rw [spliceOn, hn, List.range'_succ, List.flatMap_cons, List.flatMap_eq_nil_iff.mpr hrest,
    List.append_nil, spliceAt, hself]

/-- Two words change their places. -/
example : splice [98, 32, 99] [⟨⟨2, 3⟩, [98]⟩, ⟨⟨0, 1⟩, [99]⟩] = [99, 32, 98] := by decide

end Text
end LintRepair
