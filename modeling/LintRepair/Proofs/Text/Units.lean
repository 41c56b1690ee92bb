import LintRepair.Files.Route
import LintRepair.Text.Basic
import Mathlib.Data.List.Sort
import Mathlib.Data.String.Basic

/-!
# Strings and their code units

A string can be read back from its code units, so the order of the units is an order of strings and
a list of ids has one sorted form. The components of a path are those of the list of its characters.
-/
namespace LintRepair

namespace Text

theorem toChars_cons {u : UInt16} (hhigh : isHigh u = false) (hlow : isLow u = false)
    (rest : Text) : toChars (u :: rest) = Char.ofNat u.toNat :: toChars rest := by
  cases rest with
  | nil => simp [toChars, hhigh, hlow]
  | cons v rest => simp [toChars, hhigh, hlow]

theorem toChars_pair {u v : UInt16} (hhigh : isHigh u = true) (hlow : isLow v = true)
    (rest : Text) : toChars (u :: v :: rest) = Char.ofNat (joinPair u v) :: toChars rest := by
  simp [toChars, hhigh, hlow]

theorem toNat_surrogates {v : UInt32} (hv : v.toNat < 0x100000) :
    ((0xD800 : UInt16) + (v >>> 10).toUInt16).toNat = 0xD800 + v.toNat / 0x400 ∧
      ((0xDC00 : UInt16) + (v &&& 0x3FF).toUInt16).toNat = 0xDC00 + v.toNat % 0x400 := by
  have hhigh : (v >>> 10).toNat = v.toNat / 0x400 := by
    rw [UInt32.toNat_shiftRight]
    exact Nat.shiftRight_eq_div_pow ..
  have hlow : (v &&& 0x3FF).toNat = v.toNat % 0x400 := by
    rw [UInt32.toNat_and]
    exact Nat.and_two_pow_sub_one_eq_mod _ 10
  have hd8 : (0xD800 : UInt16).toNat = 0xD800 := rfl
  have hdc : (0xDC00 : UInt16).toNat = 0xDC00 := rfl
  constructor
  · rw [UInt16.toNat_add, UInt32.toNat_toUInt16, hhigh, hd8]
    lia
  · rw [UInt16.toNat_add, UInt32.toNat_toUInt16, hlow, hdc]
    lia

theorem joinPair_eq {u v : UInt16} {n : Nat} (hu : u.toNat = 0xD800 + n / 0x400)
    (hv : v.toNat = 0xDC00 + n % 0x400) : joinPair u v = 0x10000 + n := by
  unfold joinPair
  rw [hu, hv, Nat.add_sub_cancel_left, Nat.add_sub_cancel_left, Nat.add_assoc, Nat.mul_comm,
    Nat.div_add_mod]

theorem toChars_ofChar (c : Char) (rest : Text) :
    toChars (ofChar c ++ rest) = c :: toChars rest := by
  have hvalid : c.toNat < 0xD800 ∨ 0xDFFF < c.toNat ∧ c.toNat < 0x110000 := c.valid
  have hval : c.val.toNat = c.toNat := rfl
  unfold ofChar
  split
  · next hsmall =>
    have hsmall : c.toNat < 0x10000 := by simpa [UInt32.lt_iff_toNat_lt] using hsmall
    have hunit : c.val.toUInt16.toNat = c.toNat := by
      rw [UInt32.toNat_toUInt16, hval]
      lia
    rw [List.singleton_append, toChars_cons, hunit, Char.ofNat_toNat]
    · simp only [isHigh, UInt16.le_iff_toNat_le, UInt16.lt_iff_toNat_lt, hunit]
      simp
      lia
    · simp only [isLow, UInt16.le_iff_toNat_le, UInt16.lt_iff_toNat_lt, hunit]
      simp
      lia
  · next hlarge =>
    have hle : (0x10000 : UInt32) ≤ c.val := UInt32.not_lt.mp hlarge
    have hbound : (0x10000 : UInt32).toNat = 0x10000 := rfl
    have hsub : (c.val - 0x10000).toNat = c.toNat - 0x10000 := by
      rw [UInt32.toNat_sub_of_le _ _ hle, hbound, hval]
    have hlarge : 0x10000 ≤ c.toNat := by
      rw [UInt32.le_iff_toNat_le, hbound] at hle
      exact hle
    obtain ⟨hhigh, hlow⟩ := toNat_surrogates (v := c.val - 0x10000) (by lia)
    rw [hsub] at hhigh hlow
    simp only [List.cons_append, List.nil_append]
    rw [toChars_pair, joinPair_eq hhigh hlow, Nat.add_sub_of_le hlarge, Char.ofNat_toNat]
    · simp only [isHigh, UInt16.le_iff_toNat_le, UInt16.lt_iff_toNat_lt, hhigh]
      simp
      lia
    · simp only [isLow, UInt16.le_iff_toNat_le, UInt16.lt_iff_toNat_lt, hlow]
      simp
      lia

theorem toChars_ofChars (cs : List Char) : toChars (ofChars cs) = cs := by
  induction cs with
  | nil => rfl
  | cons c rest ih => rw [ofChars, List.flatMap_cons, toChars_ofChar, ← ofChars, ih]

theorem ofString_injective : Function.Injective ofString := by
  intro s t h
  have hchars := congrArg toChars h
  rw [ofString, ofString, toChars_ofChars, toChars_ofChars] at hchars
  exact String.toList_inj.mp hchars

end Text

/-- A list has one sorted form, in whatever order it is given. -/
theorem mergeSort_eq_of_perm {α : Type} (le : α → α → Bool)
    (htrans : ∀ a b c, le a b = true → le b c = true → le a c = true)
    (htotal : ∀ a b, (le a b || le b a) = true) {xs ys : List α} (h : xs.Perm ys)
    (hanti : ∀ a ∈ xs, ∀ b ∈ xs, le a b = true → le b a = true → a = b) :
    xs.mergeSort le = ys.mergeSort le := by
  have hperm : (xs.mergeSort le).Perm (ys.mergeSort le) :=
    (List.mergeSort_perm xs le).trans (h.trans (List.mergeSort_perm ys le).symm)
  refine hperm.eq_of_pairwise (fun a b ha hb => ?_)
    (List.pairwise_mergeSort htrans htotal xs) (List.pairwise_mergeSort htrans htotal ys)
  exact hanti a (List.mem_mergeSort.mp ha) b (h.symm.subset (List.mem_mergeSort.mp hb))

theorem unitsLe_antisymm {a b : String} (hab : unitsLe a b = true) (hba : unitsLe b a = true) :
    a = b := by
  simp only [unitsLe, decide_eq_true_eq] at hab hba
  exact Text.ofString_injective (List.le_antisymm hab hba)

namespace Path

open String

theorem splitOnAux_slash (path : String) (b i : Pos.Raw) (done : List String) :
    path.splitOnAux "/" b i 0 done = path.splitAux (· == '/') b i done := by
  have hslash : Pos.Raw.get "/" 0 = '/' := by decide
  have hend : Pos.Raw.atEnd "/" (Pos.Raw.next "/" 0) = true := by decide
  induction b, i, done using splitAux.induct path (· == '/') with
  | case1 b i done h => rw [splitOnAux, splitAux, if_pos h, dif_pos h]
  | case2 b i done h _ hc i' ih =>
    -- The slash takes one byte, so the component ends where it was found.
    have hback : (Pos.Raw.next path i).unoffsetBy (Pos.Raw.next "/" 0) = i := by
      rw [Pos.Raw.next, eq_of_beq hc]
      rfl
    rw [splitOnAux, splitAux, if_neg h, dif_neg h, hslash, if_pos hc]
    simp only [hc, hend, if_true, hback]
    exact ih
  | case3 b i done h _ hc ih =>
    rw [splitOnAux, splitAux, if_neg h, dif_neg h, hslash, if_neg hc]
    simp only [hc]
    exact ih

theorem components_eq (path : String) :
    components path = (path.toList.splitOn '/').map ofList := by
  rw [components, splitOn, if_neg (by decide), splitOnAux_slash]
  exact splitToList_of_valid path (· == '/')

end Path

end LintRepair
