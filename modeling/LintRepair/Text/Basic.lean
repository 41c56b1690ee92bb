/-!
# Texts as UTF-16 code units

Every offset, length and column of the library counts UTF-16 code units, so a text is the list of
its units and a slice is a `take` of a `drop`.
-/
namespace LintRepair

/-- A text, unit by unit. -/
abbrev Text := List UInt16

namespace Text

/-- The unit of a character of the basic plane. -/
def unit (c : Char) : UInt16 := c.val.toUInt16

/-- The one or two units of a character. -/
def ofChar (c : Char) : Text :=
  if c.val < 0x10000 then [c.val.toUInt16]
  else
    let v := c.val - 0x10000
    [(0xD800 : UInt16) + (v >>> 10).toUInt16, (0xDC00 : UInt16) + (v &&& 0x3FF).toUInt16]

def ofChars (cs : List Char) : Text := cs.flatMap ofChar

def ofString (s : String) : Text := ofChars s.toList

def isHigh (u : UInt16) : Bool := 0xD800 ≤ u && u < 0xDC00

def isLow (u : UInt16) : Bool := 0xDC00 ≤ u && u < 0xE000

/-- The code point of a surrogate pair. -/
def joinPair (high low : UInt16) : Nat :=
  0x10000 + (high.toNat - 0xD800) * 0x400 + (low.toNat - 0xDC00)

/-- The characters of a text; a surrogate that stands alone becomes U+FFFD. -/
def toChars : Text → List Char
  | [] => []
  | [u] => if isHigh u || isLow u then [Char.ofNat 0xFFFD] else [Char.ofNat u.toNat]
  | u :: v :: rest =>
    if isHigh u && isLow v then Char.ofNat (joinPair u v) :: toChars rest
    else if isHigh u || isLow u then Char.ofNat 0xFFFD :: toChars (v :: rest)
    else Char.ofNat u.toNat :: toChars (v :: rest)

def toString (t : Text) : String := String.ofList (toChars t)

/-- The units from `start` up to but not including `stop`. -/
def slice (t : Text) (start stop : Nat) : Text := (t.take stop).drop start

theorem slice_eq_nil {t : Text} {start stop : Nat} (h : stop ≤ start) : t.slice start stop = [] := by
  rw [slice, List.drop_eq_nil_of_le]
  exact Nat.le_trans (List.length_take_le stop t) h

theorem slice_zero_length (t : Text) : t.slice 0 t.length = t := by
  rw [slice, List.take_length, List.drop_zero]

/-- Two slices that meet are the slice around both. -/
theorem slice_append_slice (t : Text) {a b c : Nat} (hab : a ≤ b) (hbc : b ≤ c) :
    t.slice a b ++ t.slice b c = t.slice a c := by
  induction t generalizing a b c with
  | nil => simp [slice]
  | cons u t ih =>
    cases c with
    | zero => obtain rfl : b = 0 := by omega
              simp [slice]
    | succ c =>
      cases b with
      | zero => obtain rfl : a = 0 := by omega
                simp [slice]
      | succ b =>
        have h := ih (a := a - 1) (b := b) (c := c) (by omega) (by omega)
        cases a with
        | zero => simpa [slice] using h
        | succ a => simpa [slice] using h

/-- The pieces of a text between the units `sep`. -/
def splitOn (sep : UInt16) : Text → List Text
  | [] => [[]]
  | u :: rest =>
    if u = sep then [] :: splitOn sep rest
    else match splitOn sep rest with
      | [] => [[u]]
      | piece :: pieces => (u :: piece) :: pieces

/-- Whether `needle` stands somewhere in the text. -/
def occursIn (needle : Text) : Text → Bool
  | [] => needle.isEmpty
  | u :: rest => needle.isPrefixOf (u :: rest) || occursIn needle rest

/-- Every occurrence of `needle` replaced, from the left; an empty `needle` is left alone. -/
def replaceAll (needle replacement : Text) (t : Text) : Text :=
  if needle.isEmpty then t else go t.length t
where
  go : Nat → Text → Text
    | 0, rest => rest
    | _ + 1, [] => []
    | n + 1, u :: rest =>
      if needle.isPrefixOf (u :: rest) then replacement ++ go n ((u :: rest).drop needle.length)
      else u :: go n rest

/-- Longest prefix whose units satisfy `p`, from the end. -/
def takeRightWhile (p : UInt16 → Bool) (t : Text) : Text := (t.reverse.takeWhile p).reverse

def dropRightWhile (p : UInt16 → Bool) (t : Text) : Text := (t.reverse.dropWhile p).reverse

theorem dropRightWhile_append_takeRightWhile (p : UInt16 → Bool) (t : Text) :
    t.dropRightWhile p ++ t.takeRightWhile p = t := by
  rw [dropRightWhile, takeRightWhile, ← List.reverse_append, List.takeWhile_append_dropWhile,
    List.reverse_reverse]

/-- Texts joined with a separator between neighbours. -/
def join (sep : Text) : List Text → Text
  | [] => []
  | [t] => t
  | t :: rest => t ++ sep ++ join sep rest

end Text

/-- The order of strings by their code units, in which every list of ids is sorted. -/
def unitsLe (a b : String) : Bool := Text.ofString a ≤ Text.ofString b

end LintRepair
