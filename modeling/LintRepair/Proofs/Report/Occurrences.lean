import LintRepair.Report.Human
import LintRepair.Report.Json
import Mathlib.Data.List.Infix

/-!
# What a text shows

A part that occurs in a text is still there when the text is joined to others, shown in a style or laid out
as a value. Styles only put their codes in.
-/
namespace LintRepair

/-- A text has a part somewhere. -/
def Occurs (part text : String) : Prop := ∃ before after, text = before ++ part ++ after

section Occurrences

variable {part text more sep line : String} {lines : List String}

theorem occurs_refl (text : String) : Occurs text text := ⟨"", "", by simp⟩

theorem Occurs.left (h : Occurs part text) (more : String) : Occurs part (text ++ more) := by
  obtain ⟨before, after, rfl⟩ := h
  exact ⟨before, after ++ more, by simp only [String.append_assoc]⟩

theorem Occurs.right (h : Occurs part text) (more : String) : Occurs part (more ++ text) := by
  obtain ⟨before, after, rfl⟩ := h
  exact ⟨more ++ before, after, by simp only [String.append_assoc]⟩

theorem Occurs.trans (h : Occurs part text) (h' : Occurs text more) : Occurs part more := by
  obtain ⟨before, after, rfl⟩ := h'
  exact (h.right before).left after

theorem occurs_intercalate {some all : List String} (h : some <:+: all) (sep : String) :
    Occurs (sep.intercalate some) (sep.intercalate all) := by
  obtain ⟨front, back, rfl⟩ := h
  by_cases hsome : some = []
  · subst hsome
    exact ⟨"", sep.intercalate (front ++ [] ++ back), by simp⟩
  have hback : Occurs (sep.intercalate some) (sep.intercalate (some ++ back)) := by
    by_cases h : back = []
    · rw [h, List.append_nil]
      exact occurs_refl _
    · rw [String.intercalate_append_of_ne_nil hsome h, String.append_assoc]
      exact (occurs_refl _).left _
  rw [List.append_assoc]
  by_cases h : front = []
  · rwa [h, List.nil_append]
  · rw [String.intercalate_append_of_ne_nil h (List.append_ne_nil_of_left_ne_nil hsome back)]
    exact hback.right _

theorem occurs_line (h : line ∈ lines) (sep : String) : Occurs line (sep.intercalate lines) := by
  have hone : [line] <:+: lines := by
    obtain ⟨front, back, rfl⟩ := List.append_of_mem h
    exact ⟨front, back, by simp⟩
  have hoccurs := occurs_intercalate hone sep
  rwa [String.intercalate_singleton] at hoccurs

end Occurrences

/-! ## Styles -/

def Style.all : List Style := [red, green, yellow, blue, cyan, gray, dim, bold]

/-- Characters with style codes put in. -/
inductive Styled : List Char → List Char → Prop where
  | nil : Styled [] []
  | char (c : Char) {cs ds : List Char} (h : Styled cs ds) : Styled (c :: cs) (c :: ds)
  | code {s : Style} (hs : s ∈ Style.all) {code : String} (hcode : code = s.start ∨ code = s.stop)
    {cs ds : List Char} (h : Styled cs ds) : Styled cs (code.toList ++ ds)

theorem styled_refl (cs : List Char) : Styled cs cs := by
  induction cs with
  | nil => exact .nil
  | cons c rest ih => exact .char c ih

theorem Styled.append {as bs cs ds : List Char} (h : Styled as bs) (h' : Styled cs ds) :
    Styled (as ++ cs) (bs ++ ds) := by
  induction h with
  | nil => exact h'
  | char c h ih => exact .char c ih
  | code hs hcode h ih =>
    rw [List.append_assoc]
    exact .code hs hcode ih

section Paint

variable {s : Style} (hs : s ∈ Style.all)
include hs

theorem styled_paintChars (seen cs : List Char) : Styled cs (s.paintChars seen cs) := by
  have hstart {cs ds : List Char} (h : Styled cs ds) : Styled cs (s.start.toList ++ ds) :=
    .code hs (.inl rfl) h
  have hstop {cs ds : List Char} (h : Styled cs ds) : Styled cs (s.stop.toList ++ ds) :=
    .code hs (.inr rfl) h
  fun_induction Style.paintChars s seen cs with
  | case1 seen =>
    have hend := hstop .nil
    rwa [List.append_nil] at hend
  | case2 seen rest ih => exact hstop (.char _ (.char _ (hstart ih)))
  | case3 seen rest ih => exact hstop (.char _ (hstart ih))
  | case4 seen c rest _ _ _ ih => exact .char _ (hstart ih)
  | case5 seen c rest _ _ _ ih => exact .char _ ih

theorem styled_paint (text : String) : Styled text.toList (s.paint text).toList := by
  unfold Style.paint
  split
  · next hempty =>
    rw [String.isEmpty_iff.mp hempty]
    exact .nil
  · rw [String.toList_ofList]
    exact .code hs (.inl rfl) (styled_paintChars hs [] _)

end Paint

namespace HumanStyle

variable {h : HumanStyle}

/-- How a text is shown: as it is without colours, with style codes in it otherwise. -/
def Wears (h : HumanStyle) (plain shown : String) : Prop :=
  if h.colors then Styled plain.toList shown.toList else shown = plain

theorem wears_refl (h : HumanStyle) (plain : String) : h.Wears plain plain := by
  unfold Wears
  split
  · exact styled_refl _
  · rfl

theorem Wears.append {a b c d : String} (hab : h.Wears a b) (hcd : h.Wears c d) :
    h.Wears (a ++ c) (b ++ d) := by
  unfold Wears at hab hcd ⊢
  by_cases hcolors : h.colors
  · rw [if_pos hcolors] at hab hcd ⊢
    rw [String.toList_append, String.toList_append]
    exact hab.append hcd
  · rw [if_neg hcolors] at hab hcd ⊢
    rw [hab, hcd]

theorem wears_paintIf {s : Style} (hs : s ∈ Style.all) (h : HumanStyle) (plain : String) :
    h.Wears plain (s.paintIf h.colors plain) := by
  unfold Wears Style.paintIf
  split
  · exact styled_paint hs plain
  · rfl

theorem wears_red (h : HumanStyle) (plain : String) : h.Wears plain (h.red plain) :=
  wears_paintIf (by simp [Style.all]) h plain

theorem wears_dim (h : HumanStyle) (plain : String) : h.Wears plain (h.dim plain) :=
  wears_paintIf (by simp [Style.all]) h plain

/-- A part is shown in a text. -/
def Shows (h : HumanStyle) (part text : String) : Prop := ∃ shown, h.Wears part shown ∧ Occurs shown text

end HumanStyle

/-! ## Layouts -/

namespace Value

variable {level : Nat}

theorem layoutItems_eq (level : Nat) (items : List Value) :
    layoutItems level items = items.map (layoutAt level) := by
  induction items with
  | nil => rfl
  | cons v rest ih => rw [layoutItems, ih, List.map_cons]

theorem layoutFields_eq (level : Nat) (fields : List (String × Value)) :
    layoutFields level fields = fields.map fun f => (f.1, layoutAt level f.2) := by
  induction fields with
  | nil => rfl
  | cons f rest ih => rw [layoutFields, ih, List.map_cons]

theorem mem_inKeyOrder {α : Type} {fields : List (String × α)} {f : String × α} (h : f ∈ fields) :
    f ∈ inKeyOrder fields := by
  unfold inKeyOrder
  cases hindex : indexKey? f.1 with
  | none => exact List.mem_append_right _ (List.mem_filter.mpr ⟨h, by simp [hindex]⟩)
  | some i =>
    refine List.mem_append_left _ (List.mem_map.mpr ⟨(i, f), List.mem_mergeSort.mpr ?_, rfl⟩)
    exact List.mem_filterMap.mpr ⟨f, h, by simp [hindex]⟩

theorem occurs_bracketed {lines : List String} {line : String} (h : line ∈ lines)
    (opening closing : String) (level : Nat) : Occurs line (bracketed opening closing level lines) := by
  unfold bracketed
  rw [if_neg (by simp [List.ne_nil_of_mem h])]
  have hline : Occurs line (",\n".intercalate (lines.map (indent (level + 1) ++ ·))) :=
    ((occurs_refl line).right _).trans (occurs_line (List.mem_map.mpr ⟨line, h, rfl⟩) _)
  exact ((((hline.right _).left _).left _).left _)

theorem occurs_item {items : List Value} {v : Value} (h : v ∈ items) (level : Nat) :
    Occurs (layoutAt (level + 1) v) (layoutAt level (.list items)) := by
  rw [layoutAt, layoutItems_eq]
  exact occurs_bracketed (List.mem_map.mpr ⟨v, h, rfl⟩) ..

theorem occurs_field {fields : List (String × Value)} {key : String} {v : Value}
    (h : (key, v) ∈ fields) (level : Nat) :
    Occurs (quoted key ++ ": " ++ layoutAt (level + 1) v) (layoutAt level (.record fields)) := by
  rw [layoutAt, layoutFields_eq]
  refine occurs_bracketed (List.mem_map.mpr ⟨(key, layoutAt (level + 1) v), mem_inKeyOrder ?_, rfl⟩) ..
  exact List.mem_map.mpr ⟨(key, v), h, rfl⟩

theorem occurs_listed (key : String) {fields : List (String × Value)} {items : List Value} {v : Value}
    (hfield : (key, .list items) ∈ fields) (hitem : v ∈ items) (level : Nat) :
    Occurs (layoutAt (level + 2) v) (layoutAt level (.record fields)) :=
  ((occurs_item hitem (level + 1)).right _).trans (occurs_field hfield level)

end Value
end LintRepair
