import LintRepair.Proofs.Tree.Preservation
import LintRepair.Proofs.Tree.Tidying
import Mathlib.Data.List.Basic
import Mathlib.Data.List.TakeWhile

/-!
# Comma lists

A comma list stays one when elements of it are deleted. Each element but the first goes with the comma
before it, and the first one with the comma behind. The blanks before a comma that went stay: they join the
next separator, or the text that closes the list. So after any deletions in any order the list is one again,
between the same text before it and, up to blanks, the same text behind it (`Remains`).
-/
namespace LintRepair

namespace Text

variable {s t blanks : Text}

/-- One comma with blanks around it. -/
def Separator (s : Text) : Prop :=
  ∃ blanks more : Text, blanks.all isBlank ∧ more.all isBlank ∧ s = blanks ++ comma :: more

/-- Only blanks stand behind the last comma. -/
def EndsInComma (t : Text) : Prop :=
  ∃ front blanks : Text, blanks.all isBlank ∧ t = front ++ comma :: blanks

/-- Only blanks stand before the first comma. -/
def StartsInComma (t : Text) : Prop :=
  ∃ blanks back : Text, blanks.all isBlank ∧ t = blanks ++ comma :: back

/-- The text behind the comma that a text starts in, or the text itself if it starts in none. -/
def Behind (t back : Text) : Prop :=
  (∃ blanks : Text, blanks.all isBlank ∧ t = blanks ++ comma :: back) ∨ ¬ t.StartsInComma ∧ back = t

theorem endsInComma_iff : t.endsInComma = true ↔ t.EndsInComma := by
  constructor
  · intro h
    obtain ⟨blanks, hblanks, ht⟩ := exists_of_endsInComma h
    exact ⟨t.dropLastComma, blanks, hblanks, ht⟩
  · rintro ⟨front, blanks, hblanks, rfl⟩
    exact endsInComma_append front hblanks

theorem startsWithComma_iff : t.startsWithComma = true ↔ t.StartsInComma := by
  constructor
  · intro h
    obtain ⟨blanks, more, hblanks, -, ht⟩ := exists_of_startsWithComma h
    rw [List.append_assoc, List.cons_append] at ht
    exact ⟨blanks, _, hblanks, ht⟩
  · rintro ⟨blanks, back, hblanks, rfl⟩
    exact startsWithComma_append hblanks back

theorem all_isBlank_append (h : s.all isBlank) (h' : t.all isBlank) : (s ++ t).all isBlank = true := by
  rw [List.all_append, h, h']
  rfl

theorem Separator.startsWithComma (hs : s.Separator) : s.startsWithComma = true := by
  obtain ⟨blanks, more, hblanks, -, rfl⟩ := hs
  exact startsWithComma_append hblanks more

theorem Separator.append (hs : s.Separator) (h : blanks.all isBlank) : (blanks ++ s).Separator := by
  obtain ⟨before, more, hbefore, hmore, rfl⟩ := hs
  exact ⟨blanks ++ before, more, all_isBlank_append h hbefore, hmore, (List.append_assoc ..).symm⟩

theorem dropFirstComma_append (h : blanks.all isBlank) (back : Text) :
    (blanks ++ comma :: back).dropFirstComma = back.trimLeft := by
  rw [dropFirstComma, trimLeft_append_comma h back]
  rfl

theorem Separator.dropFirstComma_eq (hs : s.Separator) : s.dropFirstComma = [] := by
  obtain ⟨blanks, more, hblanks, hmore, rfl⟩ := hs
  rw [dropFirstComma_append hblanks, trimLeft, List.dropWhile_eq_nil_iff]
  exact List.all_eq_true.mp hmore

theorem Separator.ne_nil (hs : s.Separator) : s ≠ [] := by
  obtain ⟨blanks, more, -, -, rfl⟩ := hs
  exact List.append_ne_nil_of_right_ne_nil _ (List.cons_ne_nil _ _)

theorem startsWithComma_blanks (h : blanks.all isBlank) (t : Text) :
    (blanks ++ t).startsWithComma = t.startsWithComma := by
  rw [startsWithComma, startsWithComma, trimLeft, trimLeft,
    List.dropWhile_append_of_pos (List.all_eq_true.mp h)]

theorem solid_trimLeft (t : Text) : t.trimLeft.solid = t.solid := by
  have hblank : (t.takeWhile isBlank).all isBlank = true := List.all_takeWhile
  have hwhole : t.takeWhile isBlank ++ t.trimLeft = t := List.takeWhile_append_dropWhile
  calc t.trimLeft.solid = solid (t.takeWhile isBlank) ++ t.trimLeft.solid := by
        rw [solid_eq_nil hblank, List.nil_append]
    _ = t.solid := by rw [← solid_append, hwhole]

end Text

namespace Part

open Text

variable {elements rest : List Handle} {listing front before after parts : List Part} {g h : Handle}
  {opening closing s blanks more : Text} {atRoot : Bool}

/-! ## Texts among parts -/

/-- A text as a part, which no empty text is. -/
def ofText (t : Text) : List Part := if t = [] then [] else [.text t]

theorem ofText_cases (t : Text) : t = [] ∧ ofText t = [] ∨ t ≠ [] ∧ ofText t = [.text t] := by
  unfold ofText
  split
  · next h => exact .inl ⟨h, rfl⟩
  · next h => exact .inr ⟨h, rfl⟩

theorem handles_ofText (t : Text) : handles (ofText t) = [] := by
  rcases ofText_cases t with ⟨-, h⟩ | ⟨-, h⟩
  · rw [h]
    rfl
  · rw [h]
    rfl

theorem flat_ofText (spell : Handle → Text) (t : Text) : flat spell (ofText t) = t := by
  rcases ofText_cases t with ⟨rfl, h⟩ | ⟨-, h⟩
  · rw [h]
    rfl
  · rw [h, flat_text, flat_nil, List.append_nil]

theorem textBefore_ofText (t : Text) : textBefore (ofText t) = t := by
  rcases ofText_cases t with ⟨rfl, h⟩ | ⟨-, h⟩
  · rw [h]
    rfl
  · rw [h]
    rfl

theorem not_isNode_ofText (t : Text) : (ofText t).getLast?.any isNode = false := by
  rcases ofText_cases t with ⟨-, h⟩ | ⟨-, h⟩
  · rw [h]
    rfl
  · rw [h]
    rfl

theorem normalize_of_handles_eq_nil (spell : Handle → Text) (hparts : handles parts = []) :
    normalize parts = ofText (flat spell parts) := by
  induction parts with
  | nil => rfl
  | cons part rest ih =>
    cases part with
    | node c => exact absurd hparts (List.cons_ne_nil _ _)
    | text t =>
      have hrest := ih hparts
      rw [normalize, flat_text, hrest]
      split
      · next ht =>
        rw [List.isEmpty_iff.mp ht, List.nil_append]
      · next ht =>
        rw [List.isEmpty_iff] at ht
        have hwhole : ofText (t ++ flat spell rest) = [.text (t ++ flat spell rest)] :=
          if_neg (List.append_ne_nil_of_left_ne_nil ht _)
        rw [hwhole]
        rcases ofText_cases (flat spell rest) with ⟨hnil, h⟩ | ⟨-, h⟩
        · rw [h, hnil, List.append_nil]
        · rw [h]

theorem normalize_ofText (t : Text) : normalize (ofText t) = ofText t := by
  rw [normalize_of_handles_eq_nil (fun _ => []) (handles_ofText t), flat_ofText]

theorem normalize_append_congr {back back' : List Part} (h : normalize back = normalize back')
    (front : List Part) : normalize (front ++ back) = normalize (front ++ back') := by
  induction front with
  | nil => exact h
  | cons part rest ih =>
    cases part with
    | node c => rw [List.cons_append, List.cons_append, normalize, normalize, ih]
    | text t => rw [List.cons_append, List.cons_append, normalize, normalize, ih]

theorem normalize_texts (s t : Text) (back : List Part) :
    normalize (.text s :: .text t :: back) = normalize (.text (s ++ t) :: back) := by
  by_cases hs : s = []
  · subst hs
    rw [normalize, if_pos List.isEmpty_nil, List.nil_append]
  · have hs' : ¬ s.isEmpty = true := by rwa [List.isEmpty_iff]
    have hst : ¬ (s ++ t).isEmpty = true := by
      rw [List.isEmpty_iff]
      exact List.append_ne_nil_of_left_ne_nil hs t
    rw [normalize, if_neg hs', normalize, normalize, if_neg hst]
    by_cases ht : t = []
    · subst ht
      rw [if_pos List.isEmpty_nil, List.append_nil]
    · rw [if_neg (by rwa [List.isEmpty_iff])]
      cases normalize back with
      | nil => rfl
      | cons q more =>
        cases q with
        | node c => rfl
        | text u => simp only [List.append_assoc]

/-! ## Lists -/

/-- Nodes with a separator between any two neighbours. -/
inductive CommaList : List Handle → List Part → Prop where
  | one (h : Handle) : CommaList [h] [.node h]
  | cons {s : Text} {rest : List Handle} {parts : List Part} (h : Handle) (hs : s.Separator)
    (hrest : CommaList rest parts) : CommaList (h :: rest) (.node h :: .text s :: parts)

namespace CommaList

theorem handles_eq (hlist : CommaList elements listing) : handles listing = elements := by
  induction hlist with
  | one h => rfl
  | cons h hs hrest ih => rw [handles_cons_node, handles_cons_text, ih]

theorem exists_node (hlist : CommaList elements listing) : ∃ h more, listing = .node h :: more := by
  cases hlist with
  | one h => exact ⟨h, [], rfl⟩
  | cons h hs hrest => exact ⟨h, _, rfl⟩

theorem normalize_append (hlist : CommaList elements listing) (back : List Part) :
    normalize (listing ++ back) = listing ++ normalize back := by
  induction hlist with
  | one h => rfl
  | @cons s rest parts h hs hrest ih =>
    have hne : ¬ s.isEmpty = true := by
      rw [List.isEmpty_iff]
      exact hs.ne_nil
    obtain ⟨g, more, hparts⟩ := hrest.exists_node
    rw [List.cons_append, List.cons_append, normalize, normalize, if_neg hne, ih, hparts]
    rfl

/-- A list with what is before it keeps its parts, whatever comes behind. -/
theorem normalize_between (hlist : CommaList elements listing) (opening : Text) (back : List Part) :
    normalize (ofText opening ++ listing ++ back) = ofText opening ++ listing ++ normalize back := by
  have hback := hlist.normalize_append back
  rcases ofText_cases opening with ⟨-, h⟩ | ⟨hne, h⟩
  · rw [h]
    exact hback
  · obtain ⟨g, more, hlisting⟩ := hlist.exists_node
    have hne' : ¬ opening.isEmpty = true := by rwa [List.isEmpty_iff]
    rw [h, List.append_assoc, List.singleton_append, normalize, if_neg hne', hback, hlisting]
    rfl

/-- Where a node stands in a list, and the list that the others are without it. -/
inductive Place (h : Handle) : List Handle → List Part → Prop where
  | only : Place h [] [.node h]
  | first {s : Text} {rest : List Handle} {parts : List Part} (hs : s.Separator)
    (hrest : CommaList rest parts) : Place h rest (.node h :: .text s :: parts)
  | last {blanks more : Text} {rest : List Handle} {front : List Part} (hblanks : blanks.all isBlank)
    (hmore : more.all isBlank) (hrest : CommaList rest front) :
    Place h rest (front ++ [.text (blanks ++ comma :: more), .node h])
  | inner {blanks more s : Text} {rest : List Handle} {front back : List Part}
    (hblanks : blanks.all isBlank) (hmore : more.all isBlank)
    (hrest : CommaList rest (front ++ .text (blanks ++ s) :: back)) :
    Place h rest (front ++ .text (blanks ++ comma :: more) :: .node h :: .text s :: back)

theorem Place.behind (hplace : Place h rest listing) (g : Handle) (hs : s.Separator) :
    Place h (g :: rest) (.node g :: .text s :: listing) := by
  cases hplace with
  | only =>
    obtain ⟨blanks, more, hblanks, hmore, rfl⟩ := hs
    have hlast := Place.last (h := h) hblanks hmore (.one g)
    exact hlast
  | @first s' rest parts hs' hrest =>
    obtain ⟨blanks, more, hblanks, hmore, rfl⟩ := hs
    have hinner : Place h (g :: rest)
        ([.node g] ++ .text (blanks ++ comma :: more) :: .node h :: .text s' :: parts) :=
      .inner hblanks hmore (.cons g (hs'.append hblanks) hrest)
    exact hinner
  | last hblanks hmore hrest =>
    have hlast := Place.last (h := h) hblanks hmore (.cons g hs hrest)
    exact hlast
  | @inner blanks more s' rest front back hblanks hmore hrest =>
    have hinner : Place h (g :: rest) ((.node g :: .text s :: front) ++
        .text (blanks ++ comma :: more) :: .node h :: .text s' :: back) :=
      .inner hblanks hmore (.cons g hs hrest)
    exact hinner

theorem place (hlist : CommaList elements listing) (hmem : h ∈ elements) :
    Place h (elements.erase h) listing := by
  induction hlist with
  | one g =>
    obtain rfl := List.mem_singleton.mp hmem
    rw [List.erase_cons_head]
    exact .only
  | @cons s rest parts g hs hrest ih =>
    by_cases hg : g = h
    · subst hg
      rw [List.erase_cons_head]
      exact .first hs hrest
    · have hin := (List.mem_cons.mp hmem).resolve_left (Ne.symm hg)
      rw [List.erase_cons_tail (by simpa using hg)]
      exact (ih hin).behind g hs

end CommaList

/-! ## One deletion -/

theorem tidy_of_comma_before (hmore : more.all isBlank) :
    tidy atRoot (front ++ [.text (blanks ++ comma :: more)]) after = (front ++ [.text blanks], after) := by
  have htext : ((front ++ [Part.text (blanks ++ comma :: more)]).getLast?.bind text?).getD [] =
      blanks ++ comma :: more := by
    rw [List.getLast?_concat]
    rfl
  have hdrop : (blanks ++ comma :: more).dropLastComma = blanks := by
    rw [dropLastComma, trimRight_append_comma blanks hmore, List.dropLast_concat]
  unfold tidy
  dsimp only
  rw [htext, if_pos (endsInComma_append blanks hmore), hdrop, setLast, List.dropLast_concat]

theorem tidy_of_comma_behind (hbefore : (textBefore before).endsInComma = false)
    (hnode : before.getLast?.any isNode = false) (hs : s.startsWithComma = true) :
    tidy atRoot before (.text s :: after) = (before, .text s.dropFirstComma :: after) := by
  have htext : (((Part.text s :: after).head?.bind text?).getD []) = s := rfl
  unfold textBefore at hbefore
  unfold tidy
  dsimp only
  rw [htext, hbefore, hs, hnode, if_neg Bool.false_ne_true, Bool.not_false, Bool.and_true,
    if_pos (show true = true from rfl)]
  rfl

/-- What a comma list between two texts is when some of its elements are gone: a list of the others, between
the same text before it and, behind blanks, the same text behind it; or, without any others, one text that
is the two texts up to blanks and up to the comma that the second one may start in. -/
inductive Remains (opening closing : Text) : List Handle → List Part → Prop where
  | list {rest : List Handle} {listing : List Part} {blanks : Text} (hblanks : blanks.all isBlank)
    (hlist : CommaList rest listing) :
    Remains opening closing rest (ofText opening ++ listing ++ ofText (blanks ++ closing))
  | nothing {text back : Text} (hback : closing.Behind back)
    (hsolid : text.solid = opening.solid ++ back.solid) : Remains opening closing [] (ofText text)

section Deleted

variable (hopening : ¬ opening.EndsInComma) (hblanks : blanks.all isBlank)
include hopening hblanks

theorem remains_of_comma {spaces back : Text} (hspaces : spaces.all isBlank)
    (hclosing : closing = spaces ++ comma :: back) : Remains opening closing [] (normalize
      ((tidy atRoot (ofText opening) (ofText (blanks ++ closing))).1 ++
        (tidy atRoot (ofText opening) (ofText (blanks ++ closing))).2)) := by
  have hends : (textBefore (ofText opening)).endsInComma = false := by
    rwa [textBefore_ofText, Bool.eq_false_iff, ne_eq, endsInComma_iff]
  have hall := all_isBlank_append hblanks hspaces
  have hpart : ofText (blanks ++ closing) = [.text (blanks ++ spaces ++ comma :: back)] := by
    rw [hclosing, ← List.append_assoc]
    exact if_neg (List.append_ne_nil_of_right_ne_nil _ (List.cons_ne_nil _ _))
  have htidy : tidy atRoot (ofText opening) (ofText (blanks ++ closing)) =
      (ofText opening, [.text back.trimLeft]) := by
    rw [hpart, tidy_of_comma_behind hends (not_isNode_ofText opening) (startsWithComma_append hall back),
      dropFirstComma_append hall]
  have hhandles : handles (ofText opening ++ [.text back.trimLeft]) = [] := by
    rw [handles_append, handles_ofText]
    rfl
  have hflat : flat (fun _ => []) (ofText opening ++ [.text back.trimLeft]) = opening ++ back.trimLeft := by
    rw [flat_append, flat_ofText, flat_text, flat_nil, List.append_nil]
  rw [htidy, normalize_of_handles_eq_nil (fun _ => []) hhandles, hflat]
  refine .nothing (.inl ⟨spaces, hspaces, hclosing⟩) ?_
  rw [solid_append, solid_trimLeft]

theorem remains_of_no_comma (hclosing : ¬ closing.StartsInComma) : Remains opening closing [] (normalize
    ((tidy atRoot (ofText opening) (ofText (blanks ++ closing))).1 ++
      (tidy atRoot (ofText opening) (ofText (blanks ++ closing))).2)) := by
  have hends : opening.endsInComma = false := by rwa [Bool.eq_false_iff, ne_eq, endsInComma_iff]
  have hstarts : (blanks ++ closing).startsWithComma = false := by
    rwa [startsWithComma_blanks hblanks, Bool.eq_false_iff, ne_eq, startsWithComma_iff]
  obtain ⟨left, right, hleft, hright, htidied⟩ := exists_tidied atRoot (ofText opening)
    (ofText (blanks ++ closing)) (fun _ => []) (fun _ => (rfl : ([] : Text) = [])) fun _ => rfl
  have hhandles : handles ((tidy atRoot (ofText opening) (ofText (blanks ++ closing))).1 ++
      (tidy atRoot (ofText opening) (ofText (blanks ++ closing))).2) = [] := by
    obtain ⟨hfront, hback⟩ := handles_tidy atRoot (ofText opening) (ofText (blanks ++ closing))
    rw [handles_append, hfront, hback, handles_ofText, handles_ofText]
    rfl
  generalize tidy atRoot (ofText opening) (ofText (blanks ++ closing)) = tidied at *
  rw [flat_ofText] at hleft hright
  rw [List.nil_append, List.append_nil] at htidied
  obtain ⟨hl, hr⟩ := htidied.solid_eq_nil (by rwa [← hleft]) (by rwa [← hright])
  rw [normalize_of_handles_eq_nil (fun _ => []) hhandles, flat_append]
  refine .nothing (.inr ⟨hclosing, rfl⟩) ?_
  have hopened : opening.solid = (flat (fun _ => []) tidied.1).solid := by
    rw [hleft, solid_append, hl, List.append_nil]
  have hclosed : closing.solid = (flat (fun _ => []) tidied.2).solid := by
    have hwhole := congrArg solid hright
    rwa [solid_append, solid_append, Text.solid_eq_nil hblanks, hr, List.nil_append, List.nil_append]
      at hwhole
  rw [solid_append, hopened, hclosed]

/-- Without one of its elements a list is a list of the others, or nothing if there are none. -/
theorem CommaList.Place.remains (hplace : Place h rest listing)
    (hsplit : before ++ .node h :: after = ofText opening ++ listing ++ ofText (blanks ++ closing))
    (hbefore : .node h ∉ before) (hafter : .node h ∉ after) : Remains opening closing rest
      (normalize ((tidy atRoot before after).1 ++ (tidy atRoot before after).2)) := by
  have hends : opening.endsInComma = false := by rwa [Bool.eq_false_iff, ne_eq, endsInComma_iff]
  -- The node has one place only, so every form of the parts agrees on what stands on either side.
  have hunique : ∀ front back, ofText opening ++ listing ++ ofText (blanks ++ closing) =
      front ++ .node h :: back → before = front ∧ after = back := by
    intro front back hform
    obtain ⟨hfront, -, hback⟩ :=
      (List.append_cons_inj_of_notMem hbefore hafter).mp (hsplit.trans hform)
    exact ⟨hfront, hback⟩
  cases hplace with
  | only =>
    obtain ⟨rfl, rfl⟩ := hunique (ofText opening) (ofText (blanks ++ closing)) (List.append_assoc ..)
    by_cases hclosing : closing.StartsInComma
    · obtain ⟨spaces, back, hspaces, hback⟩ := hclosing
      exact remains_of_comma hopening hblanks hspaces hback
    · exact remains_of_no_comma hopening hblanks hclosing
  | @first s rest parts hs hrest =>
    obtain ⟨rfl, rfl⟩ := hunique (ofText opening) (.text s :: (parts ++ ofText (blanks ++ closing)))
      (List.append_assoc ..)
    have hnothing : normalize (.text [] :: (parts ++ ofText (blanks ++ closing))) =
        normalize (parts ++ ofText (blanks ++ closing)) := by
      rw [normalize, if_pos List.isEmpty_nil]
    rw [tidy_of_comma_behind (by rwa [textBefore_ofText]) (not_isNode_ofText opening) hs.startsWithComma,
      hs.dropFirstComma_eq, normalize_append_congr hnothing, ← List.append_assoc,
      hrest.normalize_between, normalize_ofText]
    exact .list hblanks hrest
  | @last spaces more rest front hspaces hmore hrest =>
    obtain ⟨rfl, rfl⟩ := hunique (ofText opening ++ front ++ [.text (spaces ++ comma :: more)])
      (ofText (blanks ++ closing)) (by simp only [List.append_assoc, List.cons_append, List.nil_append])
    have hbehind : normalize ([.text spaces] ++ ofText (blanks ++ closing)) =
        ofText (spaces ++ blanks ++ closing) := by
      have hhandles : handles ([.text spaces] ++ ofText (blanks ++ closing)) = [] :=
        handles_ofText (blanks ++ closing)
      rw [normalize_of_handles_eq_nil (fun _ => []) hhandles, List.singleton_append, flat_text,
        flat_ofText, List.append_assoc]
    rw [tidy_of_comma_before hmore, List.append_assoc (ofText opening ++ front),
      hrest.normalize_between, hbehind]
    exact .list (all_isBlank_append hspaces hblanks) hrest
  | @inner spaces more s rest front back hspaces hmore hrest =>
    obtain ⟨rfl, rfl⟩ := hunique (ofText opening ++ front ++ [.text (spaces ++ comma :: more)])
      (.text s :: (back ++ ofText (blanks ++ closing)))
      (by simp only [List.append_assoc, List.cons_append, List.nil_append])
    have hjoined : normalize (ofText opening ++ front ++ [.text spaces] ++
        .text s :: (back ++ ofText (blanks ++ closing))) = normalize (ofText opening ++
          (front ++ .text (spaces ++ s) :: back) ++ ofText (blanks ++ closing)) := by
      have h := normalize_append_congr
        (normalize_texts spaces s (back ++ ofText (blanks ++ closing))) (ofText opening ++ front)
      simpa only [List.append_assoc, List.cons_append, List.nil_append] using h
    rw [tidy_of_comma_before hmore, hjoined, hrest.normalize_between, normalize_ofText]
    exact .list hblanks hrest

end Deleted
end Part

namespace Tree

variable {t : Tree} {n : Node} {h p : Handle} {elements ds : List Handle} {listing : List Part}
  {opening closing : Text}

/-! ## Deletions in any order -/

/-- Deletes nodes one after the other. -/
def deleteAll (t : Tree) (ds : List Handle) : Except Fault Tree := ds.foldlM delete t

theorem delete_remains (ht : t.WellFormed) (hopening : ¬ opening.EndsInComma) (hn : t.node? p = some n)
    (hremains : Part.Remains opening closing elements n.parts) (hmem : h ∈ elements) :
    ∃ next m, t.delete h = .ok next ∧ next.WellFormed ∧ next.node? p = some m ∧
      Part.Remains opening closing (elements.erase h) m.parts := by
  generalize hparts : n.parts = parts at hremains
  cases hremains with
  | nothing _ _ => exact absurd hmem List.not_mem_nil
  | @list _ listing blanks hblanks hlist =>
    have hin : h ∈ Part.handles n.parts := by
      rw [hparts, Part.handles_append, Part.handles_append, hlist.handles_eq]
      exact List.mem_append_left _ (List.mem_append_right _ hmem)
    have hp := ht.adopted p n h hn hin
    obtain ⟨s, hs⟩ := exists_seat ht hp "delete"
    obtain ⟨hseat, hparent, hsplit⟩ := seat_spec hs
    obtain rfl := hseat.unique hp
    obtain rfl := Option.some.inj (hparent.symm.trans hn)
    have hsides : h ∉ Part.handles s.before ++ Part.handles s.after :=
      (touched_not_mem_sides (e := .delete h) ht hs).2
    have hbefore : .node h ∉ s.before := fun hnode =>
      hsides (List.mem_append_left _ (Part.mem_handles_iff.mpr hnode))
    have hafter : .node h ∉ s.after := fun hnode =>
      hsides (List.mem_append_right _ (Part.mem_handles_iff.mpr hnode))
    have hdelete : (Edit.delete h).apply t = .ok (t.splice s (.delete h)) :=
      apply_eq_ok_iff.mpr ⟨s, hs, rfl⟩
    refine ⟨_, _, hdelete, wellFormed_splice ht hs, node?_splice_parent hs, ?_⟩
    exact (hlist.place hmem).remains hopening hblanks (hsplit.symm.trans hparts) hbefore hafter

theorem deleteAll_remains (ht : t.WellFormed) (hopening : ¬ opening.EndsInComma)
    (hn : t.node? p = some n) (hremains : Part.Remains opening closing elements n.parts) (hds : ds.Nodup)
    (hsub : ds ⊆ elements) : ∃ edited m, t.deleteAll ds = .ok edited ∧ edited.node? p = some m ∧
      Part.Remains opening closing (elements.diff ds) m.parts := by
  induction ds generalizing t n elements with
  | nil => exact ⟨t, n, rfl, hn, hremains⟩
  | cons d ds ih =>
    -- The elements of `hremains` shrink with each deletion, and the other deletions are still among them.
    obtain ⟨hd, hds⟩ := List.nodup_cons.mp hds
    obtain ⟨hmem, hsub⟩ := List.cons_subset.mp hsub
    obtain ⟨next, m, hnext, hwf, hm, hrest⟩ := delete_remains ht hopening hn hremains hmem
    have hlater : ds ⊆ elements.erase d := by
      intro h hh
      have hne : h ≠ d := by
        rintro rfl
        exact hd hh
      exact (List.mem_erase_of_ne hne).mpr (hsub hh)
    obtain ⟨edited, m', hedited, hm', hremains'⟩ := ih hwf hm hrest hds hlater
    refine ⟨edited, m', ?_, hm', ?_⟩
    · rw [deleteAll, List.foldlM_cons, hnext]
      exact hedited
    · rwa [List.diff_cons]

/-- A comma list stays one, whichever of its elements are deleted and in whatever order. What is left is the
list of the other elements, right behind the text that opened it, and a comma follows it only if one did
before. If nothing is left of it, then no comma is either besides those in the text that opened it and in
the text behind the comma that may have followed it. -/
theorem deleteAll_commaList (ht : t.WellFormed) (hn : t.node? p = some n)
    (hlist : Part.CommaList elements listing)
    (hparts : n.parts = Part.ofText opening ++ listing ++ Part.ofText closing)
    (hopening : ¬ opening.EndsInComma) (hds : ds.Nodup) (hsub : ds ⊆ elements) :
    ∃ edited m, t.deleteAll ds = .ok edited ∧ edited.node? p = some m ∧
      (elements.filter (· ∉ ds) ≠ [] → ∃ listing' closing',
        Part.CommaList (elements.filter (· ∉ ds)) listing' ∧
        m.parts = Part.ofText opening ++ listing' ++ Part.ofText closing' ∧
        (∃ blanks : Text, blanks.all Text.isBlank ∧ closing' = blanks ++ closing) ∧
        (closing'.StartsInComma → closing.StartsInComma)) ∧
      (elements.filter (· ∉ ds) = [] → ∃ left back, m.parts = Part.ofText left ∧
        closing.Behind back ∧ left.solid = opening.solid ++ back.solid) := by
  have hnodup : elements.Nodup := by
    have hhandles := ht.handles_nodup p n hn
    rwa [hparts, Part.handles_append, Part.handles_append, Part.handles_ofText, Part.handles_ofText,
      hlist.handles_eq, List.nil_append, List.append_nil] at hhandles
  have hremains : Part.Remains opening closing elements n.parts := by
    rw [hparts]
    exact Part.Remains.list List.all_nil hlist
  obtain ⟨edited, m, hedited, hm, hrest⟩ := deleteAll_remains ht hopening hn hremains hds hsub
  refine ⟨edited, m, hedited, hm, ?_⟩
  rw [hnodup.sdiff_eq_filter] at hrest
  generalize hpart : m.parts = parts at hrest
  generalize elements.filter (fun h => decide (h ∉ ds)) = rest at hrest
  cases hrest with
  | @list _ listing' blanks hblanks hlist' =>
    constructor
    · intro _
      refine ⟨listing', blanks ++ closing, hlist', rfl, ⟨blanks, hblanks, rfl⟩, fun hcomma => ?_⟩
      rwa [← Text.startsWithComma_iff, Text.startsWithComma_blanks hblanks, Text.startsWithComma_iff]
        at hcomma
    · rintro rfl
      cases hlist'
  | @nothing left back hback hsolid =>
    exact ⟨fun hne => absurd rfl hne, fun _ => ⟨left, back, rfl, hback, hsolid⟩⟩

/-- Three names in brackets, with a comma behind the last one too. -/
def names : Tree :=
  ofTemplate "f" (.ofString "(a, b ,c ,)") ⟨"Names", none, none,
    .text (.ofString "(") (.node "Name" none none (.text (.ofString "a") .nil)
      (.text (.ofString ", ") (.node "Name" none none (.text (.ofString "b") .nil)
        (.text (.ofString " ,") (.node "Name" none none (.text (.ofString "c") .nil)
          (.text (.ofString " ,)") .nil))))))⟩

theorem deleteAll_commaList_names :
    (∃ edited m listing closing, names.deleteAll [3, 1] = .ok edited ∧ edited.node? 0 = some m ∧
      Part.CommaList [2] listing ∧
      m.parts = Part.ofText (.ofString "(") ++ listing ++ Part.ofText closing ∧
      ∃ blanks : Text, blanks.all Text.isBlank ∧ closing = blanks ++ .ofString " ,)") ∧
    ∃ edited m left back, names.deleteAll [2, 3, 1] = .ok edited ∧ edited.node? 0 = some m ∧
      m.parts = Part.ofText left ∧ Text.Behind (.ofString " ,)") back ∧
      left.solid = .ofString "(" ++ back.solid := by
  have ht : names.WellFormed := wellFormed_ofTemplate ..
  have hcomma : Text.Separator (.ofString ", ") := ⟨[], .ofString " ", by decide, by decide, by decide⟩
  have hcomma' : Text.Separator (.ofString " ,") := ⟨.ofString " ", [], by decide, by decide, by decide⟩
  have hlist : Part.CommaList [1, 2, 3]
      [.node 1, .text (.ofString ", "), .node 2, .text (.ofString " ,"), .node 3] :=
    .cons 1 hcomma (.cons 2 hcomma' (.one 3))
  have hopening : ¬ Text.EndsInComma (.ofString "(") := by
    rw [← Text.endsInComma_iff]
    decide
  obtain ⟨n, hn, hparts⟩ : ∃ n, names.node? 0 = some n ∧ n.parts = Part.ofText (.ofString "(") ++
      [.node 1, .text (.ofString ", "), .node 2, .text (.ofString " ,"), .node 3] ++
      Part.ofText (.ofString " ,)") := ⟨_, rfl, by decide⟩
  constructor
  · have hds : ([3, 1] : List Handle).Nodup := by decide
    obtain ⟨edited, m, hedited, hm, hkept, -⟩ :=
      deleteAll_commaList ht hn hlist hparts hopening hds (by decide)
    obtain ⟨listing, closing, hlisting, hparts', hblanks, -⟩ := hkept (by decide)
    exact ⟨edited, m, listing, closing, hedited, hm, hlisting, hparts', hblanks⟩
  · have hds : ([2, 3, 1] : List Handle).Nodup := by decide
    obtain ⟨edited, m, hedited, hm, -, hgone⟩ :=
      deleteAll_commaList ht hn hlist hparts hopening hds (by decide)
    obtain ⟨left, back, hparts', hback, hsolid⟩ := hgone (by decide)
    exact ⟨edited, m, left, back, hedited, hm, hparts', hback, hsolid⟩

end Tree
end LintRepair
