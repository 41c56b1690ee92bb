import LintRepair.Proofs.Text.Splices
import LintRepair.Proofs.Tree.Splicing
import LintRepair.Proofs.Tree.Spelling

/-!
# What goes with a deleted node

A deleted node takes something of the texts around it along: the comma on one side with the blanks on
either side of it, or spaces, or the rest of a line that held nothing else. All of it is told by the
text before that stays, and by what is left out on the left and on the right.
-/
namespace LintRepair

namespace Text

variable {t front left right back source : Text} {span : Span} {x : Splice}

/-- A line starts behind the text. -/
def LineStart (front : Text) : Prop := front = [] ∨ front.getLast? = some lineFeed

/-- What goes together with a stretch of text when the text up to `front` and that from `back` on stay:
a comma and blanks, spaces behind a space that stays, or what else the line holds, which is spaces and
the line end. -/
inductive Tidied (front back : Text) : Text → Text → Prop where
  | commaBefore {blanks : Text} (h : blanks.all isBlank) : Tidied front back (comma :: blanks) []
  | commaAfter {blanks more : Text} (h : blanks.all isBlank) (h' : more.all isBlank) :
    Tidied front back [] (blanks ++ comma :: more)
  | nothing : Tidied front back [] []
  | spaces {right : Text} (h : right.all isSpace) (hfront : front.getLast?.any isSpace = true) :
    Tidied front back [] right
  | line {left right ending : Text} (hleft : left.all isSpace) (hright : right.all isSpace)
    (hending : ending ∈ [[lineFeed], [carriageReturn, lineFeed]])
    (hfront : LineStart front) : Tidied front back left (right ++ ending)
  | lastLine {left : Text} (hleft : left.all isSpace) (hfront : LineStart front) (hback : back = []) :
    Tidied front back left []

/-- What is not blank of a text. -/
def solid (t : Text) : Text := t.filter fun u => !isBlank u

theorem solid_append (front back : Text) : (front ++ back).solid = front.solid ++ back.solid :=
  List.filter_append front back

theorem solid_eq_nil (h : t.all isBlank) : t.solid = [] := by
  rw [solid, List.filter_eq_nil_iff]
  intro u hu
  rw [List.all_eq_true.mp h u hu]
  exact Bool.false_ne_true

theorem all_takeRightWhile (p : UInt16 → Bool) (t : Text) : (t.takeRightWhile p).all p := by
  rw [takeRightWhile, List.all_reverse]
  exact List.all_takeWhile

theorem exists_of_endsInComma (h : t.endsInComma = true) :
    ∃ blanks : Text, blanks.all isBlank ∧ t = t.dropLastComma ++ comma :: blanks := by
  refine ⟨t.takeRightWhile isBlank, all_takeRightWhile _ t, ?_⟩
  have hlast : t.trimRight.getLast? = some comma := of_decide_eq_true h
  obtain ⟨front, hfront⟩ := List.getLast?_eq_some_iff.mp hlast
  have hwhole := dropRightWhile_append_takeRightWhile isBlank t
  change t.trimRight ++ _ = t at hwhole
  rw [dropLastComma, hfront, List.dropLast_concat, ← List.singleton_append, ← List.append_assoc,
    ← hfront, hwhole]

theorem exists_of_startsWithComma (h : t.startsWithComma = true) : ∃ blanks more : Text,
    blanks.all isBlank ∧ more.all isBlank ∧ t = blanks ++ comma :: more ++ t.dropFirstComma := by
  have hhead : t.trimLeft.head? = some comma := of_decide_eq_true h
  obtain ⟨rest, hrest⟩ := List.head?_eq_some_iff.mp hhead
  refine ⟨t.takeWhile isBlank, rest.takeWhile isBlank, List.all_takeWhile, List.all_takeWhile, ?_⟩
  have hwhole := List.takeWhile_append_dropWhile (p := isBlank) (l := t)
  change _ ++ t.trimLeft = t at hwhole
  rw [dropFirstComma, hrest, List.drop_succ_cons, List.drop_zero, trimLeft, List.append_assoc,
    List.cons_append, List.takeWhile_append_dropWhile, ← hrest, hwhole]

theorem trimRight_append_comma (front : Text) {blanks : Text} (h : blanks.all isBlank) :
    (front ++ comma :: blanks).trimRight = front ++ [comma] := by
  have hreverse : ∀ u ∈ blanks.reverse, isBlank u = true :=
    fun u hu => List.all_eq_true.mp h u (List.mem_reverse.mp hu)
  rw [trimRight, dropRightWhile, List.reverse_append, List.reverse_cons, List.append_assoc,
    List.dropWhile_append_of_pos hreverse]
  simp only [List.singleton_append, List.dropWhile_cons,
    show isBlank comma = false from rfl, Bool.false_eq_true, if_false, List.reverse_cons,
    List.reverse_reverse]

theorem trimLeft_append_comma {blanks : Text} (h : blanks.all isBlank) (back : Text) :
    (blanks ++ comma :: back).trimLeft = comma :: back := by
  rw [trimLeft, List.dropWhile_append_of_pos (List.all_eq_true.mp h)]
  rfl

theorem endsInComma_append (front : Text) {blanks : Text} (h : blanks.all isBlank) :
    (front ++ comma :: blanks).endsInComma = true := by
  rw [endsInComma, trimRight_append_comma front h, List.getLast?_concat]
  rfl

theorem startsWithComma_append {blanks : Text} (h : blanks.all isBlank) (back : Text) :
    (blanks ++ comma :: back).startsWithComma = true := by
  rw [startsWithComma, trimLeft_append_comma h back]
  rfl

theorem all_isBlank_of_all_isSpace (h : t.all isSpace) : t.all isBlank :=
  List.all_eq_true.mpr fun u hu => isBlank_of_isSpace (List.all_eq_true.mp h u hu)

theorem Tidied.solid_eq_nil (h : Tidied front back left right)
    (hleft : (front ++ left).endsInComma = false)
    (hright : (right ++ back).startsWithComma = false) : left.solid = [] ∧ right.solid = [] := by
  cases h with
  | commaBefore h =>
    rw [endsInComma_append front h] at hleft
    cases hleft
  | commaAfter h h' =>
    rw [List.append_assoc, List.cons_append, startsWithComma_append h] at hright
    cases hright
  | nothing => exact ⟨rfl, rfl⟩
  | spaces h => exact ⟨rfl, Text.solid_eq_nil (all_isBlank_of_all_isSpace h)⟩
  | lastLine h => exact ⟨Text.solid_eq_nil (all_isBlank_of_all_isSpace h), rfl⟩
  | @line left right ending hl hr hending hfront =>
    have hblank : ending.all isBlank := by
      simp only [List.mem_cons, List.not_mem_nil, or_false] at hending
      rcases hending with rfl | rfl <;> rfl
    rw [solid_append, Text.solid_eq_nil (all_isBlank_of_all_isSpace hl),
      Text.solid_eq_nil (all_isBlank_of_all_isSpace hr), Text.solid_eq_nil hblank]
    exact ⟨rfl, rfl⟩

/-- A way to read texts, as blanks allow it that only keep words apart: a text that can be read is read
the same without some of the spaces in a row, without a line of spaces, and without the spaces on its
last line. -/
structure Lenient {β : Type} (read : Text → Option β) : Prop where
  spaces : ∀ (front spaces back : Text) (y : β), front.getLast?.any isSpace = true →
    spaces.all isSpace → read (front ++ spaces ++ back) = some y → read (front ++ back) = some y
  line : ∀ (front spaces ending back : Text) (y : β), LineStart front →
    spaces.all isSpace → ending ∈ [[lineFeed], [carriageReturn, lineFeed]] →
    read (front ++ spaces ++ ending ++ back) = some y → read (front ++ back) = some y
  lastLine : ∀ (front spaces : Text) (y : β), LineStart front → spaces.all isSpace →
    read (front ++ spaces) = some y → read front = some y

theorem Tidied.read (h : Tidied front back left right)
    (hleft : (front ++ left).endsInComma = false)
    (hright : (right ++ back).startsWithComma = false) {β : Type} {read : Text → Option β} {y : β}
    (hread : Lenient read) (hy : read (front ++ left ++ (right ++ back)) = some y) :
    read (front ++ back) = some y := by
  cases h with
  | commaBefore h =>
    rw [endsInComma_append front h] at hleft
    cases hleft
  | commaAfter h h' =>
    rw [List.append_assoc, List.cons_append, startsWithComma_append h] at hright
    cases hright
  | nothing => rwa [List.append_nil, List.nil_append] at hy
  | spaces h hfront =>
    rw [List.append_nil, ← List.append_assoc] at hy
    exact hread.spaces _ _ back y hfront h hy
  | @line left right ending hl hr hending hfront =>
    refine hread.line front (left ++ right) ending back y hfront ?_ hending ?_
    · rw [List.all_append, hl, hr, Bool.and_self]
    · simpa only [List.append_assoc] using hy
  | lastLine hl hfront hback =>
    subst hback
    rw [List.append_nil] at hy ⊢
    exact hread.lastLine _ _ y hfront hl (by simpa using hy)

theorem endsAtLineStart_cases (h : t.endsAtLineStart = true) :
    t.all isSpace ∨ (t.dropRightWhile isSpace).getLast? = some lineFeed := by
  have hwhole := dropRightWhile_append_takeRightWhile isSpace t
  simp only [endsAtLineStart, Bool.or_eq_true, List.isEmpty_iff, decide_eq_true_eq] at h
  refine h.imp (fun hnil => ?_) id
  rw [hnil, List.nil_append] at hwhole
  rw [← hwhole]
  exact all_takeRightWhile isSpace t

theorem lineFeed_not_mem_of_all_isSpace (h : t.all isSpace) : lineFeed ∉ t := by
  intro hmem
  have := List.all_eq_true.mp h _ hmem
  cases this

theorem not_contains_of_all_isSpace (h : t.all isSpace) : t.contains lineFeed = false := by
  rw [Bool.eq_false_iff]
  exact fun hmem => lineFeed_not_mem_of_all_isSpace h (List.contains_iff_mem.mp hmem)

theorem exists_of_startsAtLineEnd (h : t.startsAtLineEnd = true) (hline : t.contains lineFeed = true) :
    ∃ spaces ending : Text, spaces.all isSpace ∧
      ending ∈ [[lineFeed], [carriageReturn, lineFeed]] ∧ t = spaces ++ ending ++ t.dropLineEnd := by
  have hwhole := List.takeWhile_append_dropWhile (p := isSpace) (l := t)
  have hspaces : (t.takeWhile isSpace).all isSpace = true := List.all_takeWhile
  unfold startsAtLineEnd at h
  split at h
  · next hnil =>
    rw [hnil, List.append_nil] at hwhole
    rw [← hwhole, not_contains_of_all_isSpace hspaces] at hline
    cases hline
  · next u hu =>
    obtain rfl : u = lineFeed := of_decide_eq_true h
    refine ⟨_, [lineFeed], hspaces, by simp, ?_⟩
    rw [dropLineEnd, hu]
    dsimp only
    rw [if_pos rfl, List.append_nil, ← hu, hwhole]
  · next u v rest hu =>
    simp only [Bool.or_eq_true, Bool.and_eq_true, decide_eq_true_eq] at h
    rcases h with rfl | ⟨rfl, rfl⟩
    · refine ⟨_, [lineFeed], hspaces, by simp, ?_⟩
      rw [dropLineEnd, hu]
      dsimp only
      rw [if_pos rfl, List.append_assoc, List.singleton_append, ← hu, hwhole]
    · refine ⟨_, [carriageReturn, lineFeed], hspaces, by simp, ?_⟩
      rw [dropLineEnd, hu]
      dsimp only
      rw [if_neg (by decide), if_pos (by simp), List.append_assoc]
      simp only [List.cons_append, List.nil_append, List.drop_succ_cons, List.drop_zero]
      rw [← hu, hwhole]

theorem endsInSpace_append (h : t.getLast?.any isSpace = true) (front : Text) :
    (front ++ t).getLast?.any isSpace = true := by
  rw [List.getLast?_append]
  cases hlast : t.getLast? with
  | none =>
    rw [hlast] at h
    cases h
  | some u =>
    rw [hlast] at h
    exact h

end Text

namespace Part

open Text

variable {before after : List Part}

theorem flat_setLast (spell : Handle → Text) {parts : List Part} {s s' left : Text}
    (hlast : parts.getLast? = some (text s)) (hs : s = s' ++ left) :
    flat spell parts = flat spell (setLast parts s') ++ left := by
  obtain ⟨front, rfl⟩ := List.getLast?_eq_some_iff.mp hlast
  rw [setLast, List.dropLast_concat, flat_append, flat_append, hs]
  simp only [flat_text, flat_nil, List.append_nil, List.append_assoc]

theorem flat_setHead (spell : Handle → Text) {parts : List Part} {s s' right : Text}
    (hhead : parts.head? = some (text s)) (hs : s = right ++ s') :
    flat spell parts = right ++ flat spell (text s' :: parts.drop 1) := by
  obtain ⟨rest, rfl⟩ := List.head?_eq_some_iff.mp hhead
  rw [flat_text, hs, List.append_assoc]
  rfl

theorem exists_line_left {atRoot : Bool} (spell : Handle → Text) {pre s : Text}
    (hpre : atRoot = true → pre = []) (hlast : before.getLast? = some (text s))
    (hstart : s.endsAtLineStart = true)
    (hline : s.contains lineFeed = true ∨ atRoot = true ∧ before.length ≤ 1) :
    ∃ left : Text, left.all isSpace ∧
      flat spell before = flat spell (setLast before (s.dropRightWhile isSpace)) ++ left ∧
      LineStart (pre ++ flat spell (setLast before (s.dropRightWhile isSpace))) := by
  refine ⟨s.takeRightWhile isSpace, all_takeRightWhile _ s,
    flat_setLast spell hlast (dropRightWhile_append_takeRightWhile isSpace s).symm, ?_⟩
  obtain ⟨front, rfl⟩ := List.getLast?_eq_some_iff.mp hlast
  rw [setLast, List.dropLast_concat, flat_append]
  rcases endsAtLineStart_cases hstart with hspaces | hend
  · rw [not_contains_of_all_isSpace hspaces] at hline
    obtain ⟨hroot, hlength⟩ := hline.resolve_left Bool.false_ne_true
    rw [List.length_append, List.length_singleton] at hlength
    obtain rfl : front = [] := List.length_eq_zero_iff.mp (by lia)
    have hnil : s.dropRightWhile isSpace = [] := by
      rw [dropRightWhile, List.reverse_eq_nil_iff, ← List.append_nil s.reverse,
        List.dropWhile_append_of_pos]
      · rfl
      · exact fun u hu => List.all_eq_true.mp hspaces u (List.mem_reverse.mp hu)
    rw [hpre hroot, hnil]
    exact .inl rfl
  · refine .inr ?_
    rw [flat_text, flat_nil, List.append_nil, ← List.append_assoc, List.getLast?_append, hend]
    rfl

theorem endsInSpace_flat (spell : Handle → Text) (pre : Text) {s : Text}
    (hlast : before.getLast? = some (text s)) (hspace : s.getLast?.any isSpace = true) :
    (pre ++ flat spell before).getLast?.any isSpace = true := by
  obtain ⟨front, rfl⟩ := List.getLast?_eq_some_iff.mp hlast
  rw [flat_append, flat_text, flat_nil, List.append_nil, ← List.append_assoc]
  exact endsInSpace_append hspace _

theorem exists_line_right (spell : Handle → Text) {s : Text}
    (hhead : after.head? = some (text s)) (hend : s.startsAtLineEnd = true)
    (hline : s.contains lineFeed = true) : ∃ spaces ending : Text, spaces.all isSpace ∧
      ending ∈ [[lineFeed], [carriageReturn, lineFeed]] ∧
      flat spell after = spaces ++ ending ++ flat spell (text s.dropLineEnd :: after.drop 1) := by
  obtain ⟨spaces, ending, hspaces, hending, hsplit⟩ := exists_of_startsAtLineEnd hend hline
  exact ⟨spaces, ending, hspaces, hending, flat_setHead spell hhead hsplit⟩

/-- The text that a list of parts ends in. -/
def textBefore (before : List Part) : Text := (before.getLast?.bind text?).getD []

/-- The text that a list of parts begins with. -/
def textAfter (after : List Part) : Text := (after.head?.bind text?).getD []

/-- What stays before a line that goes. -/
def lineBefore (before : List Part) : List Part :=
  if before.getLast?.isSome then setLast before ((textBefore before).dropRightWhile isSpace)
  else before

/-- What stays behind a line that goes. -/
def lineAfter (after : List Part) : List Part :=
  if after.head?.isSome then text (textAfter after).dropLineEnd :: after.drop 1 else after

theorem exists_lineBefore {atRoot : Bool} (spell : Handle → Text) {pre : Text}
    (hpre : atRoot = true → pre = []) (hnode : ¬ before.getLast?.any isNode = true)
    (hstart : (textBefore before).endsAtLineStart = true)
    (hline : (textBefore before).contains lineFeed = true ∨ atRoot = true ∧ before.length ≤ 1) :
    ∃ left : Text, left.all isSpace ∧
      flat spell before = flat spell (lineBefore before) ++ left ∧
      LineStart (pre ++ flat spell (lineBefore before)) := by
  unfold lineBefore
  split
  · next hsome =>
    obtain ⟨s, hs⟩ := exists_text_of_not_node hsome hnode
    have htext : textBefore before = s := by rw [textBefore, hs]; rfl
    rw [htext] at hstart hline ⊢
    exact exists_line_left spell hpre hs hstart hline
  · next hnone =>
    obtain rfl : before = [] := List.getLast?_eq_none_iff.mp (Option.not_isSome_iff_eq_none.mp hnone)
    obtain ⟨hroot, -⟩ := hline.resolve_left Bool.false_ne_true
    rw [hpre hroot]
    exact ⟨[], rfl, rfl, .inl rfl⟩

theorem exists_lineAfter {atRoot : Bool} (spell : Handle → Text)
    (hnode : ¬ after.head?.any isNode = true) (hend : (textAfter after).startsAtLineEnd = true)
    (hline : (textAfter after).contains lineFeed = true ∨
      atRoot = true ∧ after.head?.isNone = true) :
    (∃ spaces ending : Text, spaces.all isSpace ∧
      ending ∈ [[lineFeed], [carriageReturn, lineFeed]] ∧
      flat spell after = spaces ++ ending ++ flat spell (lineAfter after)) ∨
    atRoot = true ∧ after = [] := by
  by_cases hsome : after.head?.isSome = true
  · obtain ⟨s, hs⟩ := exists_text_of_not_node hsome hnode
    have htext : textAfter after = s := by rw [textAfter, hs]; rfl
    rw [lineAfter, if_pos hsome]
    rw [htext] at hend hline ⊢
    have hfeed : s.contains lineFeed = true := hline.resolve_right fun hnone => by
      rw [hs] at hnone
      exact Bool.false_ne_true hnone.2
    exact .inl (exists_line_right spell hs hend hfeed)
  · obtain rfl : after = [] := List.head?_eq_none_iff.mp (Option.not_isSome_iff_eq_none.mp hsome)
    exact .inr ⟨(hline.resolve_left Bool.false_ne_true).1, rfl⟩

/-- Tidying leaves out what goes with the node; `pre` is the text before the parent, and `post` the text
behind it. -/
theorem exists_tidied (atRoot : Bool) (before after : List Part) (spell : Handle → Text)
    {pre post : Text} (hpre : atRoot = true → pre = []) (hpost : atRoot = true → post = []) :
    ∃ left right,
      flat spell before = flat spell (tidy atRoot before after).1 ++ left ∧
      flat spell after = right ++ flat spell (tidy atRoot before after).2 ∧
      Tidied (pre ++ flat spell (tidy atRoot before after).1)
        (flat spell (tidy atRoot before after).2 ++ post) left right := by
  unfold tidy
  extract_lets previous next previousText nextText previousIsNode nextIsNode startsLine endsLine
  split
  · next hcomma =>
    obtain ⟨s, hs⟩ := exists_text_of_bind (ne_nil_of_endsInComma hcomma)
    have hprevious : previousText = s := by simp only [previousText, hs]; rfl
    obtain ⟨blanks, hblanks, hsplit⟩ := exists_of_endsInComma hcomma
    rw [hprevious] at hsplit ⊢
    exact ⟨_, [], flat_setLast spell hs hsplit, rfl, .commaBefore hblanks⟩
  split
  · next hcomma =>
    rw [Bool.and_eq_true] at hcomma
    obtain ⟨s, hs⟩ := exists_text_of_bind (ne_nil_of_startsWithComma hcomma.1)
    have hnext : nextText = s := by simp only [nextText, hs]; rfl
    obtain ⟨blanks, more, hblanks, hmore, hsplit⟩ := exists_of_startsWithComma hcomma.1
    rw [hnext] at hsplit ⊢
    exact ⟨[], _, (List.append_nil _).symm, flat_setHead spell hs hsplit, .commaAfter hblanks hmore⟩
  split
  · exact ⟨[], [], (List.append_nil _).symm, rfl, .nothing⟩
  · next hnodes =>
    rw [Bool.or_eq_true, not_or] at hnodes
    split
    · next hline =>
      simp only [startsLine, endsLine, Bool.and_eq_true, Bool.or_eq_true, decide_eq_true_eq]
        at hline
      obtain ⟨⟨hstart, hline⟩, hend, hbreak⟩ := hline
      obtain ⟨left, hleft, hbefore, hfront⟩ := exists_lineBefore spell hpre hnodes.1 hstart hline
      rcases exists_lineAfter spell hnodes.2 hend hbreak with
        ⟨spaces, ending, hspaces, hending, hafter⟩ | ⟨hroot, rfl⟩
      · exact ⟨left, _, hbefore, hafter, .line hleft hspaces hending hfront⟩
      · refine ⟨left, [], hbefore, rfl, .lastLine hleft hfront ?_⟩
        rw [hpost hroot]
        rfl
    split
    · next hspaces =>
      rw [Bool.and_eq_true] at hspaces
      have hne : nextText ≠ [] := by
        intro hnil
        rw [hnil] at hspaces
        cases hspaces.2
      have hne' : previousText ≠ [] := by
        intro hnil
        rw [hnil] at hspaces
        cases hspaces.1
      obtain ⟨s', hs'⟩ := exists_text_of_bind hne'
      have hprevious : previousText = s' := by simp only [previousText, hs']; rfl
      obtain ⟨s, hs⟩ := exists_text_of_bind hne
      have hnext : nextText = s := by simp only [nextText, hs]; rfl
      have hsplit := (List.takeWhile_append_dropWhile (p := isSpace) (l := s)).symm
      rw [hnext]
      exact ⟨[], _, (List.append_nil _).symm, flat_setHead spell hs hsplit,
        .spaces List.all_takeWhile (endsInSpace_flat spell pre hs' (hprevious ▸ hspaces.1))⟩
    · exact ⟨[], [], (List.append_nil _).symm, rfl, .nothing⟩

end Part
end LintRepair
