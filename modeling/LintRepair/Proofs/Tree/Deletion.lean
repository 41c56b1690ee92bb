import LintRepair.Proofs.Tree.Framing
import LintRepair.Proofs.Tree.Tidying

/-!
# What a deletion leaves and takes along

A deletion leaves the nodes that are not inside its node, in their order, and the texts on either side of
its node but for what goes with that. In a parsed tree it takes the span of its node, and what goes with it.

So it leaves a beginning of the text before its node and an end of the text behind. What goes in between, besides
the node, is blank up to one comma. Where no comma goes, at most one line end does, and then the line held nothing
but the node (`Sparing`).
-/
namespace LintRepair

/-! ## What stays -/

namespace Tree

variable {t : Tree} {s : Seat} {c p h : Handle} {n : Node} {pre post : Text}

namespace WellFormed

variable (ht : t.WellFormed) (hs : t.seat h "delete" = .ok s)
include ht hs

end WellFormed

/-- The text after a deletion, told by the texts on either side of the node. -/
theorem Faithful.render_splice_delete (ht : t.Faithful) (hs : t.seat h "delete" = .ok s)
    (hb : t.Between pre h post) : ∃ front left right back,
      pre = front ++ left ∧ post = right ++ back ∧ (t.splice s (.delete h)).render = front ++ back ∧
      Text.Tidied front back left right := by
  have hwf := ht.wellFormed
  obtain ⟨-, hpar, hparts⟩ := seat_spec hs
  have hs : t.seat (Edit.delete h).touched (Edit.delete h).operation = .ok s := hs
  obtain ⟨outer, outer', hparent⟩ := hwf.exists_between hpar
  obtain ⟨rfl, rfl⟩ := hb.unique hwf (hparent.part hpar hparts)
  -- Only the root has no parent, and nothing stands on either side of it.
  have hsides : s.parentNode.parent.isNone = true → outer = [] ∧ outer' = [] := by
    intro hnone
    have hroot := (hwf.orphan_iff _ _ hpar).mp (Option.isNone_iff_eq_none.mp hnone)
    rw [hroot] at hparent
    exact hparent.root_eq hwf
  obtain ⟨left, right, hleft, hright, htidied⟩ := Part.exists_tidied
    s.parentNode.parent.isNone s.before s.after t.spelling (fun hnone => (hsides hnone).1)
    fun hnone => (hsides hnone).2
  have hpost : Part.flat t.spelling s.after ++ outer' = right ++
      (Part.flat t.spelling (Part.tidy s.parentNode.parent.isNone s.before s.after).2 ++ outer') := by
    rw [hright, List.append_assoc]
  refine ⟨_, left, right, _, by rw [hleft, List.append_assoc], hpost, ?_, htidied⟩
  have hside : Part.flat (t.splice s (.delete h)).spelling ((Edit.delete h).newParts s t.nextHandle) =
      Part.flat t.spelling ((Edit.delete h).newParts s t.nextHandle) := by
    refine Part.flat_congr fun c hc => spelling_splice_of_mem_sides hwf hs ?_
    rwa [Edit.handles_newParts, Edit.seated, List.append_nil] at hc
  rw [ht.render_splice hs (Edit.spanFree_delete h) hparent, hside]
  simp only [Edit.newParts, Part.flat_normalize, Part.flat_append, List.append_assoc]

end Tree

/-! ## What goes -/

namespace Text

variable {t front left right back blanks more spaces ending : Text}

/-- A unit at which a line ends. -/
def isBreak (u : UInt16) : Bool := u = lineFeed || u = carriageReturn || u = 0x2028 || u = 0x2029

/-- The number of line ends; a carriage return with a line feed behind it is one with that. -/
def breaks : Text → Nat
  | [] => 0
  | u :: rest =>
    if isBreak u && !(u = carriageReturn && rest.head? = some lineFeed) then breaks rest + 1
    else breaks rest

/-- What stands behind the last line feed. -/
def lastLine (t : Text) : Text := t.takeRightWhile (· ≠ lineFeed)

/-- What stands before the first line feed. -/
def firstLine (t : Text) : Text := t.takeWhile (· ≠ lineFeed)

/-- What may go with a deleted node when `front` and `back` stay: the text `left` before the node and
`right` behind it. -/
structure Sparing (front left right back : Text) : Prop where
  blank : ∀ u ∈ left ++ right, u = comma ∨ isBlank u = true
  one_comma : (left ++ right).count comma ≤ 1
  one_break : comma ∉ left ++ right → left.breaks + right.breaks ≤ 1
  /-- Without a comma, a line end or text before the node goes only with a line that is blank besides the
  node, together with its line feed or at the end of all. -/
  whole_line : comma ∉ left ++ right → left ≠ [] ∨ 0 < left.breaks + right.breaks →
    (front ++ left).lastLine.all isBlank ∧ (right ++ back).firstLine.all isBlank ∧
    (lineFeed ∈ right ∨ right ++ back = [])

theorem comma_not_mem_of_all_isBlank (h : t.all isBlank) : comma ∉ t := by
  intro hmem
  have := List.all_eq_true.mp h _ hmem
  cases this

theorem breaks_append_of_all_isSpace (h : left.all isSpace) : (left ++ right).breaks = right.breaks := by
  induction left with
  | nil => rfl
  | cons u left ih =>
    rw [List.all_cons, Bool.and_eq_true] at h
    have hu : isBreak u = false := by
      have hspace := h.1
      simp only [isSpace, Bool.or_eq_true, decide_eq_true_eq] at hspace
      rcases hspace with rfl | rfl <;> rfl
    rw [List.cons_append, breaks, hu, Bool.false_and, if_neg Bool.false_ne_true, ih h.2]

theorem breaks_eq_zero (h : t.all isSpace) : t.breaks = 0 := by
  rw [← List.append_nil t, breaks_append_of_all_isSpace h]
  rfl

theorem lastLine_append (hfront : LineStart front) (hleft : lineFeed ∉ left) :
    (front ++ left).lastLine = left := by
  have hnone : front.reverse.takeWhile (· ≠ lineFeed) = [] := by
    rcases hfront with rfl | hlast
    · rfl
    · obtain ⟨rest, rfl⟩ := List.getLast?_eq_some_iff.mp hlast
      rw [List.reverse_concat, List.takeWhile_cons_of_neg (by simp)]
  rw [lastLine, takeRightWhile, List.reverse_append, List.takeWhile_append_of_pos, hnone,
    List.append_nil, List.reverse_reverse]
  intro u hu
  rw [decide_eq_true_eq]
  rintro rfl
  exact hleft (List.mem_reverse.mp hu)

theorem firstLine_append (ht : lineFeed ∉ t) (back : Text) :
    (t ++ lineFeed :: back).firstLine = t := by
  rw [firstLine, List.takeWhile_append_of_pos, List.takeWhile_cons_of_neg (by simp), List.append_nil]
  intro u hu
  rw [decide_eq_true_eq]
  rintro rfl
  exact ht hu

theorem Sparing.of_comma (hsides : left ++ right = blanks ++ comma :: more) (hblanks : blanks.all isBlank)
    (hmore : more.all isBlank) : Sparing front left right back := by
  have hcomma : comma ∈ left ++ right := by
    rw [hsides]
    exact List.mem_append_right _ List.mem_cons_self
  refine ⟨fun u hu => ?_, ?_, fun hnone => absurd hcomma hnone, fun hnone => absurd hcomma hnone⟩
  · rw [hsides, List.mem_append, List.mem_cons] at hu
    rcases hu with hu | rfl | hu
    · exact .inr (List.all_eq_true.mp hblanks u hu)
    · exact .inl rfl
    · exact .inr (List.all_eq_true.mp hmore u hu)
  · rw [hsides, List.count_append, List.count_cons_self,
      List.count_eq_zero_of_not_mem (comma_not_mem_of_all_isBlank hblanks),
      List.count_eq_zero_of_not_mem (comma_not_mem_of_all_isBlank hmore)]

theorem Sparing.of_blank (hblank : (left ++ right).all isBlank) (hbreak : left.breaks + right.breaks ≤ 1)
    (hline : left ≠ [] ∨ 0 < left.breaks + right.breaks →
      (front ++ left).lastLine.all isBlank ∧ (right ++ back).firstLine.all isBlank ∧
      (lineFeed ∈ right ∨ right ++ back = [])) : Sparing front left right back := by
  refine ⟨fun u hu => .inr (List.all_eq_true.mp hblank u hu), ?_, fun _ => hbreak, fun _ => hline⟩
  rw [List.count_eq_zero_of_not_mem (comma_not_mem_of_all_isBlank hblank)]
  exact Nat.zero_le 1

theorem exists_of_ending (h : ending ∈ [[lineFeed], [carriageReturn, lineFeed]]) :
    ∃ returns : Text, ending = returns ++ [lineFeed] ∧ lineFeed ∉ returns ∧ returns.all isBlank ∧
      ending.breaks = 1 := by
  simp only [List.mem_cons, List.not_mem_nil, or_false] at h
  rcases h with rfl | rfl
  · exact ⟨[], rfl, by decide, rfl, by decide⟩
  · exact ⟨[carriageReturn], rfl, by decide, rfl, by decide⟩

/-- The spaces that stand behind a line start are what their line holds so far. -/
theorem lastLine_of_spaces (hleft : left.all isSpace) (hfront : LineStart front) :
    (front ++ left).lastLine.all isBlank := by
  rw [lastLine_append hfront (lineFeed_not_mem_of_all_isSpace hleft)]
  exact all_isBlank_of_all_isSpace hleft

theorem Sparing.of_line (hleft : left.all isSpace) (hspaces : spaces.all isSpace)
    (hending : ending ∈ [[lineFeed], [carriageReturn, lineFeed]]) (hfront : LineStart front) :
    Sparing front left (spaces ++ ending) back := by
  obtain ⟨returns, rfl, hreturns, hblank, hbreaks⟩ := exists_of_ending hending
  have hcount : left.breaks + (spaces ++ (returns ++ [lineFeed])).breaks = 1 := by
    rw [breaks_eq_zero hleft, breaks_append_of_all_isSpace hspaces, Nat.zero_add, hbreaks]
  refine .of_blank ?_ hcount.le fun _ => ⟨lastLine_of_spaces hleft hfront, ?_, .inl (by simp)⟩
  · simp only [List.all_append, all_isBlank_of_all_isSpace hleft, all_isBlank_of_all_isSpace hspaces,
      hblank]
    rfl
  · have hfirst : ((spaces ++ (returns ++ [lineFeed])) ++ back).firstLine = spaces ++ returns := by
      rw [← List.append_assoc, List.append_assoc, List.singleton_append, firstLine_append]
      rw [List.mem_append, not_or]
      exact ⟨lineFeed_not_mem_of_all_isSpace hspaces, hreturns⟩
    rw [hfirst, List.all_append, all_isBlank_of_all_isSpace hspaces, hblank]
    rfl

theorem Tidied.sparing (h : Tidied front back left right) : Sparing front left right back := by
  cases h with
  | @commaBefore blanks h => exact .of_comma (List.append_nil _ : _ = [] ++ comma :: blanks) rfl h
  | commaAfter h h' => exact .of_comma rfl h h'
  | nothing => exact .of_blank rfl (Nat.zero_le 1) fun hgone => by simp [breaks] at hgone
  | spaces h =>
    refine .of_blank (all_isBlank_of_all_isSpace h) ?_ ?_
    · rw [breaks_eq_zero h]
      exact Nat.zero_le 1
    · rw [breaks_eq_zero h]
      rintro (hne | hpos)
      · exact absurd rfl hne
      · cases hpos
  | line hleft hspaces hending hfront => exact .of_line hleft hspaces hending hfront
  | lastLine hleft hfront hback =>
    refine .of_blank ?_ ?_ fun _ => ⟨lastLine_of_spaces hleft hfront, ?_, .inr ?_⟩
    · rw [List.append_nil]
      exact all_isBlank_of_all_isSpace hleft
    · rw [breaks_eq_zero hleft]
      exact Nat.zero_le 1
    · rw [hback]
      rfl
    · exact hback

end Text

namespace Tree

variable {t : Tree} {h : Handle}

/-- A deletion is sparing. On a tree that a consistent one has become by calls without spans, deleting a
node other than the root leaves a beginning of the text before the node and an end of the text behind it. -/
theorem calls_delete_sparing (ht : t.WellFormed) (hc : t.SpanConsistent) {before : List Edit}
    (hbefore : ∀ e ∈ before, e.SpanFree) (hh : (t.calls before).isValid h = true) (hroot : h ≠ root) :
    ∃ next own front left right back, (t.calls before).delete h = .ok next ∧
      (t.calls before).Between (front ++ left) h (right ++ back) ∧
      (t.calls before).textOf h = .ok own ∧
      (t.calls before).render = front ++ left ++ own ++ (right ++ back) ∧
      next.render = front ++ back ∧ Text.Sparing front left right back := by
  have hfaithful := (hc.faithful ht).calls hbefore
  have hwf := hfaithful.wellFormed
  obtain ⟨n, hn⟩ := isValid_iff.mp hh
  obtain ⟨p, -, hp⟩ := hwf.exists_parent hn hroot
  obtain ⟨s, hs⟩ := exists_seat hwf hp "delete"
  obtain ⟨pre, post, hb⟩ := hwf.exists_between hn
  obtain ⟨front, left, right, back, rfl, rfl, hrender, htidied⟩ :=
    hfaithful.render_splice_delete hs hb
  have happly : (Edit.delete h).apply (t.calls before) = .ok ((t.calls before).splice s (.delete h)) :=
    apply_eq_ok_iff.mpr ⟨s, hs, rfl⟩
  exact ⟨_, _, front, left, right, back, happly, hb, textOf_eq hn, hfaithful.render_eq hb, hrender,
    htidied.sparing⟩

theorem calls_delete_sparing_pair : ∃ next front left right back,
    (pair.calls [otherName]).delete 2 = .ok next ∧ next.render = front ++ back ∧
    front ++ back = .ofString "(c)" ∧ Text.Sparing front left right back := by
  have hfree : ∀ e ∈ [otherName], e.SpanFree := by simp [spanFree_otherName]
  have hlive : (pair.calls [otherName]).isValid 2 = true := by decide
  obtain ⟨next, -, front, left, right, back, hdelete, -, -, -, hrender, hsparing⟩ :=
    calls_delete_sparing parsed_pair.wellFormed parsed_pair.spanConsistent hfree hlive (by decide)
  have hnext : ((pair.calls [otherName]).delete 2).toOption.map render =
      some (.ofString "(c)") := by decide +kernel
  rw [hdelete] at hnext
  exact ⟨next, front, left, right, back, hdelete, hrender,
    hrender.symm.trans (Option.some.inj hnext), hsparing⟩

end Tree
end LintRepair
