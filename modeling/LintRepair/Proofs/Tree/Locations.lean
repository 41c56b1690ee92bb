import LintRepair.Proofs.Tree.Framing

/-!
# Where nodes are said to be

A line starts at the front of the text or behind a line feed, and its number counts the line feeds in front
of it. The table of line starts has each start under its number
(`Text.getElem?_lineStarts_eq_some_iff`); the search keeps a start at or before the offset at its lower end
and only later ones above its upper end (`Text.searchLine_spec`), so it ends with the line that the
offset is on.
-/
namespace LintRepair

namespace Text

variable {t : Text} {start start' line line' offset column i j k low high : Nat} {starts : Array Nat}

/-- The line with this number starts at the offset. -/
structure StartsLine (t : Text) (start line : Nat) : Prop where
  behind_break : start = 0 ∨ ∃ k, start = k + 1 ∧ t[k]? = some lineFeed
  number : line = 1 + (t.take start).count lineFeed

/-- From one offset to the other no line ends. -/
def SameLine (t : Text) (start offset : Nat) : Prop :=
  start ≤ offset ∧ ∀ k, start ≤ k → k < offset → t[k]? ≠ some lineFeed

/-- The offset is in this column of the line with this number. -/
def Pinpoints (t : Text) (line column offset : Nat) : Prop :=
  ∃ start, t.StartsLine start line ∧ t.SameLine start offset ∧ start + column = offset + 1

theorem count_take_succ (hk : t[k]? = some lineFeed) :
    (t.take (k + 1)).count lineFeed = (t.take k).count lineFeed + 1 := by
  rw [List.take_add_one, hk, List.count_append, Option.toList_some, List.count_singleton_self]

theorem count_take_le (hij : i ≤ j) : (t.take i).count lineFeed ≤ (t.take j).count lineFeed :=
  (List.take_sublist_take_left hij).count_le _

theorem SameLine.count_take (h : t.SameLine start offset) :
    (t.take offset).count lineFeed = (t.take start).count lineFeed := by
  obtain ⟨hle, hnone⟩ := h
  induction offset, hle using Nat.le_induction with
  | base => rfl
  | succ k hk ih =>
    have hlast : lineFeed ∉ t[k]?.toList := by
      rw [Option.mem_toList]
      exact hnone k hk (Nat.lt_succ_self k)
    rw [List.take_add_one, List.count_append, List.count_eq_zero_of_not_mem hlast]
    exact ih fun i hi hik => hnone i hi (Nat.lt_succ_of_lt hik)

theorem getElem?_lineStartsFrom_eq_some_iff (t : Text) (first : Nat) :
    (lineStartsFrom first t)[i]? = some start ↔
      ∃ k, start = first + k + 1 ∧ t[k]? = some lineFeed ∧ (t.take k).count lineFeed = i := by
  induction t generalizing first i with
  | nil => simp [lineStartsFrom]
  | cons u rest ih =>
    have hsum : ∀ k, first + 1 + k + 1 = first + (k + 1) + 1 := by lia
    rw [lineStartsFrom, ← Nat.or_exists_add_one]
    change (if u = lineFeed then _ else _)[i]? = _ ↔ _
    by_cases hu : u = lineFeed
    · rw [if_pos hu]
      cases i with
      | zero => simp [hu, eq_comm]
      | succ i => simp [hu, ih, hsum]
    · rw [if_neg hu, ih]
      simp [hu, hsum]

theorem startsLine_succ (hk : t[k]? = some lineFeed) :
    t.StartsLine (k + 1) ((t.take k).count lineFeed + 2) :=
  ⟨.inr ⟨k, rfl, hk⟩, by rw [count_take_succ hk]; lia⟩

theorem getElem?_lineStarts_eq_some_iff :
    t.lineStarts[i]? = some start ↔ t.StartsLine start (i + 1) := by
  rw [lineStarts, List.getElem?_toArray]
  cases i with
  | zero =>
    rw [List.getElem?_cons_zero, Option.some_inj]
    constructor
    · rintro rfl
      exact ⟨.inl rfl, rfl⟩
    · rintro ⟨rfl | ⟨k, rfl, hk⟩, hnumber⟩
      · rfl
      · rw [count_take_succ hk] at hnumber
        lia
  | succ i =>
    rw [List.getElem?_cons_succ, getElem?_lineStartsFrom_eq_some_iff]
    constructor
    · rintro ⟨k, rfl, hk, rfl⟩
      rw [Nat.zero_add]
      exact startsLine_succ hk
    · rintro ⟨rfl | ⟨k, rfl, hk⟩, hnumber⟩
      · rw [List.take_zero, List.count_nil] at hnumber
        lia
      · rw [count_take_succ hk] at hnumber
        exact ⟨k, by lia, hk, by lia⟩

theorem StartsLine.lt (h : t.StartsLine start line) (h' : t.StartsLine start' line')
    (hlt : start < start') : line < line' := by
  obtain ⟨hstart | ⟨k, rfl, hk⟩, hnumber⟩ := h'
  · lia
  · have hle := count_take_le (t := t) (Nat.le_of_lt_succ hlt)
    rw [count_take_succ hk] at hnumber
    have hline := h.number
    lia

theorem StartsLine.unique (h : t.StartsLine start line) (h' : t.StartsLine start' line')
    (hsame : t.SameLine start offset) (hsame' : t.SameLine start' offset) : start = start' := by
  have hnot : ∀ {a b l l'}, t.StartsLine a l → t.StartsLine b l' → t.SameLine a offset →
      t.SameLine b offset → ¬ a < b := by
    rintro a b l l' - ⟨rfl | ⟨k, rfl, hk⟩, -⟩ ha hb hlt
    · lia
    · exact ha.2 k (Nat.le_of_lt_succ hlt) hb.1 hk
  have hle := hnot h h' hsame hsame'
  have hge := hnot h' h hsame' hsame
  lia

/-- The search keeps what it knows of its two ends. -/
theorem searchLine_spec (hle : low ≤ high) (hhigh : high < starts.size)
    (hsorted : ∀ i j, i ≤ j → j < starts.size → starts.getD i 0 ≤ starts.getD j 0)
    (hbefore : starts.getD low 0 ≤ offset)
    (hbehind : ∀ i, high < i → i < starts.size → offset < starts.getD i 0) :
    searchLine starts offset low high < starts.size ∧
      starts.getD (searchLine starts offset low high) 0 ≤ offset ∧
      ∀ i, searchLine starts offset low high < i → i < starts.size → offset < starts.getD i 0 := by
  fun_induction searchLine starts offset low high with
  | case1 low high hlt mid hmid ih => exact ih (by lia) hhigh hmid hbehind
  | case2 low high hlt mid hmid ih =>
    refine ih (by lia) (by lia) hbefore fun i hi hsize => ?_
    have := hsorted mid i (by lia) hsize
    lia
  | case3 low high hlt =>
    obtain rfl : low = high := by lia
    exact ⟨hhigh, hbefore, hbehind⟩

theorem lineColumn_spec (t : Text) (offset : Nat) : ∃ start,
    t.StartsLine start (t.lineColumn offset).1 ∧ t.SameLine start offset ∧
      (t.lineColumn offset).2 = offset - start + 1 := by
  have hsize : 0 < t.lineStarts.size := by simp [lineStarts]
  have hget : ∀ i, i < t.lineStarts.size → t.StartsLine (t.lineStarts.getD i 0) (i + 1) := by
    intro i hi
    rw [← getElem?_lineStarts_eq_some_iff, Array.getD_eq_getD_getElem?, Array.getElem?_eq_getElem hi,
      Option.getD_some]
  have hsorted : ∀ i j, i ≤ j → j < t.lineStarts.size →
      t.lineStarts.getD i 0 ≤ t.lineStarts.getD j 0 := by
    intro i j hij hj
    by_contra hlt
    have := (hget j hj).lt (hget i (by lia)) (by lia)
    lia
  have hbefore : t.lineStarts.getD 0 0 ≤ offset := by simp [lineStarts]
  obtain ⟨hline, hle, hlater⟩ := searchLine_spec (Nat.zero_le _) (Nat.sub_one_lt_of_lt hsize) hsorted
    hbefore (by lia)
  refine ⟨_, hget _ hline, ⟨hle, fun k hk hlt hbreak => ?_⟩, rfl⟩
  -- A line feed in between would start a line that the search has seen to be behind the offset.
  have hnext := startsLine_succ hbreak
  obtain ⟨hsize', heq⟩ := Array.getElem?_eq_some_iff.mp (getElem?_lineStarts_eq_some_iff.mpr hnext)
  have hafter := (hget _ hline).lt hnext (by lia)
  have := hlater _ (by lia) hsize'
  rw [Array.getD_eq_getD_getElem?, Array.getElem?_eq_getElem hsize', Option.getD_some, heq] at this
  lia

/-- The line and the column of an offset are those that lead back to it. -/
theorem lineColumn_eq_iff : t.lineColumn offset = (line, column) ↔ t.Pinpoints line column offset := by
  obtain ⟨start, hstart, hsame, hcolumn⟩ := t.lineColumn_spec offset
  have hle := hsame.1
  constructor
  · intro heq
    rw [heq] at hstart hcolumn
    exact ⟨start, hstart, hsame, by lia⟩
  · rintro ⟨start', hstart', hsame', hcolumn'⟩
    obtain rfl := hstart.unique hstart' hsame hsame'
    refine Prod.ext (hstart.number.trans hstart'.number.symm) ?_
    dsimp only
    lia

theorem Pinpoints.line_eq (h : t.Pinpoints line column offset) :
    line = 1 + (t.take offset).count lineFeed := by
  obtain ⟨start, hstart, hsame, -⟩ := h
  rw [hstart.number, hsame.count_take]

end Text

namespace Tree

variable {t : Tree} {e : Edit} {h p : Handle} {n : Node} {span : Span} {es : List Edit}

/-- The node has this span, or else the nearest node around it that has one; the whole source if there is
none. -/
inductive SpannedBy (t : Tree) : Handle → Span → Prop where
  | own {h : Handle} {n : Node} {span : Span} (hn : t.node? h = some n) (hspan : n.span = some span) :
    t.SpannedBy h span
  | outer {h p : Handle} {n : Node} {span : Span} (hn : t.node? h = some n) (hspan : n.span = none)
    (hp : n.parent = some p) (hs : t.SpannedBy p span) : t.SpannedBy h span
  | whole {h : Handle} {n : Node} (hn : t.node? h = some n) (hspan : n.span = none)
    (hp : n.parent = none) : t.SpannedBy h ⟨0, t.source.length⟩

theorem WellFormed.spanOf_of_isParent (ht : t.WellFormed) (hp : t.IsParent p h)
    (hn : t.node? h = some n) (hspan : n.span = none) : t.spanOf h = t.spanOf p := by
  rw [spanOf, spanOf, ht.descending.ancestors_of_isParent hp, List.findSome?_cons, hn]
  simp only [Option.bind_some, hspan]

theorem WellFormed.spannedBy_spanOf (ht : t.WellFormed) (hn : t.node? h = some n) :
    t.SpannedBy h (t.spanOf h) := by
  refine ht.of_root (P := fun h => t.SpannedBy h (t.spanOf h)) ?_ (fun p c hp ih => ?_) hn
  · obtain ⟨m, hm⟩ := ht.root_live
    cases hspan : m.span with
    | some span =>
      rw [spanOf_of_span hm hspan]
      exact .own hm hspan
    | none =>
      have hwhole : t.spanOf root = ⟨0, t.source.length⟩ := by
        simp [spanOf, ht.ancestors_root, hm, hspan]
      rw [hwhole]
      exact .whole hm hspan ((ht.orphan_iff root m hm).mpr rfl)
  · obtain ⟨m, hm, hparent⟩ := id hp
    cases hspan : m.span with
    | some span =>
      rw [spanOf_of_span hm hspan]
      exact .own hm hspan
    | none =>
      rw [ht.spanOf_of_isParent hp hm hspan]
      exact .outer hm hspan hparent ih

theorem WellFormed.nextHandle_le_call (ht : t.WellFormed) (e : Edit) :
    t.nextHandle ≤ (t.call e).nextHandle := by
  rcases call_cases ht e with heq | ⟨s, -, heq⟩
  · exact Int.le_of_eq (by rw [heq])
  · have := nextHandle_splice t s e
    rw [heq]
    lia

theorem WellFormed.location_call (ht : t.WellFormed) (hlt : h < t.nextHandle)
    (hlive : (t.call e).isValid h = true) :
    t.isValid h = true ∧ (t.call e).location h = t.location h := by
  rcases call_cases ht e with heq | ⟨s, hs, heq⟩
  · rw [heq] at hlive ⊢
    exact ⟨hlive, rfl⟩
  · rw [heq] at hlive ⊢
    obtain ⟨n', hn'⟩ := isValid_iff.mp hlive
    obtain ⟨hrem, n, hn, -⟩ := exists_old_of_splice ht hs hlt hn'
    refine ⟨isValid_iff.mpr ⟨n, hn⟩, ?_⟩
    rw [location_eq hn, location_eq hn', spanOf_splice ht hs hn hrem, source_splice]

/-- Handles do not come back, so a node that is there in the end was there after each of the calls. -/
theorem WellFormed.location_calls (ht : t.WellFormed) (hlt : h < t.nextHandle)
    (hlive : (t.calls es).isValid h = true) :
    t.isValid h = true ∧ (t.calls es).location h = t.location h := by
  induction es generalizing t with
  | nil => exact ⟨hlive, rfl⟩
  | cons e es ih =>
    have hnext := ht.nextHandle_le_call e
    obtain ⟨hstep, hrest⟩ := ih (ht.call e) (by lia) hlive
    obtain ⟨hh, hcall⟩ := ht.location_call hlt hstep
    exact ⟨hh, hrest.trans hcall⟩

theorem WellFormed.source_calls (ht : t.WellFormed) (es : List Edit) :
    (t.calls es).source = t.source := by
  induction es generalizing t with
  | nil => rfl
  | cons e es ih =>
    refine (ih (ht.call e)).trans ?_
    rcases call_cases ht e with heq | ⟨s, -, heq⟩
    · rw [heq]
    · rw [heq, source_splice]

/-- Lines and columns are exact, and a node is said to be where the nearest span around it starts, whatever
is called as long as it is there. -/
theorem location_exact {file : String} {source : Text} {template : Template} {before : List Edit}
    (hh : ((ofTemplate file source template).calls before).isValid h = true) :
    (∀ (text : Text) (line column offset : Nat), text.lineColumn offset = (line, column) ↔
      text.Pinpoints line column offset) ∧
    (∀ (text : Text) (offset : Nat),
      (text.lineColumn offset).1 = 1 + (text.take offset).count Text.lineFeed) ∧
    ∃ span line column, ((ofTemplate file source template).calls before).SpannedBy h span ∧
      source.Pinpoints line column span.start ∧
      ((ofTemplate file source template).calls before).location h =
        .ok ⟨line, column, span.start, span.stop⟩ ∧
      ∀ after, (((ofTemplate file source template).calls before).calls after).isValid h = true →
        (((ofTemplate file source template).calls before).calls after).location h =
          .ok ⟨line, column, span.start, span.stop⟩ := by
  have hwf := wellFormed_ofTemplate file source template
  have ht := hwf.calls before
  have hsource := hwf.source_calls before
  obtain ⟨n, hn⟩ := isValid_iff.mp hh
  have hlocation := location_eq hn
  rw [hsource] at hlocation
  refine ⟨fun _ _ _ _ => Text.lineColumn_eq_iff, fun _ _ => ?_, _, _, _, ht.spannedBy_spanOf hn,
    Text.lineColumn_eq_iff.mp rfl, hlocation, fun after hlive => ?_⟩
  · exact (Text.lineColumn_eq_iff.mp rfl).line_eq
  · exact (ht.location_calls (lt_nextHandle_of_node? hn).2 hlive).2.trans hlocation

/-- Two names on two lines. -/
def column : Tree :=
  ofTemplate "f" (.ofString "a\nbc") ⟨"Column", some ⟨0, 4⟩, some [],
    .node "Name" (some ⟨0, 1⟩) (some [0]) (.text (.ofString "a") .nil)
      (.text (.ofString "\n") (.node "Name" (some ⟨2, 4⟩) (some [1]) (.text (.ofString "bc") .nil) .nil))⟩

theorem location_exact_column :
    ((column.calls []).calls [otherName]).location 2 = column.location 2 ∧
      (column.location 2).toOption = some ⟨2, 1, 2, 4⟩ ∧
      ((column.calls [otherName]).location 3).toOption = some ⟨1, 1, 0, 4⟩ := by
  have hlive : (column.calls []).isValid 2 = true := by decide
  obtain ⟨-, -, span, line, col, -, -, hlocation, hafter⟩ := location_exact hlive
  exact ⟨(hafter [otherName] (by decide)).trans hlocation.symm, by decide +kernel, by decide +kernel⟩

end Tree
end LintRepair
