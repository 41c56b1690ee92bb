import LintRepair.Proofs.Repair.Rewording
import LintRepair.Proofs.Tree.Framing
import LintRepair.Proofs.Tree.Tiling

/-!
# A batch is a splice of the source

Replacements and insertions at nodes of a parsed tree that lie apart change its text as if the spans
of these nodes were replaced in the source, all at once. Nothing outside of the spans moves.
-/
namespace LintRepair

/-- The span of an edited node, and what the edit makes of the source there. -/
def Edit.spliced (t : Tree) (e : Edit) : Splice :=
  let span := t.spanOf e.touched
  ⟨span, e.reword t (t.source.slice span.start span.stop)⟩

namespace Tree

variable {t edited : Tree} {sets : List EditSet} {d e : Edit} {edits : List Edit} {c : Handle}
  {n : Node} {i : Nat}

instance (t : Tree) : Std.Symm t.Apart := ⟨fun _ _ => Apart.symm⟩

theorem eq_or_apart (hapart : edits.Pairwise t.Apart) (hd : d ∈ edits) (he : e ∈ edits) :
    d = e ∨ t.Apart d e := by
  by_cases heq : d = e
  · exact .inl heq
  · exact .inr (hapart.forall hd he heq)

/-- The edits of one parent are planned from right to left. -/
theorem Parsed.plan_trails (ht : t.Parsed) (hapart : (sets.flatMap (·.edits)).Pairwise t.Apart) :
    (t.plan sets).Pairwise fun a b => t.Trails a.edit b.edit := by
  have hplan := plan_ordered.and (plan_apart hapart)
  refine hplan.imp_of_mem fun {a b} ha hb hab => ?_
  obtain ⟨⟨hle, -⟩, hab⟩ := hab
  refine ⟨fun heq => hab (.inl (.inl heq.symm)), fun p n front back hn hparts hmem => ?_⟩
  have htiles := ht.tiled p n hn
  have hchild : ∀ x ∈ Part.handles n.parts, t.IsParent p x :=
    fun x hx => ht.wellFormed.adopted p n x hn hx
  rw [hparts, Part.handles_append, Part.handles_cons_node] at hchild
  have hpa := hchild _ (List.mem_append_left _ hmem)
  have hpb := hchild _ (List.mem_append_right _ List.mem_cons_self)
  rw [hparts, tiles_append] at htiles
  obtain ⟨m, hleft, hstart, -⟩ := htiles
  have hbound := (tiles_bounds (fun x hx => ht.filled_of_isParent
    (hchild x (List.mem_append_left _ hx))) hleft).2 _ hmem
  have hfull := ht.filled_of_isParent hpa
  rw [PlannedEdit.le_iff, (eq_of_mem_placed (mem_plan_iff.mp ha)).2,
    (eq_of_mem_placed (mem_plan_iff.mp hb)).2] at hle
  simp only [placement, ht.wellFormed.descending.ancestors_of_isParent hpa,
    ht.wellFormed.descending.ancestors_of_isParent hpb, Text.location] at hle
  lia

theorem Parsed.filled_of_spliced (ht : t.Parsed) {xs : List Splice}
    (hxs : ∀ x, x ∈ xs ↔ ∃ e ∈ edits, e.spliced t = x)
    (hlive : ∀ e ∈ edits, ∃ p, t.IsParent p e.touched) :
    ∀ x ∈ xs, x.span.start < x.span.stop := by
  intro x hx
  obtain ⟨e, he, rfl⟩ := (hxs x).mp hx
  obtain ⟨p, hp⟩ := hlive e he
  exact ht.filled_of_isParent hp

theorem Reworded.spelling_of_encloses (hr : Reworded edited.spelling t edited edits)
    (hf : t.Follows edited edits) (hn : t.node? c = some n)
    (hkept : ∀ e ∈ edits, e.removes = true → ¬ t.Covers e.touched c)
    (hinner : ∃ e ∈ edits, t.Encloses c e.touched) :
    edited.spelling c = Part.flat (t.revised edits edited.spelling) n.parts := by
  obtain ⟨n', hn'⟩ := (hf.live_iff c ⟨n, hn⟩).mpr hkept
  obtain ⟨n₀, hn₀, hmended⟩ := hr.mended c n' (lt_nextHandle_of_node? hn).2 hn'
  rw [hn] at hn₀
  cases hn₀
  rw [hf.wellFormed.spelling_of_parts hn' (.inl (hmended.dirty.mpr (.inr hinner))),
    hmended.flat _ fun _ _ => rfl]

section Final

variable (ht : t.Parsed) (hf : t.Follows edited edits)
  (hr : Reworded edited.spelling t edited edits)
include ht hf hr

theorem Parsed.spelling_of_untouched (hn : t.node? c = some n)
    (hkept : ∀ e ∈ edits, e.removes = true → ¬ t.Covers e.touched c)
    (hinner : ∀ e ∈ edits, ¬ t.Encloses c e.touched) :
    edited.spelling c = t.source.slice (t.spanOf c).start (t.spanOf c).stop := by
  obtain ⟨n', hn'⟩ := (hf.live_iff c ⟨n, hn⟩).mpr hkept
  obtain ⟨n₀, hn₀, hmended⟩ := hr.mended c n' (lt_nextHandle_of_node? hn).2 hn'
  rw [hn] at hn₀
  cases hn₀
  have hclean : n'.dirty = false := by
    rw [← Bool.not_eq_true, hmended.dirty, ht.clean c n hn]
    rintro (hd | ⟨e, he, hin⟩)
    · cases hd
    · exact hinner e he hin
  rw [spelling_of_span hn' hclean (hmended.span.trans (ht.spanned c n hn)), hr.source]

variable (hapart : edits.Pairwise t.Apart)
  (hlive : ∀ e ∈ edits, ∃ p, t.IsParent p e.touched) {xs : List Splice}
  (hxs : ∀ x, x ∈ xs ↔ ∃ e ∈ edits, e.spliced t = x)
include hapart hlive hxs

theorem Parsed.revised_eq_spliceOn (he : e ∈ edits) :
    t.revised edits edited.spelling e.touched =
      t.source.spliceOn xs (t.spanOf e.touched).start
        (t.spanOf e.touched).stop := by
  have hfull := ht.filled_of_spliced hxs hlive
  obtain ⟨p, hp⟩ := hlive e he
  have hone : ∀ y ∈ xs, ∀ i, y.span.Contains i →
      (e.spliced t).span.Contains i → y = e.spliced t := by
    intro y hy i hyi hi
    obtain ⟨d, hd, rfl⟩ := (hxs y).mp hy
    rcases eq_or_apart hapart hd he with rfl | hde
    · rfl
    · obtain ⟨q, hq⟩ := hlive d hd
      exact absurd (ht.arranged.overlaps_of_contains hq.inner_live hp.inner_live hyi hi) hde
  have hspan := Text.spliceOn_span t.source hfull
    ((hxs _).mpr ⟨e, he, rfl⟩) hone
  refine (revised_touched hapart he).trans (Eq.trans ?_ hspan.symm)
  -- Only an insertion reads the text of its node, and it leaves that node where it is.
  by_cases hrem : e.removes = true
  · cases e with
    | replace h template => rfl
    | insertBefore h template sep => cases hrem
    | insertAfter h template sep => cases hrem
    | delete h => rfl
  · obtain ⟨n, hn⟩ := hp.inner_live
    have hown := ht.spelling_of_untouched hf hr hn
      (fun d hd hr hc => by
        rcases eq_or_apart hapart hd he with rfl | hde
        · exact hrem hr
        · exact hde (.inl hc))
      (fun d hd hin => by
        rcases eq_or_apart hapart he hd with rfl | hed
        · exact ht.wellFormed.descending.not_encloses_of_covers (covers_refl t _) hin
        · exact hed (.inl hin.covers))
    rw [hown]
    rfl

/-- Every node that lies inside no edited one becomes what its span becomes. -/
theorem Parsed.revised_eq_spliceOn_of_outside (c : Handle) (hc : ∃ n, t.node? c = some n)
    (hout : ∀ e ∈ edits, ¬ t.Encloses e.touched c) :
    t.revised edits edited.spelling c =
      t.source.spliceOn xs (t.spanOf c).start (t.spanOf c).stop := by
  have hfull := ht.filled_of_spliced hxs hlive
  induction c using ht.wellFormed.descending.wellFounded_inwards.induction with
  | _ c ih =>
    obtain ⟨n, hn⟩ := hc
    by_cases htouched : ∃ e ∈ edits, e.touched = c
    · obtain ⟨e, he, rfl⟩ := htouched
      exact ht.revised_eq_spliceOn hf hr hapart hlive hxs he
    have htouched : ∀ e ∈ edits, e.touched ≠ c := fun e he heq => htouched ⟨e, he, heq⟩
    have hclear : ∀ e ∈ edits, ¬ t.Covers e.touched c := by
      rintro e he (rfl | hin)
      · exact htouched e he rfl
      · exact hout e he hin
    have hspans : ∀ x ∈ xs, ∀ i, x.span.Contains i →
        (t.spanOf c).Contains i → ∃ e ∈ edits, t.Encloses c e.touched ∧
          (t.spanOf e.touched).Contains i := by
      intro x hx i hxi hi
      obtain ⟨e, he, rfl⟩ := (hxs x).mp hx
      obtain ⟨p, hp⟩ := hlive e he
      rcases ht.arranged.overlaps_of_contains hp.inner_live ⟨n, hn⟩ hxi hi with hover | heq | hin
      · exact absurd hover (hclear e he)
      · exact absurd heq (htouched e he)
      · exact ⟨e, he, hin, hxi⟩
    rw [revised_of_untouched htouched]
    by_cases hinner : ∃ e ∈ edits, t.Encloses c e.touched
    · rw [hr.spelling_of_encloses hf hn (fun e he _ => hclear e he) hinner]
      refine flat_eq_spliceOn (fun x hx => ht.filled_of_mem hn hx) (ht.tiled c n hn) hfull ?_ ?_
      · intro x hx
        have hpar := ht.wellFormed.adopted c n x hn hx
        exact ih x hpar hpar.inner_live fun e he hin => hclear e he
          ((encloses_iff_covers_parent hpar).mp hin)
      · intro x hx i hxi hlo hhi
        obtain ⟨e, he, hin, hei⟩ := hspans x hx i hxi ⟨hlo, hhi⟩
        obtain ⟨y, hy, hyin⟩ := (ht.wellFormed.encloses_iff_child hn).mp hin
        exact ⟨y, hy, ht.arranged.contains_of_covers hyin hei⟩
    · have hinner : ∀ e ∈ edits, ¬ t.Encloses c e.touched := fun e he hin => hinner ⟨e, he, hin⟩
      have hle : (t.spanOf c).start ≤ (t.spanOf c).stop :=
        (tiles_bounds (fun x hx => ht.filled_of_mem hn hx) (ht.tiled c n hn)).1
      rw [ht.spelling_of_untouched hf hr hn (fun e he _ => hclear e he) hinner,
        Text.spliceOn_of_clear hfull hle]
      intro x hx i hlo hhi hxi
      obtain ⟨e, he, hin, -⟩ := hspans x hx i hxi ⟨hlo, hhi⟩
      exact hinner e he hin

end Final

/-- A batch of replacements and insertions at nodes that lie apart turns the text of a parsed tree
into its source with the spans of these nodes replaced, each by what its edit makes of it. -/
theorem applyEditSets_splices (ht : t.Parsed)
    (hlive : ∀ s ∈ sets, ∀ e ∈ s.edits, e.touched ≠ root ∧ ∃ n, t.node? e.touched = some n)
    (hkind : ∀ s ∈ sets, ∀ e ∈ s.edits,
      ∃ template, e.subtree? = some template ∧ template.SpanFree)
    (hapart : (sets.flatMap (·.edits)).Pairwise t.Apart) :
    ∃ edited, t.applyEditSets sets = .ok edited ∧
      edited.render = t.source.splice ((sets.flatMap (·.edits)).map (·.spliced t)) := by
  have hwf := ht.wellFormed
  obtain ⟨-, edited, hedited, hrun⟩ := applyEditSets_of_apart hwf hlive hapart
  refine ⟨edited, hedited, ?_⟩
  have hperm := perm_plan t sets
  have hplan := plan_apart hapart
  have hparents : ∀ q ∈ t.plan sets, ∃ p, t.IsParent p q.edit.touched :=
    fun q hq => exists_isParent_of_mem_plan hwf hlive hq
  have hf : t.Follows edited ([] ++ (t.plan sets).map (·.edit)) :=
    (follows_refl hwf).applyPlanned hwf hrun
  have hr := (reworded_refl edited.spelling t).applyPlanned (follows_refl hwf) hwf hparents
    (fun d hd => absurd hd List.not_mem_nil) (ht.plan_trails hapart) ?_ hrun
  · rw [List.nil_append] at hf hr
    have hlive' : ∀ e ∈ (t.plan sets).map (·.edit), ∃ p, t.IsParent p e.touched := by
      intro e he
      obtain ⟨q, hq, rfl⟩ := List.mem_map.mp he
      exact hparents q hq
    have htouched : ∀ e ∈ (t.plan sets).map (·.edit), e.touched ≠ root := by
      intro e he hroot
      obtain ⟨p, hp⟩ := hlive' e he
      have := hwf.descending p e.touched hp
      simp only [hroot, root] at this
      lia
    have hout : ∀ e ∈ (t.plan sets).map (·.edit), ¬ t.Encloses e.touched root := by
      intro e he hin
      have := hwf.descending.encloses_lt hin
      simp only [root] at this
      lia
    have hxs : ∀ x, x ∈ (sets.flatMap (·.edits)).map (·.spliced t) ↔
        ∃ e ∈ (t.plan sets).map (·.edit), e.spliced t = x := fun x => by
      rw [List.mem_map]
      simp only [hperm.mem_iff]
    have hroot := ht.revised_eq_spliceOn_of_outside hf hr (List.pairwise_map.mpr hplan) hlive' hxs
      root hwf.root_live hout
    rwa [revised_of_untouched htouched, ht.root_span] at hroot
  · intro front q back mid hsplit hmid
    have hq : q ∈ t.plan sets := by simp [hsplit]
    obtain ⟨⟨s, hs, he, -⟩, -⟩ := eq_of_mem_placed (mem_plan_iff.mp hq)
    obtain ⟨template, htemplate, hfree⟩ := hkind s hs _ he
    obtain ⟨mid', p, hmid', -, hplanted⟩ := planted_of_plan hwf hparents hplan hrun hsplit htemplate
    rw [hmid] at hmid'
    cases hmid'
    exact ⟨template, htemplate, hf.wellFormed.spelling_of_placed hplanted.placed hfree⟩

def newWords : List EditSet :=
  [wordSet 2 [.insertBefore 2 (.leaf "d" [100]) none], wordSet 1 [.replace 1 (.leaf "e" [101])]]

theorem applyEditSets_splices_newWords : ∃ edited, twoWords.applyEditSets newWords = .ok edited ∧
    edited.render = [101, 32, 100, 32, 99] := by
  have ht : twoWords.Parsed := parsed_ofTemplate "f"
    ⟨rfl, 1, rfl, by decide, ⟨rfl, rfl⟩, rfl, 3, rfl, by decide, ⟨rfl, rfl⟩, rfl⟩
  have hone : (1 : Handle) ≠ root ∧ ∃ n, twoWords.node? 1 = some n := ⟨by decide, _, rfl⟩
  have htwo : (2 : Handle) ≠ root ∧ ∃ n, twoWords.node? 2 = some n := ⟨by decide, _, rfl⟩
  have hclear : twoWords.overlap 2 1 = .ok false := rfl
  have hapart : (newWords.flatMap (·.edits)).Pairwise twoWords.Apart := by
    obtain ⟨n, hn⟩ := hone.2
    obtain ⟨m, hm⟩ := htwo.2
    obtain ⟨b, hb, hiff⟩ := overlap_spec ht.wellFormed.descending hm hn
    rw [hclear] at hb
    cases hb
    refine List.pairwise_pair.mpr fun hover => Bool.false_ne_true (hiff.mpr hover)
  obtain ⟨edited, hedited, hrender⟩ := applyEditSets_splices ht
    (by simp [newWords, wordSet, Edit.touched, hone, htwo])
    (by simp [newWords, wordSet, Edit.subtree?, Template.leaf, Template.SpanFree, Pieces.SpanFree])
    hapart
  exact ⟨edited, hedited, hrender.trans rfl⟩

/-! ## Single edits -/

section Single

variable {s : Seat} {p : Handle} {template : Template} {pre post : Text}

theorem applyEditSets_lone (hlive : ∃ n, t.node? e.touched = some n) (h : e.apply t = .ok edited)
    (v : Violation) (targeted : Bool) : t.applyEditSets [⟨v, [e], targeted⟩] = .ok edited := by
  have hplan : t.plan [⟨v, [e], targeted⟩] = [t.placement 0 (v.ruleId, e)] :=
    List.mergeSort_singleton _
  rw [applyEditSets, planEdits_eq, hplan]
  · change t.applyPlanned [t.placement 0 (v.ruleId, e)] = .ok edited
    simp only [applyPlanned, placement, h]
    rfl
  · intro s hs d hd
    rw [List.mem_singleton.mp hs] at hd
    rwa [List.mem_singleton.mp hd]

end Single

end Tree
end LintRepair
