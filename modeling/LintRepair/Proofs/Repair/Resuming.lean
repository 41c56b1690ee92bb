import LintRepair.Proofs.Repair.Results

/-!
# Resuming a run

A run that is free to repair as often as it takes stops for the number of its passes only, or
because there is nothing more to be done. So what it does next depends on its file alone, and going
on from the text of a result comes to the same as not having stopped.
-/
namespace LintRepair

variable {σ : Type}

/-- The options of a run that may repair as often as it takes and is never interrupted. -/
def RepairOptions.freely (mode : RenderMode) (passes : Cap) : RepairOptions :=
  { mode, budget := { repairsPerRule := .unbounded, passes } }

/-- Results that leave off at the same point. -/
structure RepairResult.SameEnd (r r' : RepairResult σ) : Prop where
  text : r.text = r'.text
  document : r.document.Same r'.document
  remaining : r.remaining = r'.remaining
  stopReason : r.stopReason = r'.stopReason

namespace Engine

variable {e : Engine σ} {rules ids : List String} {options : RepairOptions}
  {mode : RenderMode} {passes passes' : Cap}
  {p p' : Progress σ} {number number' looks looks' : Nat} {ts us : List (TurnReport σ)}
  {t last : TurnReport σ} {reason : StopReason} {text : Text} {file : String} {j j' : Journal}

theorem verdict_freely (p : Progress σ) (mode : RenderMode) (passes : Cap) (looks number : Nat) :
    p.verdict (RepairOptions.freely mode passes).budget
      ((RepairOptions.freely mode passes).interruptedAfter looks) number =
      if p.remaining = [] then some .clean
      else if passes.reached (number - 1) then some .maxPasses else none := by
  have hall : withinBudget (RepairOptions.freely mode passes).budget p.statistics p.remaining =
      p.remaining := List.filter_true _
  unfold Progress.verdict
  rw [hall]
  by_cases hclean : p.remaining = []
  · rw [if_pos hclean, if_pos hclean]
  · rw [if_neg hclean, if_neg hclean, if_neg hclean]
    rfl

theorem Takes.freely (h : e.Takes rules (.freely mode passes) number looks p t)
    (he : e.analyzer.Deterministic) (hd : p.document.Same p'.document)
    (hcap : t.remaining ≠ [] → passes.reached (number - 1) = passes'.reached (number' - 1)) :
    e.Takes rules (.freely mode passes') number' looks' p' t := by
  refine h.transfer (fun vs hvs => hvs.same he hd) hd rfl (fun _ _ => rfl) ?_
  rw [verdict_freely, verdict_freely]
  change (if t.remaining = [] then _ else _) = if t.remaining = [] then _ else _
  by_cases hclean : t.remaining = []
  · rw [if_pos hclean, if_pos hclean]
  · rw [if_neg hclean, if_neg hclean, hcap hclean]

theorem Takes.maxPasses_iff (h : e.Takes rules (.freely mode passes) number looks p t) :
    t.stop? = some .maxPasses ↔ t.remaining ≠ [] ∧ passes.reached (number - 1) = true := by
  cases h with
  | @halted remaining reason hfinds hverdict =>
    rw [verdict_freely] at hverdict
    change (if remaining = [] then _ else _) = some reason at hverdict
    change some reason = some .maxPasses ↔ remaining ≠ [] ∧ _
    split at hverdict
    · next hclean =>
      cases hverdict
      exact iff_of_false (fun h => nomatch h) fun h => h.1 hclean
    · next hne =>
      split at hverdict
      · next hcap =>
        cases hverdict
        exact iff_of_true rfl ⟨hne, hcap⟩
      · cases hverdict
  | @passed remaining pass hfinds hverdict =>
    rw [verdict_freely] at hverdict
    refine iff_of_false (fun hstop => ?_) ?_
    · rcases TurnReport.stop?_passed hstop with ⟨h, -⟩ | ⟨h, -⟩
      · cases h
      · cases h
    · rintro ⟨hne, hcap⟩
      rw [if_neg (show ¬ (p.analyzed number remaining).remaining = [] from hne), if_pos hcap]
        at hverdict
      cases hverdict

theorem Takes.not_reached (h : e.Takes rules (.freely mode passes) number looks p t)
    (hstop : t.stop? ≠ some .maxPasses) (hne : t.remaining ≠ []) :
    passes.reached (number - 1) = false := by
  rw [← Bool.not_eq_true]
  exact fun hcap => hstop (h.maxPasses_iff.mpr ⟨hne, hcap⟩)

theorem Leads.not_reached (h : e.Leads rules (.freely mode passes) (1 + number) looks p ts) :
    ∀ i < ts.length, passes.reached (number + i) = false := by
  induction ts generalizing number looks p with
  | nil => exact fun i hi => absurd hi (Nat.not_lt_zero i)
  | cons t rest ih =>
    cases h with
    | cons htakes hstop hrest =>
      intro i hi
      cases i with
      | zero =>
        have hopen := htakes.not_reached (by rw [hstop]; exact fun h => nomatch h)
          (htakes.remaining_ne_nil hstop)
        rwa [Nat.add_sub_cancel_left] at hopen
      | succ i =>
        rw [← Nat.add_assoc, Nat.add_right_comm]
        exact ih hrest i (Nat.lt_of_succ_lt_succ hi)

theorem Leads.freely (h : e.Leads rules (.freely mode passes) (1 + number) looks p ts)
    (he : e.analyzer.Deterministic) (hd : p.document.Same p'.document) (passes' : Cap)
    (number' looks' : Nat) (hcap : ∀ i < ts.length, passes'.reached (number' + i) = false) :
    e.Leads rules (.freely mode passes') (1 + number') looks' p' ts ∧
      (p.run (.freely mode passes) (1 + number) ts).document.Same
        (p'.run (.freely mode passes') (1 + number') ts).document := by
  induction ts generalizing number number' looks looks' p p' with
  | nil => exact ⟨.nil _ _ _, hd⟩
  | cons t rest ih =>
    have hopen := h.not_reached 0 (Nat.succ_pos _)
    cases h with
    | cons htakes hstop hrest =>
      have hnext : (t.after (.freely mode passes) (1 + number) p 0).document.Same
          (t.after (.freely mode passes') (1 + number') p' 0).document := by
        rw [after_document, after_document]
        exact TurnReport.document_same hd t 0 0
      rw [Nat.add_assoc] at hrest
      obtain ⟨hleads, hend⟩ := ih hrest hnext (number' + 1) _ fun i hi => by
        rw [Nat.add_assoc, Nat.add_comm 1]
        exact hcap (i + 1) (Nat.succ_lt_succ hi)
      refine ⟨.cons (htakes.freely he hd fun _ => ?_) hstop hleads, hend⟩
      rw [Nat.add_sub_cancel_left, Nat.add_sub_cancel_left]
      exact hopen.trans (hcap 0 (Nat.succ_pos _)).symm

/-- A course goes the same way in another run whose caps are not in its way, or are at its end. -/
theorem Course.freely (h : e.Course rules (.freely mode passes) (1 + number) looks p ts last reason)
    (he : e.analyzer.Deterministic) (hd : p.document.Same p'.document) (passes' : Cap)
    (number' looks' : Nat) (hcap : ∀ i < ts.length, passes'.reached (number' + i) = false)
    (hlast : last.remaining ≠ [] →
      passes.reached (number + ts.length) = passes'.reached (number' + ts.length)) :
    e.Course rules (.freely mode passes') (1 + number') looks' p' ts last reason ∧
      (p.run (.freely mode passes) (1 + number) ts).document.Same
        (p'.run (.freely mode passes') (1 + number') ts).document := by
  obtain ⟨hleads, hend⟩ := h.leads.freely he hd passes' number' looks' hcap
  refine ⟨⟨hleads, h.takes.freely he hend fun hne => ?_, h.stop⟩, hend⟩
  rw [Nat.add_assoc, Nat.add_sub_cancel_left, Nat.add_assoc, Nat.add_sub_cancel_left]
  exact hlast hne

theorem Course.exists_finds (h : e.Course rules options number looks p us last reason)
    (hmore : us = [] → last.remaining ≠ []) : ∃ vs, vs ≠ [] ∧ e.Finds p.document rules vs := by
  cases us with
  | nil => exact ⟨_, hmore rfl, (course_nil_iff.mp h).1.finds⟩
  | cons t rest =>
    obtain ⟨htakes, hstop, -⟩ := course_cons_iff.mp h
    exact ⟨_, htakes.remaining_ne_nil hstop, htakes.finds⟩

theorem Leads.length_le_cap {m : Nat} (h : e.Leads rules (.freely mode (.atMost m)) 1 looks p ts) :
    ts.length ≤ m :=
  h.length_le (verdict_ne_none (decide_eq_true (by lia)))

theorem Fresh.restart {d : Document σ} (hd : e.Fresh file d) (rules : List String) :
    ∃ p : Progress σ, d.Same p.document ∧ ∃ template parsed,
      e.language.parse d.tree.source file = .ok (template, parsed) ∧
        p = start ⟨.ofTemplate file d.tree.source template, some parsed, 0⟩ rules := by
  obtain ⟨template, parsed, hparse, htree, hparsed⟩ := hd
  exact ⟨_, ⟨htree, hparsed⟩, template, parsed, hparse, rfl⟩

theorem Ran.begins (h : e.Ran text file ids options looks rules p ts last reason) {d : Document σ}
    (hd : e.Fresh file d) (htext : d.tree.source = text) : d.Same p.document := by
  obtain ⟨template, parsed, hparse, rfl⟩ := h.opening
  obtain ⟨template', parsed', hparse', htree, hparsed⟩ := hd
  rw [htext, hparse] at hparse'
  cases hparse'
  rw [htext] at htree
  exact ⟨htree, hparsed⟩

theorem Ran.sameEnd {options' : RepairOptions} {text' : Text} {file' : String}
    {ids' rules' : List String}
    {r r' : RepairResult σ} (h : e.Ran text file ids options looks rules p ts last reason)
    (hr : SameResult ((p.run options 1 (ts ++ [last])).result file text reason) r)
    (h' : e.Ran text' file' ids' options' looks' rules' p' us last reason)
    (hr' : SameResult ((p'.run options' 1 (us ++ [last])).result file' text' reason) r')
    (hd : (p.run options 1 ts).document.Same (p'.run options' 1 us).document) : r.SameEnd r' := by
  obtain ⟨hdocument, hremaining, hreason⟩ := h.ends hr
  obtain ⟨hdocument', hremaining', hreason'⟩ := h'.ends hr'
  have hsame := hdocument.symm.trans (hd.trans hdocument')
  exact ⟨congrArg Tree.source hsame.1, hsame, hremaining.symm.trans hremaining',
    hreason.symm.trans hreason'⟩

/-- A run over the text of a result stops as the run to it did, unless that stopped for the number
of its passes. -/
theorem Ran.again (h : e.Ran text file ids (.freely mode passes) looks rules p ts last reason)
    (he : e.analyzer.Deterministic) (hreason : reason ≠ .maxPasses) {d : Document σ}
    (hd : (p.run (.freely mode passes) 1 ts).document.Same d)
    (passes' : Cap) (hcap : last.remaining ≠ [] → passes'.reached 0 = false) (looks' : Nat) :
    ∃ p', e.Ran d.tree.source file ids (.freely mode passes') looks' rules p' [] last reason ∧
      d.Same p'.document := by
  obtain ⟨p', hsame, hopening⟩ := (h.fresh.same hd).restart rules
  refine ⟨p', ⟨h.valid, hopening, course_nil_iff.mpr ⟨?_, h.course.stop⟩,
    Nat.add_pos_left (turnLimit_pos ..) _⟩, hsame⟩
  refine h.course.takes.freely he (hd.trans hsame) fun hne => ?_
  rw [hcap hne]
  refine h.course.takes.not_reached ?_ hne
  rw [h.course.stop]
  exact fun heq => hreason (Option.some.inj heq)

section Capped

variable {m n looks₂ : Nat} {rules₂ : List String} {p₂ : Progress σ} {text₂ : Text}
  {last₂ : TurnReport σ}

theorem Ran.recap (h : e.Ran text file ids (.freely mode (.atMost m)) looks rules p ts last reason)
    (he : e.analyzer.Deterministic) (n looks' : Nat) (hlong : ts.length ≤ n)
    (hlast : last.remaining ≠ [] → (m ≤ ts.length ↔ n ≤ ts.length)) :
    e.Ran text file ids (.freely mode (.atMost n)) looks' rules p ts last reason ∧
      (p.run (.freely mode (.atMost m)) 1 ts).document.Same
        (p.run (.freely mode (.atMost n)) 1 ts).document := by
  have hcourse : e.Course rules (.freely mode (.atMost m)) (1 + 0) looks p ts last reason :=
    h.course
  obtain ⟨hcourse', hend⟩ := hcourse.freely he (.refl _) (.atMost n) 0 looks'
    (fun i hi => decide_eq_false (by lia))
    fun hne => decide_eq_decide.mpr (by simpa using hlast hne)
  exact ⟨⟨h.valid, h.opening, hcourse', Nat.lt_succ_of_le hlong⟩, hend⟩

/-- A run that begins where another one has made all of its passes goes on with it. -/
theorem Ran.join
    (h : e.Ran text file ids (.freely mode (.atMost m)) looks rules p ts last .maxPasses)
    (h₂ : e.Ran text₂ file ids (.freely mode (.atMost n)) looks₂ rules₂ p₂ us last₂ reason)
    (he : e.analyzer.Deterministic) (hn : 1 ≤ n)
    (hd : (p.run (.freely mode (.atMost m)) 1 ts).document.Same p₂.document) (looks' : Nat) :
    e.Ran text file ids (.freely mode (.atMost (m + n))) looks' rules p (ts ++ us) last₂ reason ∧
      (p₂.run (.freely mode (.atMost n)) 1 us).document.Same
        (p.run (.freely mode (.atMost (m + n))) 1 (ts ++ us)).document := by
  obtain rfl := Except.ok.inj (h.valid.symm.trans h₂.valid)
  have hm : m ≤ ts.length := by
    simpa [Cap.reached] using (h.course.takes.maxPasses_iff.mp h.course.stop).2
  obtain rfl := Nat.le_antisymm h.course.leads.length_le_cap hm
  have hlength := h₂.course.leads.length_le_cap
  have hleads : e.Leads rules (.freely mode (.atMost ts.length)) (1 + 0) looks p ts :=
    h.course.leads
  have hcourse : e.Course rules (.freely mode (.atMost n)) (1 + 0) looks₂ p₂ us last₂ reason :=
    h₂.course
  obtain ⟨hfirst, hmiddle⟩ := hleads.freely he (.refl _) (.atMost (ts.length + n)) 0 looks'
    fun i hi => decide_eq_false (by lia)
  obtain ⟨hsecond, hend⟩ := hcourse.freely he (hd.symm.trans hmiddle) (.atMost (ts.length + n))
    ts.length _ (fun i hi => decide_eq_false (by lia)) fun _ => decide_eq_decide.mpr (by lia)
  refine ⟨⟨h.valid, h.opening, course_append_iff.mpr ⟨hfirst, hsecond⟩, ?_⟩, ?_⟩
  · rw [List.length_append]
    exact Nat.lt_succ_of_le (Nat.add_le_add_left hlength _)
  · rw [Progress.run_append]
    exact hend

/-- A run that is cut off stops for the number of its passes, and the rest of it is a run of its
own. -/
theorem Ran.split (h : e.Ran text file ids (.freely mode (.atMost (m + n))) looks rules p (ts ++ us)
      last reason) (he : e.analyzer.Deterministic) (hm : ts.length = m)
    (hmore : us = [] → last.remaining ≠ []) (looks' : Nat) :
    ∃ vs p', e.Ran text file ids (.freely mode (.atMost m)) looks' rules p ts
        (.halted vs .maxPasses) .maxPasses ∧
      (p.run (.freely mode (.atMost m)) 1 ts).document.Same p'.document ∧
      ∀ looks₂, e.Ran p'.document.tree.source file ids (.freely mode (.atMost n)) looks₂ rules p' us
        last reason ∧ (p'.run (.freely mode (.atMost n)) 1 us).document.Same
          (p.run (.freely mode (.atMost (m + n))) 1 (ts ++ us)).document := by
  obtain ⟨hleads, hcourse⟩ := course_append_iff.mp h.course
  obtain ⟨vs, hne, hfinds⟩ := hcourse.exists_finds hmore
  have hlength : ts.length + us.length ≤ m + n := by
    rw [← List.length_append]
    exact h.course.leads.length_le_cap
  have hleads₀ : e.Leads rules (.freely mode (.atMost (m + n))) (1 + 0) looks p ts := hleads
  obtain ⟨hfirst, hmiddle⟩ := hleads₀.freely he (.refl _) (.atMost m) 0 looks'
    fun i hi => decide_eq_false (by lia)
  obtain ⟨p', hsame, hopening⟩ := ((h.fresh_of_leads hleads).same hmiddle).restart rules
  rw [hsame.1] at hopening
  refine ⟨vs, p', ⟨h.valid, h.opening, ⟨hfirst, .halted (hfinds.same he hmiddle) ?_, rfl⟩,
    Nat.lt_succ_of_le (Nat.le_of_eq hm)⟩, hsame, fun looks₂ => ?_⟩
  · have hcap : (Cap.atMost m).reached (1 + ts.length - 1) = true := decide_eq_true (by lia)
    rw [verdict_freely, if_neg (show ¬ (Progress.analyzed _ _ vs).remaining = [] from hne),
      if_pos hcap]
  · obtain ⟨hsecond, hend⟩ := hcourse.freely he (hmiddle.trans hsame) (.atMost n) 0 looks₂
      (fun i hi => decide_eq_false (by lia)) fun _ => decide_eq_decide.mpr (by lia)
    refine ⟨⟨h.valid, hopening, hsecond, Nat.lt_succ_of_le (by lia)⟩, ?_⟩
    rw [Progress.run_append]
    exact hend.symm

end Capped

theorem exists_joined (he : e.analyzer.Deterministic) {m n : Nat} (hn : 1 ≤ n)
    {r₁ r₂ : RepairResult σ} {k k' : Journal}
    (h₁ : (e.repairSource text file ids (.freely mode (.atMost m))).Yields j r₁ j')
    (h₂ : (e.repairSource r₁.text file ids (.freely mode (.atMost n))).Yields k r₂ k')
    (i : Journal) :
    ∃ r i', (e.repairSource text file ids (.freely mode (.atMost (m + n)))).Yields i r i' ∧
      r.SameEnd r₂ := by
  obtain ⟨rules, p, ts, last, hran, hr₁⟩ := exists_ran he h₁
  obtain ⟨hd, hremaining, -⟩ := hran.ends hr₁
  have hlength := hran.course.leads.length_le_cap
  have hmax := hran.course.takes.maxPasses_iff
  rw [hran.course.stop, Option.some_inj, Nat.add_sub_cancel_left] at hmax
  by_cases hreason : r₁.stopReason = .maxPasses
  · obtain ⟨rules₂, p₂, us, last₂, hran₂, hr₂⟩ := exists_ran he h₂
    rw [hreason] at hran
    have hbegins := hran₂.begins (hran.fresh.same hd) rfl
    obtain ⟨hjoined, hend⟩ := hran.join hran₂ he hn (hd.trans hbegins) i.signalReads
    obtain ⟨r, i', hrun, hr⟩ := hjoined.yields he rfl
    exact ⟨r, i', hrun, hjoined.sameEnd hr hran₂ hr₂ hend.symm⟩
  · -- There is nothing more to be done, in a longer run as well as in another one.
    have hopen : last.remaining ≠ [] → ts.length < m := by
      intro hne
      by_contra hm
      exact hreason (hmax.mpr ⟨hne, decide_eq_true (by lia)⟩)
    obtain ⟨hlonger, hend⟩ := hran.recap he (m + n) i.signalReads (by lia) fun hne => by
      have := hopen hne
      lia
    obtain ⟨p₂, hagain, hsame⟩ := hran.again he hreason hd (.atMost n)
      (fun _ => decide_eq_false (by lia)) k.signalReads
    obtain ⟨r, i', hrun, hr⟩ := hlonger.yields he rfl
    obtain ⟨r', k'', hrun', hr'⟩ := hagain.yields he rfl
    obtain rfl := h₂.unique hrun'
    exact ⟨r, i', hrun, hlonger.sameEnd hr hagain hr' (hend.symm.trans (hd.trans hsame))⟩

theorem exists_parted (he : e.analyzer.Deterministic) {m n : Nat} (hn : 1 ≤ n) {r : RepairResult σ}
    (h : (e.repairSource text file ids (.freely mode (.atMost (m + n)))).Yields j r j')
    (i : Journal) : ∃ r₁ i',
      (e.repairSource text file ids (.freely mode (.atMost m))).Yields i r₁ i' ∧ ∀ k, ∃ r₂ k',
        (e.repairSource r₁.text file ids (.freely mode (.atMost n))).Yields k r₂ k' ∧
          r.SameEnd r₂ := by
  obtain ⟨rules, p, ts, last, hran, hr⟩ := exists_ran he h
  have hlength := hran.course.leads.length_le_cap
  have hmax := hran.course.takes.maxPasses_iff
  rw [hran.course.stop, Option.some_inj, Nat.add_sub_cancel_left] at hmax
  by_cases hshort : ts.length ≤ m ∧ (last.remaining ≠ [] → ts.length < m)
  · -- The first run goes all the way, and nothing is left for the second.
    obtain ⟨hle, hlt⟩ := hshort
    have hreason : r.stopReason ≠ .maxPasses := by
      intro hreason
      obtain ⟨hne, hreached⟩ := hmax.mp hreason
      have hlt := hlt hne
      have hreached : m + n ≤ ts.length := of_decide_eq_true hreached
      lia
    obtain ⟨hfirst, hend⟩ := hran.recap he m i.signalReads hle fun hne => by
      have hlt := hlt hne
      lia
    obtain ⟨r₁, i', hrun₁, hr₁⟩ := hfirst.yields he rfl
    obtain ⟨hd, -⟩ := hfirst.ends hr₁
    refine ⟨r₁, i', hrun₁, fun k => ?_⟩
    obtain ⟨p₂, hagain, hsame⟩ := hfirst.again he hreason hd (.atMost n)
      (fun _ => decide_eq_false (by lia)) k.signalReads
    obtain ⟨r₂, k', hrun₂, hr₂⟩ := hagain.yields he rfl
    exact ⟨r₂, k', hrun₂, hran.sameEnd hr hagain hr₂ (hend.trans (hd.trans hsame))⟩
  · have hm : (ts.take m).length = m := List.length_take_of_le (by lia)
    have hmore : ts.drop m = [] → last.remaining ≠ [] := by
      intro hdrop
      have hle := List.drop_eq_nil_iff.mp hdrop
      lia
    rw [← List.take_append_drop m ts] at hran hr
    obtain ⟨vs, p₂, hfirst, hsame, hsecond⟩ := hran.split he hm hmore i.signalReads
    obtain ⟨r₁, i', hrun₁, hr₁⟩ := hfirst.yields he rfl
    obtain ⟨hd, -⟩ := hfirst.ends hr₁
    have htext : p₂.document.tree.source = r₁.text := congrArg Tree.source (hsame.symm.trans hd).1
    rw [htext] at hsecond
    refine ⟨r₁, i', hrun₁, fun k => ?_⟩
    obtain ⟨hlater, hend⟩ := hsecond k.signalReads
    obtain ⟨r₂, k', hrun₂, hr₂⟩ := hlater.yields he rfl
    exact ⟨r₂, k', hrun₂, hran.sameEnd hr hlater hr₂ hend.symm⟩

theorem exists_repeated (he : e.analyzer.Deterministic) {r : RepairResult σ}
    (h : (e.repairSource text file ids (.freely mode passes)).Yields j r j')
    (hreason : r.stopReason ≠ .maxPasses) (hcap : passes' = passes ∨ passes'.Allows 1)
    (k : Journal) :
    ∃ r' k', (e.repairSource r.text file ids (.freely mode passes')).Yields k r' k' ∧ r'.SameEnd r ∧
      r'.changed = false ∧ (∀ s ∈ r'.passes, s.committed = false ∧ s.applied = 0) ∧
      ∀ id, r'.statistics.applied id = 0 := by
  obtain ⟨rules, p, ts, last, hran, hr⟩ := exists_ran he h
  obtain ⟨hd, -⟩ := hran.ends hr
  have hopen : last.remaining ≠ [] → passes'.reached 0 = false := by
    intro hne
    rcases hcap with rfl | hcap
    · have hend := hran.course.takes.not_reached
        (fun hstop => hreason (Option.some.inj (hran.course.stop.symm.trans hstop))) hne
      exact Bool.eq_false_iff.mpr fun hzero =>
        Bool.eq_false_iff.mp hend (Cap.reached_mono hzero (Nat.zero_le _))
    · exact Cap.not_reached hcap Nat.zero_lt_one
  obtain ⟨p', hagain, hsame⟩ := hran.again he hreason hd passes' hopen k.signalReads
  obtain ⟨r', k', hrun, hr'⟩ := hagain.yields he rfl
  have hend := hagain.sameEnd hr' hran hr (hd.trans hsame).symm
  obtain ⟨template, parsed, hparse, rfl⟩ := hagain.opening
  refine ⟨r', k', hrun, hend, ?_, ?_, fun id => ?_⟩
  · rw [← Bool.not_eq_true, hr'.changed_iff, not_not]
    exact hend.text
  · rw [hr'.passes_eq]
    exact fun s hs => TurnReport.summaries_of_stop hagain.course.stop hs
  · rw [hr'.books, Statistics.applied_setRemaining, Statistics.applied_enterAll
      (TurnReport.notMem_entries_of_stop hagain.course.stop _ _ _)]
    exact Statistics.applied_track {} rules id

/-- Resuming a run equals not having stopped: a run over the text of another one's result comes to
the end that one run with the passes of both comes to. So a run that did not stop for the number of
its passes has nothing more to do on its own text. -/
theorem repairSource_resume (he : e.analyzer.Deterministic) (text : Text) (file : String)
    (ids : List String) (mode : RenderMode) {m n : Nat} (hn : 1 ≤ n) :
    (∀ {j r₁ j' k r₂ k'},
      (e.repairSource text file ids (.freely mode (.atMost m))).Yields j r₁ j' →
      (e.repairSource r₁.text file ids (.freely mode (.atMost n))).Yields k r₂ k' → ∀ i, ∃ r i',
        (e.repairSource text file ids (.freely mode (.atMost (m + n)))).Yields i r i' ∧
          r.SameEnd r₂) ∧
    (∀ {j r j'},
      (e.repairSource text file ids (.freely mode (.atMost (m + n)))).Yields j r j' → ∀ i, ∃ r₁ i',
        (e.repairSource text file ids (.freely mode (.atMost m))).Yields i r₁ i' ∧ ∀ k, ∃ r₂ k',
          (e.repairSource r₁.text file ids (.freely mode (.atMost n))).Yields k r₂ k' ∧
            r.SameEnd r₂) ∧
    ∀ {passes passes' : Cap} {j r j'},
      (e.repairSource text file ids (.freely mode passes)).Yields j r j' →
      r.stopReason = .clean ∨ r.stopReason = .fixedPoint ∨ r.stopReason = .passFailure →
      passes' = passes ∨ passes'.Allows 1 → ∀ k, ∃ r' k',
        (e.repairSource r.text file ids (.freely mode passes')).Yields k r' k' ∧ r'.SameEnd r ∧
          r'.changed = false ∧ (∀ s ∈ r'.passes, s.committed = false ∧ s.applied = 0) ∧
          ∀ id, r'.statistics.applied id = 0 := by
  refine ⟨fun h₁ h₂ => exists_joined he hn h₁ h₂, fun h => exists_parted he hn h, ?_⟩
  intro passes passes' j r j' h hreason hcap
  refine exists_repeated he h ?_ hcap
  rcases hreason with hreason | hreason | hreason
  all_goals
    rw [hreason]
    exact fun heq => nomatch heq

/-- Renaming a mark twice takes two passes, made in one run or in two; after that nothing is left
to do. -/
theorem repairSource_resume_renamer : ∃ r₁ r₂ r r' j₁ j₂ j j',
    (renamer.repairSource (.ofString "<A>x") "f" ["a", "b"]
      (.freely .targeted (.atMost 1))).Yields {} r₁ j₁ ∧ r₁.text = .ofString "<B>x" ∧
    (renamer.repairSource r₁.text "f" ["a", "b"] (.freely .targeted (.atMost 2))).Yields {} r₂ j₂ ∧
    (renamer.repairSource (.ofString "<A>x") "f" ["a", "b"]
      (.freely .targeted (.atMost (1 + 2)))).Yields {} r j ∧ r.SameEnd r₂ ∧
    (renamer.repairSource r.text "f" ["a", "b"]
      (.freely .targeted (.atMost (1 + 2)))).Yields {} r' j' ∧ r'.changed = false := by
  obtain ⟨r₁, j₁, hrun₁, htext⟩ := Run.exists_yields (j := {})
    (x := renamer.repairSource (.ofString "<A>x") "f" ["a", "b"] (.freely .targeted (.atMost 1)))
    (f := fun r => r.text) (b := .ofString "<B>x") (by decide +kernel)
  obtain ⟨r₂, j₂, hrun₂, hclean⟩ := Run.exists_yields (j := {})
    (x := renamer.repairSource (.ofString "<B>x") "f" ["a", "b"] (.freely .targeted (.atMost 2)))
    (f := fun r => r.stopReason) (b := .clean) (by decide +kernel)
  rw [← htext] at hrun₂
  obtain ⟨hjoin, -, hagain⟩ := repairSource_resume (Catalog.deterministic _) (.ofString "<A>x") "f"
    ["a", "b"] .targeted (m := 1) (n := 2) (e := renamer) (by decide)
  obtain ⟨r, j, hrun, hsame⟩ := hjoin hrun₁ hrun₂ {}
  obtain ⟨r', j', hrun', -, hchanged, -⟩ :=
    hagain hrun (.inl (hsame.stopReason.trans hclean)) (.inl rfl) {}
  exact ⟨r₁, r₂, r, r', j₁, j₂, j, j', hrun₁, htext, hrun₂, hrun, hsame, hrun', hchanged⟩

end Engine
end LintRepair
