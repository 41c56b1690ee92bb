import LintRepair.Proofs.Repair.Blurring
import LintRepair.Proofs.Repair.Results
import LintRepair.Proofs.Repair.Steadiness

/-!
# A processor that fails

Where a processor fails it might as well have declined, if what it throws can be put into words: a run
goes the same way, and its result tells of the failure in nothing but its counts and records of crashes.
Of these there is one for each violation at which a processor crashed.
-/
namespace LintRepair

variable {σ : Type} {d : Document σ} {v : Violation} {t : Tree}

/-- Answers at which a processor counts as crashed. -/
inductive Crashes {τ : Type} (t : Tree) : Except τ Outcome → Prop where
  | thrown (thrown : τ) : Crashes t (.error thrown)
  | crashed (cause : String) : Crashes t (.ok (.crashed cause))
  | amiss {edits : List Edit} {e : Edit} (he : e ∈ edits) (hamiss : e.Amiss t) :
      Crashes t (.ok (.applied edits))

/-- Answers that come to nothing, other than to decline. -/
inductive Fails {τ : Type} (t : Tree) : Except τ Outcome → Prop where
  | crash {answer : Except τ Outcome} (h : Crashes t answer) : Fails t answer
  | idle : Fails t (.ok (.applied []))

theorem crashes_applied_iff {τ : Type} {edits : List Edit} :
    Crashes t (.ok (.applied edits) : Except τ Outcome) ↔
      ∃ problem, PassState.problem? t edits = some problem := by
  rw [← Option.ne_none_iff_exists', Ne, PassState.problem?_eq_none_iff]
  constructor
  · rintro (_ | _ | ⟨he, hamiss⟩) hall
    exact hall _ he hamiss
  · intro hsome
    obtain ⟨e, he⟩ := not_forall.mp hsome
    obtain ⟨he, hamiss⟩ := Classical.not_imp.mp he
    exact .amiss he (not_not.mp hamiss)

theorem crashes_mapError_iff {τ τ' : Type} {f : τ → τ'} {answer : Except τ Outcome} :
    Crashes t (answer.mapError f) ↔ Crashes t answer := by
  cases answer with
  | error thrown => exact iff_of_true (.thrown _) (.thrown thrown)
  | ok outcome =>
    constructor
    · rintro (_ | cause | ⟨he, hamiss⟩)
      · exact .crashed cause
      · exact .amiss he hamiss
    · rintro (_ | cause | ⟨he, hamiss⟩)
      · exact .crashed cause
      · exact .amiss he hamiss

section Answers

variable {shop : Workshop σ}

/-- What the processor of a violation answers. -/
def answer? {τ : Type} (shop : Workshop σ τ) (d : Document σ) (v : Violation) :
    Option (Except τ Outcome) :=
  (shop.processors.get? v.ruleId).map fun processor => processor.apply
    ⟨d.tree, d.parsed, v.node, v, shop.language.fragments d.tree.filePath⟩

theorem reply_crashed_iff : (∃ message, reply shop d v = .crashed message) ↔
    ∀ answer, answer? shop d v = some answer → Crashes d.tree answer := by
  unfold reply answer?
  cases shop.processors.get? v.ruleId with
  | none => exact iff_of_true ⟨_, rfl⟩ fun _ h => nomatch h
  | some processor =>
    simp only [Option.map_some, Option.some_inj, forall_eq']
    cases processor.apply
      ⟨d.tree, d.parsed, v.node, v, shop.language.fragments d.tree.filePath⟩ with
    | error thrown => exact iff_of_true ⟨_, rfl⟩ (.thrown thrown)
    | ok outcome =>
      cases outcome with
      | crashed cause => exact iff_of_true ⟨_, rfl⟩ (.crashed cause)
      | declined reason => exact iff_of_false (fun ⟨_, h⟩ => nomatch h) fun h => nomatch h
      | applied edits =>
        rw [crashes_applied_iff]
        cases edits with
        | nil => exact iff_of_false (fun ⟨_, h⟩ => nomatch h) fun ⟨_, h⟩ => nomatch h
        | cons e rest =>
          simp only [List.isEmpty_cons, Bool.false_eq_true, if_false]
          cases PassState.problem? d.tree (e :: rest) with
          | none => exact iff_of_false (fun ⟨_, h⟩ => nomatch h) fun ⟨_, h⟩ => nomatch h
          | some problem => exact iff_of_true ⟨_, rfl⟩ ⟨_, rfl⟩

theorem blur_reply_of_fails {answer : Except Thrown Outcome} (hanswer : answer? shop d v = some answer)
    (h : Fails d.tree answer) : (reply shop d v).blur = .declined := by
  cases h with
  | crash h =>
    obtain ⟨message, hreply⟩ := reply_crashed_iff.mpr fun a ha => by
      obtain rfl := Option.some_inj.mp (hanswer.symm.trans ha)
      exact h
    rw [hreply]
    rfl
  | idle =>
    obtain ⟨processor, hprocessor, happly⟩ := Option.map_eq_some_iff.mp hanswer
    simp only [reply, hprocessor, happly]
    rfl

theorem reply_of_declined {reason : String}
    (hanswer : answer? shop d v = some (.ok (.declined reason))) : reply shop d v = .declined := by
  obtain ⟨processor, hprocessor, happly⟩ := Option.map_eq_some_iff.mp hanswer
  simp only [reply, hprocessor, happly]

end Answers

theorem Register.has_congr {α : Type} {r s : Register α}
    (h : (r.entries.map (·.1)).Perm (s.entries.map (·.1))) (id : String) : r.has id = s.has id := by
  have hmem : ∀ r : Register α, r.has id = true ↔ id ∈ r.entries.map (·.1) := by
    intro r
    rw [has, get?, List.lookup_isSome_iff, List.mem_map]
    refine exists_congr fun x => and_congr_right fun _ => ?_
    rw [beq_iff_eq, eq_comm]
  rw [Bool.eq_iff_iff, hmem, hmem]
  exact h.mem_iff

/-- Registers that agree, but where a processor of the first one fails the second one may decline. -/
structure Processors.AgreeUpToFailures {τ : Type} (ps qs : Processors σ τ) : Prop where
  ids : (ps.entries.map (·.1)).Perm (qs.entries.map (·.1))
  targeted : ∀ id p q, ps.get? id = some p → qs.get? id = some q → p.targeted = q.targeted
  answers : ∀ id p q, ps.get? id = some p → qs.get? id = some q → ∀ c,
    p.apply c = q.apply c ∨ Fails c.tree (p.apply c) ∧ ∃ reason, q.apply c = .ok (.declined reason)

section Worded

variable {τ : Type} [Throwable τ]

theorem Processors.AgreeUpToFailures.worded {ps qs : Processors σ τ}
    (h : Processors.AgreeUpToFailures ps qs) :
    Processors.AgreeUpToFailures ps.worded qs.worded where
  ids := by
    simp only [Processors.worded, List.map_map]
    exact h.ids
  targeted id p q hp hq := by
    rw [Processors.get?_worded, Option.map_eq_some_iff] at hp hq
    obtain ⟨p, hp, rfl⟩ := hp
    obtain ⟨q, hq, rfl⟩ := hq
    exact h.targeted id p q hp hq
  answers id p q hp hq c := by
    rw [Processors.get?_worded, Option.map_eq_some_iff] at hp hq
    obtain ⟨p, hp, rfl⟩ := hp
    obtain ⟨q, hq, rfl⟩ := hq
    rcases h.answers id p q hp hq c with hsame | ⟨hfails, reason, hdeclined⟩
    · exact .inl (congrArg (Except.mapError _) hsame)
    · refine .inr ⟨?_, reason, congrArg (Except.mapError _) hdeclined⟩
      change Fails c.tree ((p.apply c).mapError _)
      generalize p.apply c = answer at hfails
      cases hfails with
      | crash hcrash => exact .crash (crashes_mapError_iff.mpr hcrash)
      | idle => exact .idle

end Worded

/-- Registers that agree up to failures give replies that look the same. -/
theorem Processors.AgreeUpToFailures.blur_reply {ps qs : Processors σ}
    (h : Processors.AgreeUpToFailures ps qs) (language : Language σ) (d : Document σ)
    (v : Violation) : (reply ⟨language, ps⟩ d v).blur = (reply ⟨language, qs⟩ d v).blur := by
  have hhas : ps.has v.ruleId = qs.has v.ruleId := Register.has_congr h.ids v.ruleId
  unfold Register.has at hhas
  cases hp : ps.get? v.ruleId with
  | none =>
    rw [hp, Option.isSome_none, eq_comm, Option.isSome_eq_false_iff, Option.isNone_iff_eq_none]
      at hhas
    simp only [reply, hp, hhas]
  | some p =>
    rw [hp, Option.isSome_some, eq_comm, Option.isSome_iff_exists] at hhas
    obtain ⟨q, hq⟩ := hhas
    rcases h.answers v.ruleId p q hp hq
      ⟨d.tree, d.parsed, v.node, v, language.fragments d.tree.filePath⟩ with
      hsame | ⟨hfails, reason, hdeclined⟩
    · simp only [reply, hp, hq, hsame, h.targeted v.ruleId p q hp hq]
    · have hanswer : answer? ⟨language, ps⟩ d v = some (p.apply
          ⟨d.tree, d.parsed, v.node, v, language.fragments d.tree.filePath⟩) :=
        Option.map_eq_some_iff.mpr ⟨p, hp, rfl⟩
      have hanswer' : answer? ⟨language, qs⟩ d v = some (.ok (.declined reason)) :=
        Option.map_eq_some_iff.mpr ⟨q, hq, hdeclined⟩
      rw [blur_reply_of_fails hanswer hfails, reply_of_declined hanswer']
      rfl

/-- A processor is handed a violation. -/
structure Call (σ : Type) where
  pass : Nat
  document : Document σ
  violation : Violation

/-- The record of a call at which the processor crashes. -/
def Call.record? (shop : Workshop σ) (c : Call σ) : Option CrashRecord :=
  Handling.crash? c.pass ⟨c.violation, reply shop c.document c.violation⟩

theorem Call.isSome_record?_iff {shop : Workshop σ} {c : Call σ} :
    (c.record? shop).isSome = true ↔ ∀ answer, answer? shop c.document c.violation = some answer →
      Crashes c.document.tree answer := by
  rw [← reply_crashed_iff, record?, Handling.crash?]
  cases reply shop c.document c.violation with
  | skipped => simp
  | declined => simp
  | crashed message => exact iff_of_true rfl ⟨message, rfl⟩
  | produced set => simp

theorem Call.isSome_record?_worded_iff {τ : Type} [Throwable τ] {language : Language σ}
    {ps : Processors σ τ} {c : Call σ} :
    (c.record? ⟨language, ps.worded⟩).isSome = true ↔
      ∀ answer, answer? ⟨language, ps⟩ c.document c.violation = some answer →
        Crashes c.document.tree answer := by
  rw [isSome_record?_iff]
  unfold answer?
  rw [Processors.get?_worded]
  cases ps.get? c.violation.ruleId with
  | none => exact iff_of_true (fun _ h => nomatch h) fun _ h => nomatch h
  | some processor =>
    simp only [Option.map_some, Option.some_inj, forall_eq']
    exact crashes_mapError_iff

/-- The call by which a violation was handled, unless it was skipped. -/
def Handling.call? (number : Nat) (d : Document σ) (h : Handling) : Option (Call σ) :=
  match h.fate with
  | .skipped => none
  | _ => some ⟨number, d, h.violation⟩

theorem Handling.call?_seen (number : Nat) (d : Document σ) (h : Handling) :
    (h.seen .blurred).call? number d = h.call? number d := by
  obtain ⟨v, fate⟩ := h
  cases fate <;> rfl

theorem Handling.crash?_entry_eq {shop : Workshop σ} {h : Handling}
    (hfate : h.fate = .skipped ∨ h.fate = reply shop d h.violation) (number : Nat) :
    (h.entry? number).bind Statistics.Entry.crash? =
      (h.call? number d).bind (Call.record? shop) := by
  obtain ⟨v, fate⟩ := h
  rcases hfate with hfate | hfate
  · cases hfate
    rfl
  · have hrecord : Call.record? shop ⟨number, d, v⟩ = Handling.crash? number ⟨v, fate⟩ :=
      congrArg (fun fate => Handling.crash? number ⟨v, fate⟩) hfate.symm
    cases fate with
    | skipped => exact absurd hfate.symm reply_ne_skipped
    | declined => exact hrecord.symm
    | crashed message => exact hrecord.symm
    | produced set => exact hrecord.symm

theorem Reports.crashes_entries {shop : Workshop σ} {budget : Budget} {requested : RenderMode}
    {vs : List Violation} {statistics : Statistics} {r : PassReport σ}
    (h : Reports shop d budget requested vs statistics r) (mode : RenderMode) (file : String)
    (number : Nat) : (r.entries mode file number).filterMap Statistics.Entry.crash? =
      (r.handled.filterMap (Handling.call? number d)).filterMap (Call.record? shop) := by
  obtain ⟨m, rounds, final, hrounds, hhandled, -⟩ := h.rounds
  have hending : (r.ending mode file number).filterMap Statistics.Entry.crash? = [] := by
    rw [List.filterMap_eq_nil_iff]
    intro entry hentry
    obtain ⟨f, rfl⟩ | ⟨f, rfl⟩ | ⟨v, rfl⟩ := PassReport.ending_cases hentry
    · rfl
    · rfl
    · rfl
  rw [PassReport.entries, List.filterMap_append, hending, List.append_nil, List.filterMap_filterMap,
    List.filterMap_filterMap]
  refine List.filterMap_congr fun g hg => ?_
  rw [← hhandled] at hg
  exact Handling.crash?_entry_eq (hrounds.fate_of_mem hg) number

namespace Engine

variable {e e' : Engine σ} {rules ids : List String} {options : RepairOptions}
  {p q : Progress σ} {number looks : Nat} {ts : List (TurnReport σ)} {turn last : TurnReport σ}
  {reason : StopReason} {text : Text} {file : String} {j j' i i' : Journal} {r r' : RepairResult σ}

def shop {τ : Type} (e : Engine σ τ) : Workshop σ τ := ⟨e.language, e.processors⟩

/-- Engines that differ only in processors, of which the replies look the same with crashes seen as
declines. -/
structure Resembles (e e' : Engine σ) : Prop where
  language : e.language = e'.language
  analyzer : e.analyzer = e'.analyzer
  ids : (e.processors.entries.map (·.1)).Perm (e'.processors.entries.map (·.1))
  reply : ∀ d v, (reply e.shop d v).blur = (reply e'.shop d v).blur

namespace Resembles

theorem symm (h : e.Resembles e') : e'.Resembles e :=
  ⟨h.language.symm, h.analyzer.symm, h.ids.symm, fun d v => (h.reply d v).symm⟩

theorem validateRules_eq (h : e.Resembles e') (ids : List String) :
    e'.validateRules ids = e.validateRules ids := by
  unfold validateRules validateAnalysisRules
  simp only [h.analyzer, Register.has_congr h.ids]

theorem turnBound_eq (h : e.Resembles e') (options : RepairOptions) :
    e'.turnBound options = e.turnBound options := by
  have hlength := h.ids.length_eq
  rw [List.length_map, List.length_map] at hlength
  rw [turnBound, turnBound, hlength]

end Resembles

/-- The engine with other processors. -/
def withProcessors {τ : Type} (e : Engine σ τ) (processors : Processors σ τ) : Engine σ τ :=
  { e with processors }

theorem resembles_of_agree {processors : Processors σ}
    (h : Processors.AgreeUpToFailures e.processors processors) :
    e.Resembles (e.withProcessors processors) where
  language := rfl
  analyzer := rfl
  ids := h.ids
  reply := h.blur_reply e.language

theorem Takes.resembling (h : e.Takes rules options number looks p turn) (he : e.Resembles e')
    (hp : p.blur = q.blur) : ∃ turn', e'.Takes rules options number looks q turn' ∧
      turn.seen .blurred = turn'.seen .blurred := by
  have hd := congrArg Progress.document hp
  change p.document = q.document at hd
  have happlied : ∀ id, p.statistics.applied id = q.statistics.applied id := by
    intro id
    rw [← p.statistics.applied_blur, ← q.statistics.applied_blur]
    exact congrArg (fun p => p.statistics.applied id) hp
  refine h.transfer_seen he.language (fun v => ?_) (fun vs hvs => ?_) (congrArg _ hd) rfl
    (fun id more => by rw [happlied]) (Progress.verdict_eq ?_ (fun id => ?_) ..)
  · rw [hd]
    exact he.reply q.document v
  · unfold Finds
    rw [← he.analyzer, ← hd]
    exact hvs
  · rfl
  · rw [applied_analyzed, applied_analyzed, happlied]

theorem Leads.resembling (h : e.Leads rules options number looks p ts) (he : e.Resembles e')
    (hp : p.blur = q.blur) : ∃ ts', e'.Leads rules options number looks q ts' ∧
      ts.map (TurnReport.seen .blurred) = ts'.map (TurnReport.seen .blurred) := by
  induction h generalizing q with
  | nil number looks p => exact ⟨[], .nil _ _ _, rfl⟩
  | @cons number looks p t ts htakes hstop hrest ih =>
    obtain ⟨t', htakes', hseen⟩ := htakes.resembling he hp
    have hnext : (t.after options number p 0).blur = (t'.after options number q 0).blur := by
      rw [blur_after, blur_after, hp, hseen]
    obtain ⟨ts', hrest', hrests⟩ := ih hnext
    refine ⟨t' :: ts', .cons htakes' ?_ hrest', ?_⟩
    · rw [← TurnReport.stop?_seen t' .blurred, ← hseen, TurnReport.stop?_seen, hstop]
    · rw [List.map_cons, List.map_cons, hseen, hrests]

theorem Ran.resembling (h : e.Ran text file ids options looks rules p ts last reason)
    (he : e.Resembles e') : ∃ ts' last', e'.Ran text file ids options looks rules p ts' last' reason ∧
      (ts ++ [last]).map (TurnReport.seen .blurred) =
        (ts' ++ [last']).map (TurnReport.seen .blurred) := by
  obtain ⟨ts', hleads, hseen⟩ := h.course.leads.resembling he rfl
  -- The last turn begins in states that look the same, as the turns before it do.
  have hlength : ts.length = ts'.length := by
    rw [← List.length_map (f := TurnReport.seen .blurred), hseen, List.length_map]
  have hend : (p.run options 1 ts).blur = (p.run options 1 ts').blur := by
    rw [blur_run, blur_run, hseen]
  obtain ⟨last', htakes, hlast⟩ := h.course.takes.resembling he hend
  rw [hlength] at htakes
  have hstop : last'.stop? = some reason := by
    rw [← TurnReport.stop?_seen last' .blurred, ← hlast, TurnReport.stop?_seen, h.course.stop]
  refine ⟨ts', last', ⟨?_, ?_, ⟨hleads, htakes, hstop⟩, ?_⟩, ?_⟩
  · rw [he.validateRules_eq, h.valid]
  · rw [← he.language]
    exact h.opening
  · rw [he.turnBound_eq, ← hlength]
    exact h.bound
  · rw [List.map_append, List.map_append, hseen, List.map_singleton, List.map_singleton, hlast]

/-- The calls of a turn over a file. -/
def TurnReport.calls (t : TurnReport σ) (number : Nat) (d : Document σ) : List (Call σ) :=
  match t with
  | halted _ _ => []
  | passed _ pass => pass.handled.filterMap (Handling.call? number d)

theorem TurnReport.calls_seen (t : TurnReport σ) (number : Nat) (d : Document σ) :
    (t.seen .blurred).calls number d = t.calls number d := by
  cases t with
  | halted remaining reason => rfl
  | passed remaining pass =>
    unfold calls seen PassReport.seen
    dsimp only
    rw [List.filterMap_map]
    exact List.filterMap_congr fun h _ => h.call?_seen number d

/-- The calls of turns with these reports. -/
def Progress.calls (options : RepairOptions) : Nat → Progress σ → List (TurnReport σ) →
    List (Call σ)
  | _, _, [] => []
  | number, p, t :: ts =>
    t.calls number p.document ++ calls options (number + 1) (t.after options number p 0) ts

theorem Progress.calls_concat (p : Progress σ) (number : Nat) (ts : List (TurnReport σ))
    (last : TurnReport σ) : p.calls options number (ts ++ [last]) =
      p.calls options number ts ++
        last.calls (number + ts.length) (p.run options number ts).document := by
  induction ts generalizing p number with
  | nil => exact List.append_nil _
  | cons t rest ih =>
    rw [List.cons_append, calls, ih, calls, run, List.append_assoc, List.length_cons,
      Nat.add_right_comm, ← Nat.add_assoc]

theorem Progress.calls_blur (p : Progress σ) (number : Nat) (ts : List (TurnReport σ)) :
    p.blur.calls options number (ts.map (TurnReport.seen .blurred)) =
      p.calls options number ts := by
  induction ts generalizing p number with
  | nil => rfl
  | cons t rest ih =>
    rw [List.map_cons, calls, ← blur_after, ih, TurnReport.calls_seen]
    rfl

/-- The books of a turn get a record for every call at which a processor crashes. -/
theorem Takes.crashes_eq (h : e.Takes rules options number looks p turn) (n : Nat) :
    (turn.after options number p n).statistics.crashes = p.statistics.crashes ++
      (turn.calls number p.document).filterMap (Call.record? e.shop) := by
  have hcrashes := TurnReport.filterMap_entries (f := Statistics.Entry.crash?) (fun _ => rfl) turn
    options number p.document.tree.filePath
  rw [after_statistics, Statistics.crashes_enterAll]
  cases h with
  | halted => exact congrArg _ hcrashes
  | passed _ _ hpass => exact congrArg _ (hcrashes.trans (hpass.crashes_entries ..))

theorem Leads.crashes_eq (h : e.Leads rules options number looks p ts) :
    (p.run options number ts).statistics.crashes = p.statistics.crashes ++
      (p.calls options number ts).filterMap (Call.record? e.shop) := by
  induction h with
  | nil => exact (List.append_nil _).symm
  | cons htakes hstop hrest ih =>
    rw [Progress.run, ih, htakes.crashes_eq, List.append_assoc, ← List.filterMap_append]
    rfl

theorem Ran.crashes_eq (h : e.Ran text file ids options looks rules p ts last reason) :
    (p.run options 1 (ts ++ [last])).statistics.crashes =
      (p.calls options 1 (ts ++ [last])).filterMap (Call.record? e.shop) := by
  obtain ⟨template, parsed, -, rfl⟩ := h.opening
  have hstart : (start ⟨.ofTemplate file text template, some parsed, 0⟩ rules).statistics.crashes =
      [] := Statistics.crashes_track {} rules
  rw [Progress.run_concat, h.course.takes.crashes_eq, h.course.leads.crashes_eq, hstart,
    List.nil_append, ← List.filterMap_append, ← Progress.calls_concat]

/-- The calls of a run, with one record of a crash in its result for each call at which a processor
crashes, and none for any other. The run is that of the engine of which the processors throw the bare
wordings. -/
structure Records {τ : Type} [Throwable τ] (e : Engine σ τ) (text : Text) (file : String)
    (ids : List String) (options : RepairOptions) (looks : Nat) (r : RepairResult σ)
    (calls : List (Call σ)) : Prop where
  made : ∃ rules p ts last, e.worded.Ran text file ids options looks rules p ts last r.stopReason ∧
    SameResult ((p.run options 1 (ts ++ [last])).result file text r.stopReason) r ∧
    calls = p.calls options 1 (ts ++ [last])
  crashes : r.statistics.crashes = calls.filterMap (Call.record? e.worded.shop)
  crashes_iff : ∀ c ∈ calls, (c.record? e.worded.shop).isSome = true ↔
    ∀ answer, answer? e.shop c.document c.violation = some answer → Crashes c.document.tree answer

theorem Ran.records {τ : Type} [Throwable τ] {e : Engine σ τ}
    (h : e.worded.Ran text file ids options looks rules p ts last r.stopReason)
    (hr : SameResult ((p.run options 1 (ts ++ [last])).result file text r.stopReason) r) :
    e.Records text file ids options looks r (p.calls options 1 (ts ++ [last])) where
  made := ⟨rules, p, ts, last, h, hr, rfl⟩
  crashes := by
    rw [← hr.statistics, Progress.result, Statistics.crashes_setRemaining, h.crashes_eq]
  crashes_iff _ _ := Call.isSome_record?_worded_iff

end Engine

/-- Results that are the same but for their counts and records of crashes, each crash of the one being
a crash or a decline of the other. -/
structure RepairResult.SameButCrashes (r r' : RepairResult σ) : Prop where
  filePath : r.filePath = r'.filePath
  text : r.text = r'.text
  document : r.document.Same r'.document
  changed : r.changed = r'.changed
  stopReason : r.stopReason = r'.stopReason
  remaining : r.remaining = r'.remaining
  passes : r.passes.map PassSummary.blur = r'.passes.map PassSummary.blur
  statistics : r.statistics.blur = r'.statistics.blur

namespace Engine

variable {e e' : Engine σ} {options : RepairOptions} {ids : List String}
  {p q : Progress σ} {reason : StopReason} {text : Text} {file : String} {j j' i i' : Journal}
  {r r' : RepairResult σ}

theorem SameResult.sameButCrashes (hr : SameResult (p.result file text reason) r)
    (hr' : SameResult (q.result file text reason) r') (h : p.blur = q.blur) :
    r.SameButCrashes r' := by
  have hd := congrArg Progress.document h
  change p.document = q.document at hd
  have hremaining := congrArg Progress.remaining h
  change p.remaining = q.remaining at hremaining
  have hdocument : r.document.Same r'.document := by
    refine hr.document.symm.trans (Document.Same.trans ?_ hr'.document)
    rw [Progress.result, Progress.result, hd]
    exact .refl _
  have hstatistics := congrArg Progress.statistics h
  change p.statistics.blur = q.statistics.blur at hstatistics
  refine ⟨hr.filePath.symm.trans hr'.filePath, congrArg Tree.source hdocument.1, hdocument, ?_,
    hr.stopReason.symm.trans hr'.stopReason, ?_, ?_, ?_⟩
  · rw [← hr.changed, ← hr'.changed, Progress.result, Progress.result, hd]
  · rw [← hr.remaining, ← hr'.remaining, Progress.result, Progress.result, hremaining]
  · rw [← hr.passes, ← hr'.passes]
    exact congrArg Progress.passes h
  · rw [← hr.statistics, ← hr'.statistics, Progress.result, Progress.result,
      Statistics.blur_setRemaining, Statistics.blur_setRemaining, hstatistics, hremaining]

section Worded

variable {τ : Type} [Throwable τ] {e e' : Engine σ τ}

/-- Of two engines that resemble each other, one comes to a result where the other does. -/
theorem Resembles.exists_result (he : e.worded.Resembles e'.worded)
    (hchecks : e.analyzer.Deterministic) (hreads : j.signalReads = i.signalReads)
    (h : (e.worded.repairSource text file ids options).Yields j r j') :
    ∃ r' i', (e'.worded.repairSource text file ids options).Yields i r' i' ∧ r.SameButCrashes r' ∧
      ∃ calls, e.Records text file ids options j.signalReads r calls ∧
        e'.Records text file ids options i.signalReads r' calls := by
  obtain ⟨rules, p, ts, last, hran, hr⟩ := exists_ran hchecks h
  obtain ⟨ts', last', hran', hseen⟩ := hran.resembling he
  have hchecks' : e'.worded.analyzer.Deterministic := he.analyzer ▸ hchecks
  obtain ⟨r', i', hrun, hr'⟩ := hran'.yields hchecks' hreads.symm
  have hend : (p.run options 1 (ts ++ [last])).blur = (p.run options 1 (ts' ++ [last'])).blur := by
    rw [blur_run, blur_run, hseen]
  have hcalls : p.calls options 1 (ts ++ [last]) = p.calls options 1 (ts' ++ [last']) := by
    rw [← Progress.calls_blur, hseen, Progress.calls_blur]
  refine ⟨r', i', hrun, hr.sameButCrashes hr' hend, _, hran.records hr, ?_⟩
  rw [hcalls, ← hreads]
  have hreason : r.stopReason = r'.stopReason := hr'.stopReason
  rw [hreason] at hran' hr'
  exact hran'.records hr'

/-- A processor that fails, be it that it throws what tells its wording, says that it crashed, gives
edits of nodes that are gone or of the root, or gives no edits, might as well decline. Where it does, a
run gives a result if and only if it did before, with the same calls, and the two results differ in
nothing but their crashes; each of them has one record for every call at which a processor crashed. -/
theorem repairSource_isolates (hchecks : e.analyzer.Deterministic) {processors : Processors σ τ}
    (hagree : Processors.AgreeUpToFailures e.processors processors)
    (hworded : e.processors.Worded) (hworded' : processors.Worded)
    (hreads : j.signalReads = i.signalReads) (text : Text) (file : String) (ids : List String)
    (options : RepairOptions) :
    ((∃ r j', (e.repairSource text file ids options).Yields j r j') ↔
      ∃ r' i', ((e.withProcessors processors).repairSource text file ids options).Yields i r' i') ∧
    ∀ r j' r' i', (e.repairSource text file ids options).Yields j r j' →
      ((e.withProcessors processors).repairSource text file ids options).Yields i r' i' →
      r.SameButCrashes r' ∧ ∃ calls, e.Records text file ids options j.signalReads r calls ∧
        (e.withProcessors processors).Records text file ids options i.signalReads r' calls := by
  have he : e.worded.Resembles (e.withProcessors processors).worded :=
    resembles_of_agree hagree.worded
  have hworded'' : (e.withProcessors processors).processors.Worded := hworded'
  rw [← repairSource_worded hworded, ← repairSource_worded hworded'']
  refine ⟨⟨?_, ?_⟩, fun r j' r' i' h h' => ?_⟩
  · rintro ⟨r, j', h⟩
    obtain ⟨r', i', h', -⟩ := he.exists_result hchecks hreads h
    exact ⟨r', i', h'⟩
  · rintro ⟨r', i', h'⟩
    obtain ⟨r, j', h, -⟩ := he.symm.exists_result hchecks hreads.symm h'
    exact ⟨r, j', h⟩
  · obtain ⟨r₀, i₀, h₀, hsame⟩ := he.exists_result hchecks hreads h
    obtain rfl := h₀.unique h'
    exact hsame

end Worded

/-- Renames marks of kind A; its second processor does as it is told. -/
def renamerWith (answer : Except Thrown Outcome) : Engine Marks.MarksFile :=
  { renamer with
    processors := .ofList [("a", relabel "a" "<B>"), ("b", ⟨"b", "b", "", true, fun _ => answer⟩)] }

theorem renamerWith_agree (answer : Except Thrown Outcome) (hanswer : ∀ t, Fails t answer)
    (reason : String) : Processors.AgreeUpToFailures (renamerWith answer).processors
      (renamerWith (.ok (.declined reason))).processors := by
  have hget : ∀ answer id p, (renamerWith answer).processors.get? id = some p →
      p = relabel "a" "<B>" ∧ id = "a" ∨ p = ⟨"b", "b", "", true, fun _ => answer⟩ ∧ id = "b" := by
    intro answer id p hp
    obtain ⟨front, back, hsplit, -⟩ := List.lookup_eq_some_iff.mp hp
    have hmem : (id, p) ∈ (renamerWith answer).processors.entries := by
      rw [hsplit]
      exact List.mem_append_right _ List.mem_cons_self
    rcases List.mem_cons.mp hmem with h | h
    · cases h
      exact .inl ⟨rfl, rfl⟩
    · cases List.mem_singleton.mp h
      exact .inr ⟨rfl, rfl⟩
  refine ⟨.refl _, fun id p q hp hq => ?_, fun id p q hp hq c => ?_⟩
  · rcases hget _ id p hp with ⟨rfl, rfl⟩ | ⟨rfl, rfl⟩
    · obtain rfl := Option.some_inj.mp hq
      rfl
    · obtain rfl := Option.some_inj.mp hq
      rfl
  · rcases hget _ id p hp with ⟨rfl, rfl⟩ | ⟨rfl, rfl⟩
    · obtain rfl := Option.some_inj.mp hq
      exact .inl rfl
    · obtain rfl := Option.some_inj.mp hq
      exact .inr ⟨hanswer c.tree, reason, rfl⟩

/-- Whether its processor throws at the mark that the first pass renamed, or declines there, the run
comes to the same, but for the record of one crash. -/
theorem repairSource_isolates_renamer : ∃ r j' r' i',
    ((renamerWith (.error .unnamed)).repairSource (.ofString "<A>x") "f" ["a", "b"] {}).Yields {} r
      j' ∧
    ((renamerWith (.ok (.declined "d"))).repairSource (.ofString "<A>x") "f" ["a", "b"] {}).Yields {}
      r' i' ∧
    r.text = .ofString "<B>x" ∧ r.statistics.crashes.length = 1 ∧ r.SameButCrashes r' := by
  have hagree := renamerWith_agree (.error .unnamed) (fun _ => .crash (.thrown _)) "d"
  obtain ⟨r, j', hrun, hend⟩ := Run.exists_yields (j := {})
    (x := (renamerWith (.error .unnamed)).repairSource (.ofString "<A>x") "f" ["a", "b"] {})
    (f := fun r => (r.text, r.statistics.crashes.length)) (b := (.ofString "<B>x", 1))
    (by decide +kernel)
  obtain ⟨htext, hcrashes⟩ := Prod.mk.inj hend
  obtain ⟨hiff, hsame⟩ := repairSource_isolates (e := renamerWith (.error .unnamed)) (j := {})
    (i := {}) (Catalog.deterministic _) hagree (fun _ _ _ _ _ _ => ⟨_, rfl⟩) (fun _ _ _ _ _ _ => ⟨_, rfl⟩) rfl
    (.ofString "<A>x") "f" ["a", "b"] {}
  obtain ⟨r', i', hrun'⟩ := hiff.mp ⟨r, j', hrun⟩
  exact ⟨r, j', r', i', hrun, hrun', htext, hcrashes, (hsame r j' r' i' hrun hrun').1⟩

theorem answering_agree (thrown : AnyThrown) (reason : String) : Processors.AgreeUpToFailures
    (answering (.error thrown)).processors (answering (.ok (.declined reason))).processors := by
  have hget : ∀ answer id p, (answering answer).processors.get? id = some p →
      p = ⟨"b", "b", "", true, fun _ => answer⟩ := by
    intro answer id p hp
    obtain ⟨front, back, hsplit, -⟩ := List.lookup_eq_some_iff.mp hp
    have hmem : (id, p) ∈ (answering answer).processors.entries := by
      rw [hsplit]
      exact List.mem_append_right _ List.mem_cons_self
    exact congrArg Prod.snd (List.mem_singleton.mp hmem)
  refine ⟨.refl _, fun id p q hp hq => ?_, fun id p q hp hq c => ?_⟩
  · rw [hget _ id p hp, hget _ id q hq]
  · rw [hget _ id p hp, hget _ id q hq]
    exact .inr ⟨.crash (.thrown thrown), reason, rfl⟩

/-- A processor can also throw what has no wording, such as an error of which the message throws when it
is read. Recording it ends the run, which gives a result where the processor declines. -/
theorem repairSource_isolates_not_wordless : ¬ ∀ (e : Engine Marks.MarksFile AnyThrown)
    (processors : Processors Marks.MarksFile AnyThrown) text file ids options,
    e.analyzer.Deterministic → Processors.AgreeUpToFailures e.processors processors →
    ((∃ r j, (e.repairSource text file ids options).Yields {} r j) ↔
      ∃ r j, ((e.withProcessors processors).repairSource text file ids options).Yields {} r j) := by
  intro hisolates
  have hiff := hisolates (answering (.error (.wordless .wordless))) _ (.ofString "<B>x") "f" ["b"] {}
    (Catalog.deterministic _) (answering_agree (.wordless .wordless) "d")
  obtain ⟨r, j, hdeclined, -⟩ := Run.exists_yields (j := {})
    (x := (answering (.ok (.declined "d"))).repairSource (.ofString "<B>x") "f" ["b"] {})
    (f := fun r => r.text) (b := .ofString "<B>x") (by decide +kernel)
  obtain ⟨r', j', hthrown⟩ := hiff.mpr ⟨r, j, hdeclined⟩
  obtain ⟨f, k, hfails⟩ := Run.exists_fails (j := {})
    (x := (answering (.error (.wordless .wordless))).repairSource (.ofString "<B>x") "f" ["b"] {})
    (by decide +kernel)
  exact nomatch (Prod.mk.inj (hthrown.symm.trans hfails)).1

end Engine
end LintRepair
