import LintRepair.Project.Repair
import LintRepair.Proofs.Project.Batching
import LintRepair.Proofs.Project.Files
import LintRepair.Proofs.Repair.Merging
import LintRepair.Proofs.Repair.Tallies

/-!
# Files are repaired on their own

A repair of a file takes no notice of what the other files hold, and leaves them alone. So the repair
of a project that lists no file twice comes to what the repairs of its files come to, each on its own,
whatever the size of the batches.
-/
namespace LintRepair

variable {σ α β : Type}

namespace Work

/-- What a computation comes to from a session, and the session that it leaves. -/
def on (w : Work α) (s : Session) : Except Fault α × Session := w.run.run s

variable {x : Work α} {f : α → Work β} {s s' : Session}

theorem on_bind_of_ok {a : α} (h : x.on s = (.ok a, s')) : (x >>= f).on s = (f a).on s' := by
  simp only [on, Bind.bind, ExceptT.bind, ExceptT.mk, ExceptT.run, StateT.bind, StateT.run] at h ⊢
  rw [h]
  rfl

theorem yields_of_on_ofRun {x : Run α} {a : α} (h : (ofRun x).on s = (.ok a, s')) :
    x.Yields s.journal a s'.journal := by
  have hresult := congrArg Prod.fst h
  have hjournal := congrArg (fun y => y.2.journal) h
  exact Prod.ext hresult hjournal

theorem exists_of_on_bind {b : β} {s'' : Session} (h : (x >>= f).on s = (.ok b, s'')) :
    ∃ a s', x.on s = (.ok a, s') ∧ (f a).on s' = (.ok b, s'') := by
  cases hx : x.on s with
  | mk r s' =>
    simp only [on, Bind.bind, ExceptT.bind, ExceptT.mk, ExceptT.run, StateT.bind, StateT.run] at h hx
    rw [hx] at h
    cases r with
    | error fault => cases h
    | ok a => exact ⟨a, s', rfl, h⟩

theorem on_bind_of_error {fault : Fault} (h : x.on s = (.error fault, s')) :
    (x >>= f).on s = (.error fault, s') := by
  simp only [on, Bind.bind, ExceptT.bind, ExceptT.mk, ExceptT.run, StateT.bind, StateT.run] at h ⊢
  rw [h]
  rfl

end Work

theorem Matches.exists_on {F : FileTree → FileTree → Prop} {x y : Work α}
    (h : Matches (Session.Alike F) Eq x y) {s t t' : Session} {r : Except Fault α}
    (hst : F s.files t.files) (hy : y.on t = (r, t')) :
    ∃ s', x.on s = (r, s') ∧ F s'.files t'.files := by
  obtain ⟨hends, hleft⟩ := h s t hst
  change SameOutcome Eq (x.on s).1 (y.on t).1 at hends
  change F (x.on s).2.files (y.on t).2.files at hleft
  rw [hy] at hends hleft
  exact ⟨(x.on s).2, Prod.ext hends.eq rfl, hleft⟩

/-- Work at places that is settled by the file there, and that spares the files at other places. -/
structure Apart (work : Route → Work β) : Prop where
  settled : ∀ p, Matches (Session.Alike (FileTree.SameAt p)) Eq (work p) (work p)
  spares : ∀ {p q : Route} (s : Session), q ≠ p → FileTree.SameAt q s.files ((work p).on s).2.files

theorem settleAll_cons_on {work : α → Work β} {x : α} {rest : List α} {s s' : Session}
    {rs : List (α × Except Fault β)}
    (h : (settleAll rest work).on ((work x).on s).2 = (.ok rs, s')) :
    (settleAll (x :: rest) work).on s = (.ok ((x, ((work x).on s).1) :: rs), s') := by
  have hsettle : (work x).settle.on s = (.ok ((work x).on s).1, ((work x).on s).2) := rfl
  unfold settleAll at h ⊢
  rw [List.mapM_cons, bind_assoc, Work.on_bind_of_ok hsettle, pure_bind, Work.on_bind_of_ok h]
  rfl

/-- At places that are all different, such work comes to what it comes to at each place alone. -/
theorem Apart.settleAll_eq {work : Route → Work β} (h : Apart work) {places : List Route}
    (hplaces : places.Nodup) (files : FileTree) (s : Session)
    (hs : ∀ p ∈ places, FileTree.SameAt p files s.files) :
    ∃ s', (settleAll places work).on s =
      (.ok (places.map fun p => (p, ((work p).start files).1)), s') := by
  induction places generalizing s with
  | nil => exact ⟨s, rfl⟩
  | cons p rest ih =>
    obtain ⟨hp, hrest⟩ := List.nodup_cons.mp hplaces
    obtain ⟨hsame, hlater⟩ := List.forall_mem_cons.mp hs
    have halone : ((work p).start files).1 = ((work p).on s).1 :=
      (h.settled p { files } s hsame).1.eq
    obtain ⟨s', hs'⟩ := ih hrest ((work p).on s).2 fun q hq =>
      (hlater q hq).trans (h.spares s fun heq => hp (heq ▸ hq))
    refine ⟨s', ?_⟩
    rw [List.map_cons, halone]
    exact settleAll_cons_on hs'

namespace Engine

variable {e : Engine σ} {options : RepairOptions} {place : Route} {F : FileTree → FileTree → Prop}

/-- Repairs a text and gives its file back. -/
def repairText (e : Engine σ) (text : Text) (file : String) (ids : List String)
    (options : RepairOptions) : Run (RepairResult σ) := do
  let result ← e.repairSource text file ids options
  Run.release result.document.number
  return result

/-- Writes a repaired text back, unless there is nothing new in it or nothing is to be written. -/
def writeBack (place : Route) (textBefore : Text) (dryRun : Bool) (r : RepairResult σ) :
    Work FileRepair := do
  let written := r.changed && !dryRun
  if written then Work.write place r.text
  return { filePath := place.text
           textBefore
           textAfter := r.text
           changed := r.changed
           written
           stopReason := r.stopReason
           passes := r.passes
           statistics := r.statistics
           remaining := r.remaining }

theorem repairFile_eq (e : Engine σ) (place : Route) (ids : List String) (options : RepairOptions)
    (dryRun : Bool) : e.repairFile place ids options dryRun =
      Work.read place >>= fun textBefore =>
        Work.ofRun (e.repairText textBefore place.text ids options) >>=
          writeBack place textBefore dryRun := rfl

theorem repairText_matches (he : e.analyzer.Steady) (habort : options.abortAfter = none)
    (text : Text) (file : String) (ids : List String) :
    (e.repairText text file ids options).Matches SameResult (e.repairText text file ids options) :=
  (repairSource_matches he habort text file ids).bind fun _ _ hr =>
    (Run.matches_release _ _).bind fun _ _ _ => matches_pure hr

theorem writeBack_matches (hwrite : ∀ t t' content, F t t' →
      SameOutcome F (t.write place content) (t'.write place content))
    (text : Text) (dryRun : Bool) {r r' : RepairResult σ} (hr : SameResult r r') :
    Matches (Session.Alike F) Eq (writeBack place text dryRun r) (writeBack place text dryRun r') := by
  have htext : r.text = r'.text := congrArg Tree.source hr.document.1
  unfold writeBack
  dsimp only
  rw [htext, hr.changed, hr.stopReason, hr.passes, hr.statistics, hr.remaining]
  split
  · exact (matches_write fun t t' h => hwrite t t' _ h).bind fun _ _ _ => matches_pure rfl
  · exact matches_pure rfl

theorem repairFile_matches (he : e.analyzer.Steady) (habort : options.abortAfter = none)
    (hread : ∀ t t', F t t' → t.read place = t'.read place)
    (hwrite : ∀ t t' content, F t t' →
      SameOutcome F (t.write place content) (t'.write place content))
    (ids : List String) (dryRun : Bool) : Matches (Session.Alike F) Eq
      (e.repairFile place ids options dryRun) (e.repairFile place ids options dryRun) := by
  rw [repairFile_eq]
  refine (matches_ask hread).bind ?_
  rintro text _ rfl
  exact (matches_ofRun (repairText_matches he habort text place.text ids)).bind fun _ _ hr =>
    writeBack_matches hwrite text dryRun hr

theorem writeBack_spares {s : Session} {q : Route} (hq : q ≠ place)
    (hplace : s.files.isFile place = true) (text : Text) (dryRun : Bool) (r : RepairResult σ) :
    FileTree.SameAt q s.files ((writeBack place text dryRun r).on s).2.files := by
  unfold writeBack
  dsimp only
  split
  · cases hwrite : s.files.write place r.text with
    | error f =>
      have hon : (Work.write place r.text).on s = (.error f, s) := by
        simp only [Work.on, Work.write, ExceptT.run, StateT.run, hwrite]
      rw [Work.on_bind_of_error hon]
      exact FileTree.sameAt_refl q s.files
    | ok files =>
      have hon : (Work.write place r.text).on s = (.ok (), { s with files }) := by
        simp only [Work.on, Work.write, ExceptT.run, StateT.run, hwrite]
      rw [Work.on_bind_of_ok hon]
      exact FileTree.sameAt_write hplace hwrite hq
  · exact FileTree.sameAt_refl q s.files

theorem repairFile_spares (s : Session) {q : Route} (hq : q ≠ place) (ids : List String)
    (dryRun : Bool) :
    FileTree.SameAt q s.files ((e.repairFile place ids options dryRun).on s).2.files := by
  rw [repairFile_eq]
  have hread : (Work.read place).on s = (s.files.read place, s) := rfl
  cases htext : s.files.read place with
  | error f =>
    rw [htext] at hread
    rw [Work.on_bind_of_error hread]
    exact FileTree.sameAt_refl q s.files
  | ok text =>
    rw [htext] at hread
    rw [Work.on_bind_of_ok hread]
    cases hrun : (Work.ofRun (e.repairText text place.text ids options)).on s with
    | mk result s' =>
      have hfiles : s'.files = s.files := congrArg (fun x => x.2.files) hrun.symm
      cases result with
      | error f =>
        rw [Work.on_bind_of_error hrun, hfiles]
        exact FileTree.sameAt_refl q s.files
      | ok r =>
        rw [Work.on_bind_of_ok hrun, ← hfiles]
        refine writeBack_spares hq ?_ text dryRun r
        rw [hfiles]
        exact FileTree.isFile_of_read htext

theorem apart_repairFile (he : e.analyzer.Steady) (habort : options.abortAfter = none)
    (ids : List String) (dryRun : Bool) :
    Apart fun place => e.repairFile place ids options dryRun where
  settled p := repairFile_matches he habort (fun _ _ h => h.read_eq)
    (fun _ _ content h => h.write content p.text) ids dryRun
  spares s hq := repairFile_spares s hq ids dryRun

theorem exists_repairSource {s s' : Session} {ids : List String} {dryRun : Bool} {file : FileRepair}
    (h : (e.repairFile place ids options dryRun).on s = (.ok file, s')) :
    ∃ r j j', (e.repairSource file.textBefore place.text ids options).Yields j r j' ∧
      file.filePath = place.text ∧ file.statistics = r.statistics := by
  rw [repairFile_eq] at h
  obtain ⟨text, s₁, -, h⟩ := Work.exists_of_on_bind h
  obtain ⟨r, s₂, hrun, h⟩ := Work.exists_of_on_bind h
  have hfile : file.textBefore = text ∧ file.filePath = place.text ∧
      file.statistics = r.statistics := by
    unfold writeBack at h
    dsimp only at h
    split at h
    · obtain ⟨u, s₃, -, h⟩ := Work.exists_of_on_bind h
      cases h
      exact ⟨rfl, rfl, rfl⟩
    · cases h
      exact ⟨rfl, rfl, rfl⟩
  obtain ⟨htext, hpath, hstatistics⟩ := hfile
  have hyields := Work.yields_of_on_ofRun hrun
  unfold repairText at hyields
  simp only [Run.yields_bind] at hyields
  obtain ⟨result, j', hrepair, _, j'', -, hresult⟩ := hyields
  obtain ⟨rfl, -⟩ := Run.yields_pure.mp hresult
  exact ⟨result, s₁.journal, j', htext ▸ hrepair, hpath, hstatistics⟩

end Engine

end LintRepair
