import LintRepair.Files.Tree
import LintRepair.Proofs.Repair.Steadiness

/-!
# Files apart

What reading and writing a file comes to is settled by that file and by the places there are. Writing
a file that is there changes neither the places nor any other file.
-/
namespace LintRepair.FileTree

variable {t t' t'' : FileTree} {r q : Route} {content : Text}

theorem isFile_eq (t : FileTree) (r : Route) : t.isFile r = decide (r ∈ t.files.map (·.1)) := by
  unfold isFile file?
  induction t.files with
  | nil => rfl
  | cons f rest ih =>
    obtain ⟨place, file⟩ := f
    rw [List.lookup_cons, List.map_cons]
    by_cases h : r = place
    · simp [h]
    · rw [beq_eq_false_iff_ne.mpr h]
      simp only [List.mem_cons, h, false_or]
      exact ih

theorem map_fst_setContent (r : Route) (content : Text) (files : List (Route × File)) :
    (setContent r content files).map (·.1) =
      if r ∈ files.map (·.1) then files.map (·.1) else files.map (·.1) ++ [r] := by
  induction files with
  | nil => rfl
  | cons f rest ih =>
    obtain ⟨place, file⟩ := f
    rw [setContent, List.map_cons]
    by_cases h : place = r
    · rw [if_pos h, if_pos (List.mem_cons.mpr (.inl h.symm)), List.map_cons]
    · rw [if_neg h, List.map_cons, ih]
      simp only [List.mem_cons, Ne.symm h, false_or]
      split <;> rfl

theorem lookup_setContent_self (r : Route) (content : Text) (files : List (Route × File)) :
    (setContent r content files).lookup r =
      some { (files.lookup r).getD { content } with content } := by
  induction files with
  | nil => simp [setContent]
  | cons f rest ih =>
    obtain ⟨place, file⟩ := f
    by_cases h : place = r
    · simp [setContent, h]
    · have hr : (r == place) = false := beq_eq_false_iff_ne.mpr (Ne.symm h)
      simpa only [setContent, h, ↓reduceIte, List.lookup_cons, hr] using ih

/-- Trees with the same places, in which one file is the same. -/
structure SameAt (r : Route) (t t' : FileTree) : Prop where
  places : t.files.map (·.1) = t'.files.map (·.1)
  directories : t.directories = t'.directories
  file : t.file? r = t'.file? r

theorem sameAt_refl (r : Route) (t : FileTree) : SameAt r t t := ⟨rfl, rfl, rfl⟩

namespace SameAt

theorem trans (h : SameAt r t t') (h' : SameAt r t' t'') : SameAt r t t'' :=
  ⟨h.places.trans h'.places, h.directories.trans h'.directories, h.file.trans h'.file⟩

theorem isFile (h : SameAt r t t') (q : Route) : t.isFile q = t'.isFile q := by
  rw [isFile_eq, isFile_eq, h.places]

theorem isDirectory (h : SameAt r t t') (q : Route) : t.isDirectory q = t'.isDirectory q := by
  have hany (t : FileTree) : (t.files.any fun f => q.leadsTo f.1) =
      (t.files.map (·.1)).any q.leadsTo := by
    rw [List.any_map]
    rfl
  unfold FileTree.isDirectory
  rw [h.isFile, h.directories, hany, hany, h.places]

theorem isBlocked (h : SameAt r t t') (q : Route) : t.isBlocked q = t'.isBlocked q :=
  congrArg q.ancestors.any (funext h.isFile)

theorem read_eq (h : SameAt r t t') : t.read r = t'.read r := by
  unfold read
  rw [h.file, h.isBlocked, h.isDirectory]

theorem put (h : SameAt r t t') (content : Text) :
    SameAt r (t.put r content) (t'.put r content) where
  places := by
    unfold FileTree.put
    rw [map_fst_setContent, map_fst_setContent, h.places]
  directories := h.directories
  file := by
    have hfile := h.file
    unfold file? at hfile
    unfold FileTree.put file?
    rw [lookup_setContent_self, lookup_setContent_self, hfile]

theorem makeDirectory (h : SameAt r t t') (q : Route) (path : String) :
    SameOutcome (SameAt r) (t.makeDirectory q path) (t'.makeDirectory q path) := by
  unfold FileTree.makeDirectory
  rw [h.isBlocked, h.isFile, h.isDirectory]
  split
  · exact .error _
  split
  · exact .error _
  split
  · exact .ok h
  · exact .ok ⟨h.places, congrArg (· ++ _) h.directories, h.file⟩

theorem write (h : SameAt r t t') (content : Text) (path : String) :
    SameOutcome (SameAt r) (t.write r content path) (t'.write r content path) := by
  unfold FileTree.write
  have hmade := h.makeDirectory r.parent (Path.parent path)
  revert hmade
  generalize t.makeDirectory r.parent (Path.parent path) = made
  generalize t'.makeDirectory r.parent (Path.parent path) = made'
  intro hmade
  cases hmade with
  | error f => exact .error f
  | ok h =>
    simp only [bind, Except.bind]
    rw [h.isDirectory, h.file]
    split
    · exact .error _
    split
    · exact .error _
    · exact .ok (h.put content)

end SameAt

theorem isFile_of_read (h : t.read r = .ok content) : t.isFile r = true := by
  unfold read at h
  unfold isFile
  split at h
  · next hfile => rw [hfile, Option.isSome_some]
  · split at h
    · cases h
    · split at h <;> cases h

theorem leadsTo_parent (r : Route) : r.parent.leadsTo r = true :=
  List.isPrefixOf_iff_prefix.mpr (List.dropLast_prefix r.parts)

theorem eq_of_makeDirectory (hr : t.isFile r = true) {path : String}
    (h : t.makeDirectory r.parent path = .ok t') : t' = t := by
  unfold makeDirectory at h
  split at h
  · cases h
  split at h
  · cases h
  · next hparent =>
    rw [isFile_eq, decide_eq_true_eq, List.mem_map] at hr
    obtain ⟨f, hf, rfl⟩ := hr
    have hany : (t.files.any fun g => f.1.parent.leadsTo g.1) = true :=
      List.any_eq_true.mpr ⟨f, hf, leadsTo_parent f.1⟩
    have hthere : t.isDirectory f.1.parent = true := by
      rw [isDirectory, hany, Bool.or_true, Bool.and_true, Bool.not_eq_true']
      exact Bool.eq_false_iff.mpr hparent
    rw [if_pos hthere] at h
    exact (Except.ok.inj h).symm

theorem write_eq_put (hr : t.isFile r = true) {path : String}
    (h : t.write r content path = .ok t') : t' = t.put r content := by
  unfold write at h
  cases hmade : t.makeDirectory r.parent (Path.parent path) with
  | error f =>
    rw [hmade] at h
    cases h
  | ok made =>
    rw [hmade, eq_of_makeDirectory hr hmade] at h
    simp only [bind, Except.bind] at h
    split at h
    · cases h
    split at h
    · cases h
    · exact (Except.ok.inj h).symm

/-- Writing a file that is there leaves the other files alone. -/
theorem sameAt_write (hr : t.isFile r = true) {path : String} (h : t.write r content path = .ok t')
    (hq : q ≠ r) : SameAt q t t' := by
  rw [write_eq_put hr h]
  rw [isFile_eq, decide_eq_true_eq] at hr
  refine ⟨?_, rfl, (file?_put_of_ne t hq content).symm⟩
  rw [put, map_fst_setContent, if_pos hr]

end LintRepair.FileTree
