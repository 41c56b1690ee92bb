import LintRepair.Proofs.Syntax.Mirroring
import LintRepair.Proofs.Tree.Spelling
import LintRepair.Rules.Engine

/-!
# Reading and writing back

A file that was read and not edited is written back byte by byte: each node is cut from the text at the
offsets that the grammar gave it. The grammar takes offsets without the mark that may begin a text, while
the text is cut with it, so a marked text loses its last unit.
-/
namespace LintRepair

namespace Tree.Mirrors

variable {path : String} {text : Text} {template : Template} {ast : Syntax.Ast} {h : Handle} {n : Node}

/-- Whatever a tree was read from: while nothing is edited, each node is spelled by what its node of the
syntax tree takes. -/
theorem textOf_ofTemplate (hmirrors : (ofTemplate path text template).Mirrors ast)
    (hn : (ofTemplate path text template).node? h = some n) : ∃ place a,
      n.origin = some place ∧ ast.at? place = some a ∧ n.kind = a.kind.name ∧
      (ofTemplate path text template).textOf h = .ok (text.slice a.extent.start a.extent.stop) := by
  obtain ⟨place, a, horigin, hplace, hkind, hspan⟩ := hmirrors.stands h n hn
  refine ⟨place, a, horigin, hplace, hkind, ?_⟩
  rw [textOf_eq hn, spelling_of_span hn (dirty_ofTemplate hn) hspan]
  rfl

theorem render_ofTemplate (hmirrors : (ofTemplate path text template).Mirrors ast) :
    (ofTemplate path text template).render = text.slice ast.extent.start ast.extent.stop := by
  obtain ⟨n, hn⟩ := (wellFormed_ofTemplate path text template).root_live
  obtain ⟨place, a, horigin, hplace, -, hspan⟩ := hmirrors.stands _ n hn
  rw [hmirrors.root_origin n hn] at horigin
  cases horigin
  cases hplace
  exact spelling_of_span hn (dirty_ofTemplate hn) hspan

end Tree.Mirrors

namespace Syntax

open Grammar Rules

theorem source_rereadAwaiting (goals : Goals) (old : Array Branch) (saved : List Complaint) (fuel i : Nat)
    (acc : Array Branch) (s : State) : (rereadAwaiting goals old saved fuel i acc s).2.source = s.source := by
  induction fuel generalizing i acc s with
  | zero => rfl
  | succ fuel ih =>
    rw [rereadAwaiting]
    dsimp only
    split
    · rfl
    · generalize hback : (s.complainAll _).startAt _ = back
      have hsource : back.source = s.source := hback ▸ State.source_startAt _ _
      have hread : ∀ r : Reader (Array Branch × Option Nat), (r.run back).2.source = s.source :=
        fun r => (r.leads back).source.trans hsource
      split
      · exact hread _
      · exact (ih _ _ _).trans (hread _)

theorem readFile_root (goals : Goals) (s : State) :
    (readFile goals s).1.kind = .sourceFile ∧ (readFile goals s).1.stop = s.source.size := by
  have honce := ((readOnce goals).leads (s.startAt 0)).source
  rcases hrun : (readOnce goals).run (s.startAt 0) with ⟨⟨items, last⟩, t⟩
  rw [hrun, s.source_startAt] at honce
  refine ⟨rfl, ?_⟩
  simp only [readFile, hrun]
  split
  · exact congrArg Source.size ((source_rereadAwaiting goals _ _ _ _ _ _).trans honce)
  · exact congrArg Source.size honce

theorem SourceFile.extent_ast (dialect : Dialect) (source : Source) :
    (SourceFile.read dialect source).ast.kind = .sourceFile ∧
      (SourceFile.read dialect source).ast.extent = ⟨0, source.size⟩ := by
  have hroot : (SourceFile.read dialect source).ast.kind = .sourceFile ∧
      (SourceFile.read dialect source).ast.stop = source.size := readFile_root (goalsOf source) { source, dialect }
  refine ⟨hroot.1, ?_⟩
  rw [Ast.extent, if_pos hroot.1, hroot.2]

theorem Source.slice_ofText (t : Text) (start stop : Nat) :
    (Source.ofText t).slice start stop = t.slice start stop := by
  rw [Source.slice, Source.ofText, Array.toList_extract, List.extract_eq_take_drop, Text.slice,
    List.drop_take]

variable {text : Text} {path : String} {template : Template} {f : SourceFile}

theorem source_of_parse (h : parse text path = .ok (template, f)) :
    f = SourceFile.read (.ofPath path) (.ofText (withoutMark text)) := by
  unfold parse at h
  dsimp only at h
  split at h
  · cases h
    rfl
  · cases h

theorem render_of_parse (h : parse text path = .ok (template, f)) :
    (Tree.ofTemplate path text template).render = text.take (withoutMark text).length := by
  rw [(mirrors_of_parse h).render_ofTemplate, source_of_parse h, (SourceFile.extent_ast ..).2,
    Text.slice, List.drop_zero, Source.size, Source.ofText, List.size_toArray]

/-- A file that was read and not edited is written back as it was, and each of its nodes is spelled by
the text between its offsets as the grammar has them; but behind a mark, which the grammar does not
see, everything is cut one unit too early, and the text loses its last unit. -/
theorem render_exact (h : parse text path = .ok (template, f)) :
    (withoutMark text = text →
      f.source = .ofText text ∧
      (∀ indentSize, (sourceLanguage indentSize).render (.ofTemplate path text template) .targeted =
        .ok text) ∧
      ∀ k n, (Tree.ofTemplate path text template).node? k = some n → ∃ place a,
        n.origin = some place ∧ f.ast.at? place = some a ∧ n.kind = a.kind.name ∧
        (Tree.ofTemplate path text template).textOf k =
          .ok (f.source.slice a.extent.start a.extent.stop)) ∧
    ∀ rest, text = 0xFEFF :: rest →
      f.source = .ofText rest ∧
      (∀ indentSize, (sourceLanguage indentSize).render (.ofTemplate path text template) .targeted =
        .ok text.dropLast) ∧
      text.dropLast ≠ text ∧
      ∀ k n, (Tree.ofTemplate path text template).node? k = some n → ∃ place a,
        n.origin = some place ∧ f.ast.at? place = some a ∧ n.kind = a.kind.name ∧
        (Tree.ofTemplate path text template).textOf k =
          .ok (text.slice a.extent.start a.extent.stop) := by
  have hsource : f.source = .ofText (withoutMark text) := by
    rw [source_of_parse h]
    rfl
  have hrender := render_of_parse h
  have htext := fun k n => (mirrors_of_parse h).textOf_ofTemplate (h := k) (n := n)
  constructor
  · intro hplain
    rw [hplain] at hsource hrender
    rw [List.take_length] at hrender
    refine ⟨hsource, fun indentSize => congrArg Except.ok hrender, fun k n hn => ?_⟩
    rw [hsource]
    simp only [Source.slice_ofText]
    exact htext k n hn
  · rintro rest rfl
    have hmark : withoutMark (0xFEFF :: rest) = rest := rfl
    rw [hmark] at hsource hrender
    have hlast : (0xFEFF :: rest).take rest.length = (0xFEFF :: rest).dropLast := by
      rw [List.dropLast_eq_take]
      rfl
    refine ⟨hsource, fun indentSize => congrArg Except.ok (hrender.trans hlast), fun heq => ?_, htext⟩
    have hlength := congrArg List.length heq
    rw [List.length_dropLast, List.length_cons] at hlength
    lia

theorem exists_parse_statement : ∃ template f,
    parse (Text.ofString "x;\n") "a.ts" = .ok (template, f) := by
  have herrors : (SourceFile.read {} (.ofText (withoutMark (Text.ofString "x;\n")))).errors = [] := by
    decide +kernel
  unfold parse
  dsimp only
  rw [ofPath_typed, herrors]
  exact ⟨_, _, rfl⟩

theorem exists_parse_marked : ∃ template f,
    parse (0xFEFF :: Text.ofString "x;\n") "a.ts" = .ok (template, f) := by
  obtain ⟨template, f, h⟩ := exists_parse_statement
  have hsame : withoutMark (0xFEFF :: Text.ofString "x;\n") = withoutMark (Text.ofString "x;\n") :=
    rfl
  unfold parse at h ⊢
  rw [hsame]
  dsimp only at h ⊢
  split at h
  · exact ⟨_, _, rfl⟩
  · cases h

/-- Without a mark the file is written back whole, and behind one without its line end. -/
theorem render_exact_statement :
    (∃ template f, parse (Text.ofString "x;\n") "a.ts" = .ok (template, f) ∧
      (sourceLanguage 4).render (.ofTemplate "a.ts" (Text.ofString "x;\n") template) .targeted =
        .ok (Text.ofString "x;\n")) ∧
    ∃ template f, parse (0xFEFF :: Text.ofString "x;\n") "a.ts" = .ok (template, f) ∧
      (sourceLanguage 4).render (.ofTemplate "a.ts" (0xFEFF :: Text.ofString "x;\n") template)
        .targeted = .ok (0xFEFF :: Text.ofString "x;") := by
  obtain ⟨template, f, h⟩ := exists_parse_statement
  obtain ⟨template', f', h'⟩ := exists_parse_marked
  refine ⟨⟨template, f, h, ((render_exact h).1 (by decide)).2.1 4⟩, template', f', h', ?_⟩
  exact ((render_exact h').2 _ rfl).2.1 4

/-- So it is not true of every text that it is written back as it was. -/
theorem render_inexact_marked : ¬ ∀ text path template f,
    parse text path = .ok (template, f) → (sourceLanguage 4).render
      (.ofTemplate path text template) .targeted = .ok text := by
  intro hexact
  obtain ⟨template, f, h⟩ := exists_parse_marked
  have hwhole := (Except.ok.inj (hexact _ _ _ _ h)).symm.trans (render_of_parse h)
  exact absurd hwhole (by decide)

end Syntax
end LintRepair
