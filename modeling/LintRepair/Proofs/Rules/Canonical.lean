import LintRepair.Proofs.Rules.Listing

/-!
# One list for a file and a set of rules

A violation is listed if its rule is asked for and it tells the first hit of that rule on its node
(`Catalog.Lists`); the other rules and the order in which rules are given do not come into that. The list
increases strictly, and such a list is told by its members (`eq_of_pairwise_before`). So the same rules give
the same list, and some of the rules give their part of it.
-/
namespace LintRepair

variable {σ : Type} {d : Document σ} {ids ids' : List String} {vs found : List Violation}
  {v w : Violation} {h : Handle} {hit : Hit}

/-- The hit is on a node for which this one is found: on the node itself or on one inside that has none. -/
def Hit.PointsAt (hit : Hit) (t : Tree) (h : Handle) : Prop :=
  ∃ place, hit.site = .at place ∧ t.Nearest place h

/-- The hit is the first of the list on this node. -/
def Hit.FirstOn (hit : Hit) (hits : List Hit) (t : Tree) (h : Handle) : Prop :=
  ∃ front back, hits = front ++ hit :: back ∧ hit.PointsAt t h ∧ ∀ a ∈ front, ¬ a.PointsAt t h

namespace Violation

/-- The order of listed violations: by start, by the code units of the rule's id, by handle. -/
def Before (v w : Violation) : Prop :=
  v.location.start < w.location.start ∨ v.location.start = w.location.start ∧
    (Text.ofString v.ruleId < Text.ofString w.ruleId ∨ v.ruleId = w.ruleId ∧ v.node < w.node)

/-- The text that violations are told apart by. -/
def key (v : Violation) : String := v.ruleId ++ ":" ++ toString v.node

/-- The violation is what a rule makes of a hit on its node. -/
structure Tells (v : Violation) (d : Document σ) (check : RuleCheck σ) (hit : Hit) : Prop where
  rule : v.ruleId = check.ruleId
  file : v.file = d.tree.filePath
  message : v.message = hit.message
  severity : v.severity = check.severity
  kind : d.tree.kind v.node = .ok v.nodeKind
  location : d.tree.location v.node = .ok v.location

theorem Before.asymm (hvw : v.Before w) : ¬ w.Before v := by
  rintro (hwv | ⟨hstart, hwv⟩)
  · rcases hvw with hvw | ⟨hstart, -⟩
    · lia
    · lia
  · rcases hvw with hvw | ⟨-, hvw | ⟨hrule, hnode⟩⟩
    · lia
    · rcases hwv with hwv | ⟨hrule, -⟩
      · exact List.lt_asymm hvw hwv
      · rw [hrule] at hvw
        exact List.lt_irrefl _ hvw
    · rcases hwv with hwv | ⟨-, hnode'⟩
      · rw [hrule] at hwv
        exact List.lt_irrefl _ hwv
      · lia

theorem colon_not_mem_toString (h : Handle) : ':' ∉ (toString h).toList := by
  have hdigits : ∀ n : Nat, ':' ∉ n.repr.toList := by
    intro n hmem
    rw [Nat.toList_repr] at hmem
    exact absurd (Nat.isDigit_of_mem_toDigits (by decide) (by decide) hmem) (by decide)
  cases h with
  | ofNat n => exact hdigits n
  | negSucc n =>
    change ':' ∉ ("-" ++ (n + 1).repr).toList
    rw [String.toList_append, List.mem_append, not_or]
    exact ⟨by decide, hdigits (n + 1)⟩

theorem toString_inj {h h' : Handle} : toString h = toString h' ↔ h = h' := by
  refine ⟨fun heq => ?_, congrArg toString⟩
  have hnat : ∀ {m n : Nat}, m.repr = n.repr → m = n := by
    intro m n hmn
    have hread := congrArg (fun s : String => Nat.ofDigitChars 10 s.toList 0) hmn
    simpa only [Nat.toList_repr, Nat.ofDigitChars_ten_toDigits] using hread
  -- a sign is no digit, so it tells the two forms of a number apart
  have hsign : ∀ {m n : Nat}, m.repr ≠ "-" ++ n.repr := by
    intro m n hmn
    have hmem : '-' ∈ m.repr.toList := by simp [hmn]
    rw [Nat.toList_repr] at hmem
    exact absurd (Nat.isDigit_of_mem_toDigits (by decide) (by decide) hmem) (by decide)
  cases h with
  | ofNat m =>
    cases h' with
    | ofNat n => exact congrArg Int.ofNat (hnat heq)
    | negSucc n => exact absurd heq hsign
  | negSucc m =>
    cases h' with
    | ofNat n => exact absurd heq.symm hsign
    | negSucc n =>
      have hrepr : (m + 1).repr = (n + 1).repr := String.append_right_inj "-" |>.mp heq
      exact congrArg Int.negSucc (Nat.succ.inj (hnat hrepr))

/-- The id of a rule may hold colons, but the handle behind the last one holds none. -/
theorem key_inj : v.key = w.key ↔ v.ruleId = w.ruleId ∧ v.node = w.node := by
  refine ⟨fun heq => ?_, fun ⟨hrule, hnode⟩ => by rw [key, key, hrule, hnode]⟩
  have hlist : ∀ u : Violation, u.key.toList.reverse =
      (toString u.node).toList.reverse ++ ':' :: u.ruleId.toList.reverse := by
    intro u
    simp [key, String.toList_append]
  have hcut : ∀ u : Violation, u.key.toList.reverse.takeWhile (· ≠ ':') =
      (toString u.node).toList.reverse := by
    intro u
    have hcolon := colon_not_mem_toString u.node
    rw [hlist, List.takeWhile_append_of_pos, List.takeWhile_cons_of_neg (by decide), List.append_nil]
    intro c hc
    exact decide_eq_true fun heq => hcolon (List.mem_reverse.mp (heq ▸ hc))
  have hnodes : (toString v.node).toList.reverse = (toString w.node).toList.reverse := by
    rw [← hcut, ← hcut, heq]
  have hkeys := hlist v
  rw [heq, hlist, hnodes] at hkeys
  have hrules := (List.cons.inj (List.append_cancel_left hkeys)).2
  exact ⟨(String.toList_inj.mp (List.reverse_inj.mp hrules)).symm,
    toString_inj.mp (String.toList_inj.mp (List.reverse_inj.mp hnodes))⟩

end Violation

/-- A list that increases strictly is told by its members. -/
theorem eq_of_pairwise_before {ws : List Violation} (hvs : vs.Pairwise Violation.Before)
    (hws : ws.Pairwise Violation.Before) (hmem : ∀ v, v ∈ vs ↔ v ∈ ws) : vs = ws := by
  have hnodup : ∀ {us : List Violation}, us.Pairwise Violation.Before → us.Nodup := fun hus =>
    hus.imp fun {a b} hab heq => by
      subst heq
      exact hab.asymm hab
  refine List.Perm.eq_of_pairwise (fun a b _ _ hab hba => absurd hba hab.asymm) hvs hws ?_
  exact (List.perm_ext_iff_of_nodup (hnodup hvs) (hnodup hws)).mpr hmem

namespace Catalog

variable {catalog : Catalog σ} {parsed : σ} {check : RuleCheck σ}

theorem flag?_eq_some_iff : flag? d check hit = some v ↔
    hit.PointsAt d.tree v.node ∧ v.Tells d check hit := by
  unfold flag? Hit.PointsAt
  cases hit.site with
  | nowhere => simp
  | elsewhere => simp
  | «at» place =>
    simp only [bind, Option.bind_eq_some_iff, Site.at.injEq, exists_eq_left',
      ← Tree.handleOf?_eq_some_iff]
    constructor
    · rintro ⟨h, hh, node, hnode, hv⟩
      cases hv
      exact ⟨hh, rfl, rfl, rfl, rfl, Tree.kind_eq hnode, Tree.location_eq hnode⟩
    · rintro ⟨hh, hv⟩
      obtain ⟨node, hnode⟩ := Tree.exists_node_of_handleOf? hh
      have hkind := Except.ok.inj ((Tree.kind_eq hnode).symm.trans hv.kind)
      have hlocation := Except.ok.inj ((Tree.location_eq hnode).symm.trans hv.location)
      refine ⟨v.node, hh, node, hnode, ?_⟩
      rw [hkind, hlocation, ← hv.rule, ← hv.file, ← hv.message, ← hv.severity]
      rfl

theorem exists_flag?_iff (check : RuleCheck σ) : (∃ w, flag? d check hit = some w ∧ w.node = h) ↔
    hit.PointsAt d.tree h := by
  constructor
  · rintro ⟨w, hw, rfl⟩
    exact (flag?_eq_some_iff.mp hw).1
  · rintro ⟨place, hsite, hnearest⟩
    have hof := Tree.handleOf?_eq_some_iff.mpr hnearest
    obtain ⟨node, hnode⟩ := Tree.exists_node_of_handleOf? hof
    unfold flag?
    simp [hsite, hof, hnode]

theorem keep_eq : keep found v =
    if found.any fun w => w.key = v.key then found else found ++ [v] := by
  simp only [keep, Violation.key_inj, Bool.decide_and]

theorem mem_foldl_keep_iff : v ∈ vs.foldl keep found ↔ v ∈ found ∨
    (∀ w ∈ found, w.key ≠ v.key) ∧ vs.find? (fun w => w.key = v.key) = some v := by
  induction vs generalizing found with
  | nil => simp
  | cons u rest ih =>
    rw [List.foldl_cons, ih, keep_eq, List.find?_cons]
    split
    · next hseen =>
      obtain ⟨w, hw, hkey⟩ := List.any_eq_true.mp hseen
      split
      · next hu =>
        have hseen : ¬ ∀ w ∈ found, w.key ≠ v.key := fun hall =>
          hall w hw ((of_decide_eq_true hkey).trans (of_decide_eq_true hu))
        simp only [hseen, false_and]
      · rfl
    · next hnew =>
      have hnew : ∀ w ∈ found, w.key ≠ u.key := fun w hw hkey =>
        hnew (List.any_eq_true.mpr ⟨w, hw, decide_eq_true hkey⟩)
      simp only [List.mem_append, List.mem_singleton, or_imp, forall_and, forall_eq]
      split
      · next hu =>
        have hu := of_decide_eq_true hu
        rw [hu] at hnew
        simp only [hu, ne_eq, not_true_eq_false, false_and, or_false, Option.some_inj,
          eq_comm (a := v), and_iff_right hnew]
      · next hu =>
        have hu := of_decide_eq_false hu
        have hne : v ≠ u := fun heq => hu (heq ▸ rfl)
        simp [hu, hne]

theorem Keyed.find?_flatMap_flags (hc : Keyed catalog) :
    (ids.flatMap (flags catalog d parsed)).find? (fun w => w.key = v.key) =
      if v.ruleId ∈ ids then (flags catalog d parsed v.ruleId).find? fun w => w.key = v.key
      else none := by
  induction ids with
  | nil => rfl
  | cons id rest ih =>
    rw [List.flatMap_cons, List.find?_append, ih]
    by_cases hid : id = v.ruleId
    · subst hid
      rw [if_pos List.mem_cons_self]
      split
      · exact Option.or_self
      · exact Option.or_none
    · have hnone : (flags catalog d parsed id).find? (fun w => w.key = v.key) = none := by
        refine List.find?_eq_none.mpr fun w hw hkey => hid ?_
        rw [← hc.ruleId_of_mem_flags hw]
        exact (Violation.key_inj.mp (of_decide_eq_true hkey)).1
      simp [hnone, Ne.symm hid]

theorem find?_filterMap_flag?_eq_some_iff {hits : List Hit} (hrule : check.ruleId = v.ruleId) :
    (hits.filterMap (flag? d check)).find? (fun w => w.key = v.key) = some v ↔
      ∃ hit, hit.FirstOn hits d.tree v.node ∧ v.Tells d check hit := by
  have hpoints : ∀ a, ((flag? d check a).any fun w => w.key = v.key) = true ↔
      a.PointsAt d.tree v.node := by
    intro a
    rw [← exists_flag?_iff check, Option.any_eq_true]
    refine exists_congr fun w => and_congr_right fun hw => ?_
    rw [decide_eq_true_iff, Violation.key_inj, (flag?_eq_some_iff.mp hw).2.rule, hrule]
    exact and_iff_right rfl
  simp only [List.find?_filterMap, Option.bind_eq_some_iff, List.find?_eq_some_iff_append,
    flag?_eq_some_iff, Bool.not_eq_true', ← Bool.not_eq_true, hpoints]
  constructor
  · rintro ⟨hit, ⟨hon, front, back, heq, hfront⟩, -, htells⟩
    exact ⟨hit, ⟨front, back, heq, hon, hfront⟩, htells⟩
  · rintro ⟨hit, ⟨front, back, heq, hon, hfront⟩, htells⟩
    exact ⟨hit, ⟨hon, front, back, heq, hfront⟩, hon, htells⟩

/-- The violation is listed for the rules: its own is one of them, and it tells the first hit of that rule
on its node. -/
def Lists (catalog : Catalog σ) (d : Document σ) (parsed : σ) (ids : List String) (v : Violation) :
    Prop :=
  v.ruleId ∈ ids ∧ ∃ check, catalog.get? v.ruleId = some check ∧
    ∃ hits, check.check parsed = .ok hits ∧
      ∃ hit, hit.FirstOn hits d.tree v.node ∧ v.Tells d check hit

theorem Keyed.mem_foldl_keep_flags_iff (hc : Keyed catalog) :
    v ∈ (ids.flatMap (flags catalog d parsed)).foldl keep [] ↔
      catalog.Lists d parsed ids v := by
  rw [mem_foldl_keep_iff, hc.find?_flatMap_flags, Lists]
  simp only [List.not_mem_nil, false_or, forall_false, forall_const, true_and,
    Option.ite_none_right_eq_some]
  refine and_congr_right fun _ => ?_
  unfold flags
  cases hcheck : catalog.get? v.ruleId with
  | none => simp
  | some check =>
    simp only [Option.some_inj, exists_eq_left']
    cases hhits : check.check parsed with
    | error fault => simp
    | ok hits =>
      simp only [Except.ok.injEq, exists_eq_left']
      exact find?_filterMap_flag?_eq_some_iff (hc.ruleId_eq hcheck)

theorem exists_firstOn_iff {hits : List Hit} {t : Tree} :
    (∃ hit : Hit, hit.FirstOn hits t h) ↔ ∃ hit ∈ hits, hit.PointsAt t h := by
  constructor
  · rintro ⟨hit, front, back, rfl, hon, -⟩
    exact ⟨hit, List.mem_append_right _ List.mem_cons_self, hon⟩
  · rintro ⟨hit, hmem, hon⟩
    induction hits with
    | nil => cases hmem
    | cons first rest ih =>
      by_cases hfirst : first.PointsAt t h
      · exact ⟨first, [], rest, rfl, hfirst, fun a ha => (nomatch ha)⟩
      · obtain ⟨hit', front, back, rfl, hon', hfront⟩ := ih <| (List.mem_cons.mp hmem).resolve_left
          fun heq => hfirst (heq ▸ hon)
        exact ⟨hit', first :: front, back, rfl, hon', List.forall_mem_cons.mpr ⟨hfirst, hfront⟩⟩

theorem Keyed.exists_lists_iff (hc : Keyed catalog) {id : String} :
    (∃ v, catalog.Lists d parsed ids v ∧ v.ruleId = id ∧ v.node = h) ↔
      id ∈ ids ∧ ∃ check, catalog.get? id = some check ∧ ∃ hits, check.check parsed = .ok hits ∧
        ∃ hit ∈ hits, hit.PointsAt d.tree h := by
  constructor
  · rintro ⟨v, ⟨hid, check, hcheck, hits, hhits, hit, hon, -⟩, rfl, rfl⟩
    exact ⟨hid, check, hcheck, hits, hhits, exists_firstOn_iff.mp ⟨hit, hon⟩⟩
  · rintro ⟨hid, check, hcheck, hits, hhits, hmem⟩
    obtain ⟨hit, front, back, heq, hon, hfront⟩ := exists_firstOn_iff.mpr hmem
    obtain ⟨v, hflag, rfl⟩ := (exists_flag?_iff check).mpr hon
    have htells := (flag?_eq_some_iff.mp hflag).2
    obtain rfl : v.ruleId = id := htells.rule.trans (hc.ruleId_eq hcheck)
    exact ⟨v, ⟨hid, check, hcheck, hits, hhits, hit, ⟨front, back, heq, hon, hfront⟩, htells⟩, rfl, rfl⟩

/-- The list for a file and a set of rules. -/
structure Canonical (catalog : Catalog σ) (d : Document σ) (parsed : σ) (ids : List String)
    (vs : List Violation) : Prop where
  increasing : vs.Pairwise Violation.Before
  apart : Apart vs
  mem_iff : ∀ v, v ∈ vs ↔ catalog.Lists d parsed ids v
  /-- A node is listed under a rule if a hit of the rule is on the node. -/
  listed_iff : ∀ id h, (∃ v ∈ vs, v.ruleId = id ∧ v.node = h) ↔ id ∈ ids ∧
    ∃ check, catalog.get? id = some check ∧ ∃ hits, check.check parsed = .ok hits ∧
      ∃ hit ∈ hits, hit.PointsAt d.tree h

theorem before_of_violationLe (hle : violationLe v w = true)
    (hne : ¬ (v.ruleId = w.ruleId ∧ v.node = w.node)) : v.Before w := by
  rcases violationLe_iff.mp hle with hstart | ⟨hstart, ⟨hrule, hunits⟩ | ⟨hrule, hnode⟩⟩
  · exact .inl hstart
  · refine .inr ⟨hstart, .inl ?_⟩
    by_contra hlt
    exact hrule (unitsLe_antisymm hunits (decide_eq_true hlt))
  · exact .inr ⟨hstart, .inr ⟨hrule, lt_of_le_of_ne hnode fun heq => hne ⟨hrule, heq⟩⟩⟩

/-- The relation is symmetric, so sorting keeps it. -/
theorem Apart.mergeSort (ha : Apart vs) : Apart (vs.mergeSort violationLe) :=
  (List.mergeSort_perm vs violationLe).symm.pairwise ha fun hvw hwv =>
    hvw ⟨hwv.1.symm, hwv.2.symm⟩

theorem Apart.pairwise_before (ha : Apart vs) :
    (vs.mergeSort violationLe).Pairwise Violation.Before := by
  have hsorted : (vs.mergeSort violationLe).Pairwise fun v w => violationLe v w = true :=
    @List.pairwise_mergeSort _ violationLe (fun _ _ _ => violationLe_trans) violationLe_total _
  exact (hsorted.and ha.mergeSort).imp fun ⟨hle, hne⟩ => before_of_violationLe hle hne

theorem Keyed.canonical (hc : Keyed catalog) (d : Document σ) (parsed : σ) (ids : List String) :
    catalog.Canonical d parsed ids
      (((ids.flatMap (flags catalog d parsed)).foldl keep []).mergeSort violationLe) := by
  have hapart : Apart ((ids.flatMap (flags catalog d parsed)).foldl keep []) :=
    apart_foldl_keep .nil
  have hmem : ∀ v, v ∈ ((ids.flatMap (flags catalog d parsed)).foldl keep []).mergeSort violationLe ↔
      catalog.Lists d parsed ids v := fun v =>
    List.mem_mergeSort.trans hc.mem_foldl_keep_flags_iff
  refine ⟨hapart.pairwise_before, hapart.mergeSort, hmem, fun id h => ?_⟩
  rw [← hc.exists_lists_iff]
  exact exists_congr fun v => and_congr_left' (hmem v)

/-- A file and a set of rules have one list, and some of the rules have their part of it. -/
theorem Keyed.runChecks_canonical (hc : Keyed catalog) (hd : d.parsed = some parsed)
    (hanswers : AllAnswer catalog parsed ids) : ∃ vs, catalog.Canonical d parsed ids vs ∧
      (∀ ids', (∀ id, id ∈ ids' ↔ id ∈ ids) → ∀ j, ∃ j', (catalog.runChecks d ids').Yields j vs j') ∧
      ∀ part, part ⊆ ids → ∀ j, ∃ j',
        (catalog.runChecks d part).Yields j (vs.filter (·.ruleId ∈ part)) j' := by
  have hlist := hc.canonical d parsed ids
  refine ⟨_, hlist, fun ids' hids j => ?_, fun part hpart j => ?_⟩
  · refine (runChecks_yields_iff hd).mpr ⟨fun id hid => hanswers id ((hids id).mp hid), ?_⟩
    refine eq_of_pairwise_before hlist.increasing (hc.canonical d parsed ids').increasing fun v => ?_
    rw [hlist.mem_iff, (hc.canonical d parsed _).mem_iff, Lists, Lists, hids]
  · refine (runChecks_yields_iff hd).mpr ⟨fun id hid => hanswers id (hpart hid), ?_⟩
    refine eq_of_pairwise_before (hlist.increasing.filter _) (hc.canonical d parsed part).increasing fun v => ?_
    rw [List.mem_filter, hlist.mem_iff, (hc.canonical d parsed part).mem_iff, decide_eq_true_iff, Lists, Lists,
      and_right_comm]
    exact and_congr_left' (and_iff_right_of_imp fun hid => hpart hid)

/-- The first rule hits a place in the first name, the first name itself and the second one; the second rule
hits nothing and the second name. -/
def nameRules : Catalog Unit :=
  .ofList <| [
    { ruleId := "a", name := "", check := fun _ => .ok [⟨.at [7, 0], "inside"⟩, ⟨.at [0], "first"⟩,
        ⟨.at [1], "second"⟩] : RuleCheck Unit },
    { ruleId := "b", name := "", check := fun _ => .ok [⟨.nowhere, "lost"⟩, ⟨.at [1], "found"⟩] }].map
      fun check => (check.ruleId, check)

def pairDocument : Document Unit := ⟨Tree.pair, some (), 0⟩

theorem runChecks_canonical_pair : ∃ vs, vs.map (fun v => (v.ruleId, v.node, v.message)) =
      [("a", 1, "inside"), ("a", 2, "second"), ("b", 2, "found")] ∧
    (∃ j, (nameRules.runChecks pairDocument ["a", "b"]).Yields {} vs j) ∧
    (∃ j, (nameRules.runChecks pairDocument ["b", "a", "b"]).Yields {} vs j) ∧
    ∃ j, (nameRules.runChecks pairDocument ["b"]).Yields {} (vs.filter (·.ruleId ∈ ["b"])) j := by
  have hanswers : AllAnswer nameRules () ["a", "b"] := by
    intro id hid check hcheck
    rcases List.mem_cons.mp (Register.mem_entries_of_get? hcheck) with heq | hmem
    · cases heq
      exact ⟨_, rfl⟩
    · cases List.mem_singleton.mp hmem
      exact ⟨_, rfl⟩
  obtain ⟨vs, -, hsame, hpart⟩ :=
    Keyed.runChecks_canonical (d := pairDocument) (keyed_ofList _) rfl hanswers
  have hrun := hsame ["a", "b"] (fun _ => Iff.rfl) {}
  obtain ⟨-, hvs⟩ := (runChecks_yields_iff rfl).mp hrun
  rw [List.mergeSort_of_pairwise (by decide +kernel)] at hvs
  refine ⟨vs, ?_, hrun, hsame _ (by simp) {}, hpart _ (by simp) {}⟩
  rw [hvs]
  decide +kernel

end Catalog
end LintRepair
