import FormulaLayout.Proofs.Hierarchy.Passable

/-! The tolerant pass as a whole. It holds what was found, placements and failures apart, each once
and in the order of the tree. What it says about a component and all below it is the pass over that
component alone. -/
namespace FormulaLayout.Hierarchy
open Relation

def placement? : Finding → Option (Handle × PixelRect)
  | (c, .ok rect) => some (c, rect)
  | (_, .error _) => none

def failure? : Finding → Option (Handle × Undefined)
  | (_, .ok _) => none
  | (c, .error reason) => some (c, reason)

theorem placement?_eq_some_iff {finding : Finding} {c : Handle} {rect : PixelRect} :
    placement? finding = some (c, rect) ↔ finding = (c, .ok rect) := by
  obtain ⟨d, outcome⟩ := finding
  cases outcome <;> simp [placement?]

theorem failure?_eq_some_iff {finding : Finding} {c : Handle} {reason : Undefined} :
    failure? finding = some (c, reason) ↔ finding = (c, .error reason) := by
  obtain ⟨d, outcome⟩ := finding
  cases outcome <;> simp [failure?]

theorem keys_filterMap_sublist {ν μ : Type} {pick : Handle × ν → Option (Handle × μ)}
    (same : ∀ entry entry', pick entry = some entry' → entry'.1 = entry.1)
    (entries : List (Handle × ν)) :
    ((entries.filterMap pick).map Prod.fst).Sublist (entries.map Prod.fst) := by
  induction entries with
  | nil => exact .slnil
  | cons entry rest ih =>
    cases picked : pick entry with
    | none =>
      rw [List.filterMap_cons_none picked]
      exact ih.cons _
    | some entry' =>
      rw [List.filterMap_cons_some picked, List.map_cons, List.map_cons, same entry entry' picked]
      exact ih.cons_cons _

theorem key_placement? (finding : Finding) (entry : Handle × PixelRect)
    (picked : placement? finding = some entry) : entry.1 = finding.1 := by
  rw [placement?_eq_some_iff.mp picked]

theorem key_failure? (finding : Finding) (entry : Handle × Undefined)
    (picked : failure? finding = some entry) : entry.1 = finding.1 := by
  rw [failure?_eq_some_iff.mp picked]

structure Noted (h : Hierarchy) (found : List Finding) (pass : LayoutPass) : Prop where
  rects : pass.rects.entries = found.filterMap placement?
  failures : pass.failures.entries = found.filterMap failure?
  records : pass.records =
    pass.failures.entries.map fun failure => .unresolved (h.label failure.1) failure.2

variable {h : Hierarchy}

section Noted
variable {found : List Finding} {pass : LayoutPass}

theorem Noted.keys_rects (noted : h.Noted found pass) :
    pass.rects.keys.Sublist (found.map Prod.fst) := by
  rw [OrderedMap.keys, noted.rects]
  exact keys_filterMap_sublist key_placement? found

theorem Noted.keys_failures (noted : h.Noted found pass) :
    pass.failures.keys.Sublist (found.map Prod.fst) := by
  rw [OrderedMap.keys, noted.failures]
  exact keys_filterMap_sublist key_failure? found

theorem Noted.note (noted : h.Noted found pass) {finding : Finding}
    (fresh : finding.1 ∉ found.map Prod.fst) :
    h.Noted (found ++ [finding]) (h.note pass finding) := by
  obtain ⟨c, outcome⟩ := finding
  cases outcome with
  | ok rect =>
    have new : c ∉ pass.rects.keys := mt (noted.keys_rects.subset ·) fresh
    constructor
    · rw [List.filterMap_append, ← noted.rects]
      exact OrderedMap.entries_insert_of_not_mem new rect
    · rw [List.filterMap_append, ← noted.failures]
      exact (List.append_nil _).symm
    · exact noted.records
  | error reason =>
    have new : c ∉ pass.failures.keys := mt (noted.keys_failures.subset ·) fresh
    have added := OrderedMap.entries_insert_of_not_mem new reason
    constructor
    · rw [List.filterMap_append, ← noted.rects]
      exact (List.append_nil _).symm
    · rw [List.filterMap_append, ← noted.failures]
      exact added
    · simp only [Hierarchy.note, fail, added, noted.records, List.map_append, List.map_cons,
        List.map_nil]

theorem Noted.foldl (noted : h.Noted found pass) {more : List Finding}
    (distinct : ((found ++ more).map Prod.fst).Nodup) :
    h.Noted (found ++ more) (more.foldl h.note pass) := by
  induction more generalizing found pass with
  | nil => rwa [List.append_nil]
  | cons finding more ih =>
    -- the head joins what is noted already
    rw [List.append_cons] at distinct ⊢
    refine ih (noted.note ?_) distinct
    rw [List.map_append, List.map_append, List.append_assoc] at distinct
    exact fun listed => (List.nodup_append.mp distinct).2.2 _ listed _ List.mem_cons_self rfl

theorem noted_start (h : Hierarchy) (root : Handle) (canvas : PixelRect) :
    h.Noted [(root, .ok canvas)] (.start root canvas) :=
  ⟨rfl, rfl, rfl⟩

theorem Noted.rectOf?_iff (noted : h.Noted found pass) {c : Handle} {rect : PixelRect} :
    pass.rectOf? c = some rect ↔ (c, .ok rect) ∈ found := by
  rw [LayoutPass.rectOf?, ← OrderedMap.mem_entries_iff, noted.rects, List.mem_filterMap]
  simp only [placement?_eq_some_iff, exists_eq_right]

end Noted

structure Survey (h : Hierarchy) (root : Handle) (canvas : PixelRect) (found : List Finding)
    (pass : LayoutPass) : Prop where
  walks : h.Walks (h.children root) canvas found
  done : h.layout root canvas false = .ok pass
  noted : h.Noted ((root, .ok canvas) :: found) pass
  order : ∃ order, h.PreOrder [root] order ∧ order.Nodup ∧
    (((root, .ok canvas) :: found).map Prod.fst).Sublist order

theorem Forest.survey (forest : Forest h) {root : Handle} (declared : h.Declared root)
    {canvas : PixelRect} (passable : h.Passable root canvas) {found : List Finding}
    (walks : h.Walks (h.children root) canvas found) :
    ∃ pass, Survey h root canvas found pass := by
  obtain ⟨below, preOrder⟩ := forest.acyclic.exists_preOrder (h.children root)
  have whole : h.PreOrder [root] (root :: below ++ []) := preOrder.cons .nil
  have alone : h.Separate [root] := by
    refine ⟨List.nodup_singleton root, ?_⟩
    intro c listed d listed' x _ _
    rw [List.mem_singleton.mp listed, List.mem_singleton.mp listed']
  have distinct := whole.nodup forest alone
  have keys : (((root, .ok canvas) :: found : List Finding).map Prod.fst).Sublist
      (root :: below ++ []) := by
    rw [List.append_nil]
    exact (walks.keys_sublist preOrder).cons_cons root
  have noted := (noted_start h root canvas).foldl (distinct.sublist keys)
  exact ⟨_, walks, walks.tolerant (forest.acyclic.shallow declared) passable _, noted, _, whole,
    distinct, keys⟩

theorem Acyclic.layout_blocked (acyclic : h.Acyclic) {root : Handle} (declared : h.Declared root)
    {canvas : PixelRect} (blocked : ¬h.Passable root canvas) (strict : Bool) :
    ∃ reason, (strict = false → reason.caught = false) ∧
      h.layout root canvas strict = .error (.failure reason) := by
  obtain ⟨found, walks⟩ := acyclic.exists_walks (h.children root) canvas
  exact walks.blocked strict (acyclic.shallow declared) blocked _

theorem Acyclic.exists_pass_iff (acyclic : h.Acyclic) {root : Handle} (declared : h.Declared root)
    (canvas : PixelRect) :
    (∃ pass, h.layout root canvas false = .ok pass) ↔ h.Passable root canvas := by
  constructor
  · rintro ⟨pass, done⟩
    by_contra blocked
    obtain ⟨reason, -, failed⟩ := acyclic.layout_blocked declared blocked false
    cases done.symm.trans failed
  · intro passable
    obtain ⟨found, walks⟩ := acyclic.exists_walks (h.children root) canvas
    exact ⟨_, walks.tolerant (acyclic.shallow declared) passable _⟩

theorem Forest.exists_survey (forest : Forest h) {root : Handle} (declared : h.Declared root)
    {canvas : PixelRect} {pass : LayoutPass} (done : h.layout root canvas false = .ok pass) :
    ∃ found, Survey h root canvas found pass := by
  have passable := (forest.acyclic.exists_pass_iff declared canvas).mp ⟨pass, done⟩
  obtain ⟨found, walks⟩ := forest.acyclic.exists_walks (h.children root) canvas
  obtain ⟨pass', survey⟩ := forest.survey declared passable walks
  obtain rfl : pass = pass' := Except.ok.inj (done.symm.trans survey.done)
  exact ⟨found, survey⟩

namespace Survey
variable {root : Handle} {canvas : PixelRect} {found : List Finding} {pass : LayoutPass}

theorem rectOf?_iff_laid (survey : Survey h root canvas found pass) (c : Handle)
    (rect : PixelRect) :
    pass.rectOf? c = some rect ↔ h.Laid (root, canvas) (c, rect) := by
  rw [survey.noted.rectOf?_iff, List.mem_cons, survey.walks.mem_iff]
  refine Iff.trans ?_ (ReflTransGen.cases_tail_iff ..).symm
  exact or_congr (by simp only [Prod.mk.injEq, Except.ok.injEq]) Iff.rfl

theorem within (survey : Survey h root canvas found pass) {c : Handle} {rect : PixelRect}
    (placed : pass.rectOf? c = some rect) (inner : c ≠ root) :
    ∃ p outer, c ∈ h.children p ∧ pass.rectOf? p = some outer ∧ h.Visible c ∧
      h.resolve c outer = .ok rect := by
  obtain same | ⟨⟨p, outer⟩, laid, child, visible, resolved⟩ :=
    (ReflTransGen.cases_tail_iff ..).mp ((survey.rectOf?_iff_laid c rect).mp placed)
  · cases same
    exact absurd rfl inner
  · exact ⟨p, outer, child, (survey.rectOf?_iff_laid p outer).mpr laid, visible, resolved⟩

theorem declared (survey : Survey h root canvas found pass) (declared : h.Declared root)
    {q : Handle} {rect : PixelRect} (placed : pass.rectOf? q = some rect) : h.Declared q := by
  by_cases same : q = root
  · rwa [same]
  · obtain ⟨p, outer, -, -, visible, -⟩ := survey.within placed same
    unfold Visible at visible
    unfold Declared
    cases found : h.get? q with
    | none => simp [found] at visible
    | some component => rfl

theorem branch (survey : Survey h root canvas found pass) (forest : Forest h) {q : Handle}
    {rect : PixelRect} (placed : pass.rectOf? q = some rect) :
    ∃ below, h.Walks (h.children q) rect below ∧
      h.Branch q ((root, .ok canvas) :: found) ((q, .ok rect) :: below) := by
  obtain same | listed := List.mem_cons.mp (survey.noted.rectOf?_iff.mp placed)
  · cases same
    refine ⟨found, survey.walks, [], [], by simp, fun finding listed => ?_, by simp⟩
    obtain rfl | below := List.mem_cons.mp listed
    · exact .refl
    · obtain ⟨c, child, down⟩ := survey.walks.descends below
      exact down.head child
  · obtain ⟨below, walks, branch⟩ :=
      survey.walks.branch forest (forest.separate_children root) listed
    obtain ⟨c, child, down⟩ := survey.walks.descends listed
    exact ⟨below, walks, branch.cons fun fromQ =>
      forest.acyclic root (TransGen.head' child (down.trans fromQ))⟩

end Survey

theorem Forest.rectOf?_iff_laid (forest : Forest h) {root : Handle} (declared : h.Declared root)
    {canvas : PixelRect} {pass : LayoutPass} (done : h.layout root canvas false = .ok pass)
    (c : Handle) (rect : PixelRect) :
    pass.rectOf? c = some rect ↔ h.Laid (root, canvas) (c, rect) := by
  obtain ⟨found, survey⟩ := forest.exists_survey declared done
  exact survey.rectOf?_iff_laid c rect

end FormulaLayout.Hierarchy
