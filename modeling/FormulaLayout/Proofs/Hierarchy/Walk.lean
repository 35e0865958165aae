import FormulaLayout.Hierarchy.Layout
import FormulaLayout.Proofs.Hierarchy.Forest

/-! What there is to find below a panel: each visible component that a pass gets to, with a rectangle
or the reason why there is none, in the order in which it gets there. The findings are described
without a depth. A tolerant pass notes them one by one up to the first failure that it does not
catch, a strict one up to the first failure of all. They can also be told from above, by a chain of
components each of which was placed within the one before. -/
namespace FormulaLayout.Hierarchy
open Relation

def Visible (h : Hierarchy) (c : Handle) : Prop := (h.get? c).any (·.visible) = true

instance (h : Hierarchy) (c : Handle) : Decidable (h.Visible c) :=
  inferInstanceAs (Decidable (_ = true))

abbrev Finding := Handle × Except Undefined PixelRect

/-- A tolerant pass goes on behind this finding. -/
def Finding.Caught (finding : Finding) : Prop :=
  ∀ reason, finding.2 = .error reason → reason.caught = true

/-- Nothing is found below a component that is hidden or has no rectangle. -/
inductive Walks (h : Hierarchy) : List Handle → PixelRect → List Finding → Prop
  | done {outer : PixelRect} : Walks h [] outer []
  | hidden {c : Handle} {siblings : List Handle} {outer : PixelRect} {found : List Finding}
      (unseen : ¬h.Visible c) (rest : Walks h siblings outer found) :
      Walks h (c :: siblings) outer found
  | failed {c : Handle} {siblings : List Handle} {outer : PixelRect} {found : List Finding}
      {reason : Undefined} (visible : h.Visible c) (undefined : h.resolve c outer = .error reason)
      (rest : Walks h siblings outer found) :
      Walks h (c :: siblings) outer ((c, .error reason) :: found)
  | placed {c : Handle} {siblings : List Handle} {outer rect : PixelRect}
      {below found : List Finding} (visible : h.Visible c) (resolved : h.resolve c outer = .ok rect)
      (first : Walks h (h.children c) rect below) (rest : Walks h siblings outer found) :
      Walks h (c :: siblings) outer ((c, .ok rect) :: below ++ found)

variable {h : Hierarchy}

theorem declared_of_visible {c : Handle} (visible : h.Visible c) : h.Declared c := by
  unfold Visible at visible
  unfold Declared
  cases found : h.get? c with
  | none => simp [found] at visible
  | some component => rfl

theorem Acyclic.exists_walks (acyclic : h.Acyclic) (siblings : List Handle) (outer : PixelRect) :
    ∃ found, h.Walks siblings outer found := by
  refine Acyclic.induction (P := fun siblings => ∀ outer, ∃ found, h.Walks siblings outer found)
    (fun _ => ⟨[], .done⟩) ?_ acyclic siblings outer
  intro c siblings first rest outer
  obtain ⟨found, walks⟩ := rest outer
  by_cases visible : h.Visible c
  · cases outcome : h.resolve c outer with
    | error reason => exact ⟨_, .failed visible outcome walks⟩
    | ok rect =>
      obtain ⟨below, within⟩ := first rect
      exact ⟨_, .placed visible outcome within walks⟩
  · exact ⟨found, .hidden visible walks⟩

section Pass

def visit (h : Hierarchy) (strict : Bool) (depth : Nat) (outer : PixelRect) (pass : LayoutPass)
    (c : Handle) : Except Interruption LayoutPass :=
  if h.Visible c then
    match h.resolve c outer with
    | .error reason =>
      if strict ∨ reason.caught = false then .error (.failure reason)
      else .ok (h.fail pass c reason)
    | .ok rect =>
      let pass := { pass with rects := pass.rects.insert c rect }
      if h.IsPanel c then h.layoutChildren strict depth c rect pass else .ok pass
  else .ok pass

theorem layoutChildren_succ (h : Hierarchy) (strict : Bool) (depth : Nat) (p : Handle)
    (outer : PixelRect) (pass : LayoutPass) :
    h.layoutChildren strict (depth + 1) p outer pass =
      (h.children p).foldlM (h.visit strict depth outer) pass := by
  rw [layoutChildren]
  congr 1
  funext pass c
  cases found : h.get? c with
  | none =>
    have unseen : ¬h.Visible c := by simp [Visible, found]
    rw [visit, if_neg unseen]
  | some child =>
    have visible : h.Visible c ↔ child.visible = true := by simp [Visible, found]
    have panel : h.IsPanel c ↔ child.contents.isSome = true := by simp [IsPanel, contents?, found]
    cases outcome : h.resolve c outer with
    | error reason => simp only [visit, visible, outcome]
    | ok rect => simp only [visit, visible, panel, outcome]

def note (h : Hierarchy) (pass : LayoutPass) : Finding → LayoutPass
  | (c, .ok rect) => { pass with rects := pass.rects.insert c rect }
  | (c, .error reason) => h.fail pass c reason

def heed (h : Hierarchy) (strict : Bool) (pass : LayoutPass) :
    Finding → Except Interruption LayoutPass
  | (c, .ok rect) => .ok (h.note pass (c, .ok rect))
  | (c, .error reason) =>
    if strict ∨ reason.caught = false then .error (.failure reason)
    else .ok (h.note pass (c, .error reason))

theorem heed_tolerant {finding : Finding} (caught : finding.Caught) (pass : LayoutPass) :
    h.heed false pass finding = .ok (h.note pass finding) := by
  obtain ⟨c, reason | rect⟩ := finding
  · simp [heed, caught reason rfl]
  · rfl

theorem foldlM_heed_tolerant {found : List Finding} (caught : ∀ finding ∈ found, finding.Caught)
    (pass : LayoutPass) : found.foldlM (h.heed false) pass = .ok (found.foldl h.note pass) := by
  induction found generalizing pass with
  | nil => rfl
  | cons finding found ih =>
    rw [List.foldlM_cons, heed_tolerant (caught finding List.mem_cons_self)]
    exact ih (fun later listed => caught later (List.mem_cons_of_mem _ listed)) _

theorem foldlM_heed_uncaught (strict : Bool) {found : List Finding}
    (uncaught : ∃ finding ∈ found, ¬finding.Caught) (pass : LayoutPass) :
    ∃ reason, (strict = false → reason.caught = false) ∧
      found.foldlM (h.heed strict) pass = .error (.failure reason) := by
  induction found generalizing pass with
  | nil => simp at uncaught
  | cons finding found ih =>
    rw [List.foldlM_cons]
    obtain ⟨c, reason | rect⟩ := finding
    · by_cases ends : strict ∨ reason.caught = false
      · refine ⟨reason, fun tolerant => ends.resolve_left (by simp [tolerant]), ?_⟩
        rw [heed, if_pos ends]
        rfl
      · rw [heed, if_neg ends]
        rw [not_or, Bool.not_eq_false] at ends
        refine ih ((List.exists_mem_cons_iff ..).mp uncaught |>.resolve_left ?_) _
        exact not_not.mpr fun reason' same => Except.error.inj same ▸ ends.2
    · refine ih ((List.exists_mem_cons_iff ..).mp uncaught |>.resolve_left ?_) _
      exact not_not.mpr fun reason same => nomatch same

theorem Walks.foldlM_visit {siblings : List Handle} {outer : PixelRect} {found : List Finding}
    (walks : h.Walks siblings outer found) (strict : Bool) {depth : Nat}
    (within : ∀ c ∈ siblings, h.IsPanel c → h.Shallow depth c) (pass : LayoutPass) :
    siblings.foldlM (h.visit strict depth outer) pass = found.foldlM (h.heed strict) pass := by
  induction walks generalizing depth pass with
  | done => rfl
  | hidden unseen _ ih =>
    rw [List.foldlM_cons, visit, if_neg unseen]
    exact ih (fun d listed => within d (List.mem_cons_of_mem _ listed)) pass
  | failed visible undefined _ ih =>
    rw [List.foldlM_cons, List.foldlM_cons, visit, if_pos visible, undefined, heed]
    dsimp only
    split
    · rfl
    · exact ih (fun d listed => within d (List.mem_cons_of_mem _ listed)) _
  | @placed c siblings outer rect below found visible resolved first _ ihFirst ihRest =>
    have entered : h.visit strict depth outer pass c =
        below.foldlM (h.heed strict) (h.note pass (c, .ok rect)) := by
      rw [visit, if_pos visible, resolved]
      by_cases panel : h.IsPanel c
      · have shallow := within c List.mem_cons_self panel
        cases depth with
        | zero => cases shallow
        | succ depth =>
          dsimp only
          rw [if_pos panel, layoutChildren_succ]
          exact ihFirst shallow _
      · -- the pass does not enter what is no panel, and nothing is to be found there
        rw [children_of_not_isPanel panel] at first
        cases first
        exact if_neg panel
    have others : siblings.foldlM (h.visit strict depth outer) = found.foldlM (h.heed strict) :=
      funext (ihRest fun d listed => within d (List.mem_cons_of_mem _ listed))
    calc
      (c :: siblings).foldlM (h.visit strict depth outer) pass =
          below.foldlM (h.heed strict) (h.note pass (c, .ok rect)) >>=
            found.foldlM (h.heed strict) := by
        rw [List.foldlM_cons, entered, others]
      _ = (below ++ found).foldlM (h.heed strict) (h.note pass (c, .ok rect)) :=
        List.foldlM_append.symm
      _ = ((c, .ok rect) :: below ++ found).foldlM (h.heed strict) pass := rfl

/-- The pass gets by with its depth and heeds what there is to find. -/
theorem Walks.layoutChildren {p : Handle} {outer : PixelRect} {found : List Finding}
    (walks : h.Walks (h.children p) outer found) (strict : Bool) {depth : Nat}
    (shallow : h.Shallow depth p) (pass : LayoutPass) :
    h.layoutChildren strict depth p outer pass = found.foldlM (h.heed strict) pass := by
  cases depth with
  | zero => cases shallow
  | succ depth =>
    rw [layoutChildren_succ]
    exact walks.foldlM_visit strict shallow pass

end Pass

section Membership

/-- The first place lists the component that was found, which is visible and was resolved there. -/
def Finds (h : Hierarchy) (place : Handle × PixelRect) (finding : Finding) : Prop :=
  finding.1 ∈ h.children place.1 ∧ h.Visible finding.1 ∧
    h.resolve finding.1 place.2 = finding.2

def Places (h : Hierarchy) (place inner : Handle × PixelRect) : Prop :=
  h.Finds place (inner.1, .ok inner.2)

/-- Where components are placed once the first one is, at any depth. -/
abbrev Laid (h : Hierarchy) (place inner : Handle × PixelRect) : Prop :=
  ReflTransGen h.Places place inner

theorem Laid.descends {place inner : Handle × PixelRect} (laid : h.Laid place inner) :
    h.Descends place.1 inner.1 :=
  laid.lift Prod.fst fun _ _ step => step.1

def FindsAmong (h : Hierarchy) (siblings : List Handle) (outer : PixelRect) (finding : Finding) :
    Prop :=
  ∃ c ∈ siblings, h.Visible c ∧ (finding = (c, h.resolve c outer) ∨
    ∃ rect, h.resolve c outer = .ok rect ∧ ∃ place, h.Laid (c, rect) place ∧ h.Finds place finding)

theorem findsAmong_children_iff (p : Handle) (outer : PixelRect) (finding : Finding) :
    h.FindsAmong (h.children p) outer finding ↔
      ∃ place, h.Laid (p, outer) place ∧ h.Finds place finding := by
  constructor
  · rintro ⟨c, child, visible, rfl | ⟨rect, resolved, place, laid, finds⟩⟩
    · exact ⟨(p, outer), .refl, child, visible, rfl⟩
    · exact ⟨place, .head ⟨child, visible, resolved⟩ laid, finds⟩
  · rintro ⟨place, laid, finds⟩
    obtain rfl | ⟨⟨c, rect⟩, ⟨child, visible, resolved⟩, laid⟩ := ReflTransGen.cases_head laid
    · obtain ⟨child, visible, outcome⟩ := finds
      exact ⟨finding.1, child, visible, .inl (Prod.ext rfl outcome.symm)⟩
    · exact ⟨c, child, visible, .inr ⟨rect, resolved, place, laid, finds⟩⟩

theorem Walks.mem_iff_findsAmong {siblings : List Handle} {outer : PixelRect}
    {found : List Finding} (walks : h.Walks siblings outer found) (finding : Finding) :
    finding ∈ found ↔ h.FindsAmong siblings outer finding := by
  have split : ∀ {c siblings outer}, h.FindsAmong (c :: siblings) outer finding ↔
      (h.Visible c ∧ (finding = (c, h.resolve c outer) ∨ ∃ rect, h.resolve c outer = .ok rect ∧
        h.FindsAmong (h.children c) rect finding)) ∨ h.FindsAmong siblings outer finding := by
    intro c siblings outer
    simp only [findsAmong_children_iff]
    simp only [FindsAmong, List.mem_cons, exists_eq_or_imp]
  induction walks with
  | done => simp [FindsAmong]
  | hidden unseen _ ih => simp [split, unseen, ih]
  | failed visible undefined _ ih => simp [split, visible, undefined, ih]
  | placed visible resolved _ _ ihFirst ihRest =>
    simp [split, visible, resolved, ihFirst, ihRest, or_assoc]

theorem Walks.mem_iff {p : Handle} {outer : PixelRect} {found : List Finding}
    (walks : h.Walks (h.children p) outer found) (finding : Finding) :
    finding ∈ found ↔ ∃ place, h.Laid (p, outer) place ∧ h.Finds place finding := by
  rw [walks.mem_iff_findsAmong, findsAmong_children_iff]

/-- Wherever a pass gets to, it goes on. -/
def Passable (h : Hierarchy) (root : Handle) (canvas : PixelRect) : Prop :=
  ∀ place, h.Laid (root, canvas) place → ∀ finding, h.Finds place finding → finding.Caught

theorem Passable.below {root : Handle} {canvas : PixelRect} (passable : h.Passable root canvas)
    {place : Handle × PixelRect} (laid : h.Laid (root, canvas) place) :
    h.Passable place.1 place.2 :=
  fun inner down => passable inner (laid.trans down)

theorem Walks.caught_iff {p : Handle} {outer : PixelRect} {found : List Finding}
    (walks : h.Walks (h.children p) outer found) :
    (∀ finding ∈ found, finding.Caught) ↔ h.Passable p outer := by
  simp only [walks.mem_iff]
  exact ⟨fun all place laid finding finds => all finding ⟨place, laid, finds⟩,
    fun passable finding ⟨place, laid, finds⟩ => passable place laid finding finds⟩

theorem Walks.tolerant {p : Handle} {outer : PixelRect} {found : List Finding}
    (walks : h.Walks (h.children p) outer found) {depth : Nat} (shallow : h.Shallow depth p)
    (passable : h.Passable p outer) (pass : LayoutPass) :
    h.layoutChildren false depth p outer pass = .ok (found.foldl h.note pass) :=
  (walks.layoutChildren false shallow pass).trans
    (foldlM_heed_tolerant (walks.caught_iff.mpr passable) pass)

theorem Walks.blocked {p : Handle} {outer : PixelRect} {found : List Finding}
    (walks : h.Walks (h.children p) outer found) (strict : Bool) {depth : Nat}
    (shallow : h.Shallow depth p) (blocked : ¬h.Passable p outer) (pass : LayoutPass) :
    ∃ reason, (strict = false → reason.caught = false) ∧
      h.layoutChildren strict depth p outer pass = .error (.failure reason) := by
  have uncaught : ∃ finding ∈ found, ¬finding.Caught := by
    by_contra! all
    exact blocked (walks.caught_iff.mp all)
  rw [walks.layoutChildren strict shallow]
  exact foldlM_heed_uncaught strict uncaught pass

theorem Walks.descends {siblings : List Handle} {outer : PixelRect} {found : List Finding}
    (walks : h.Walks siblings outer found) {finding : Finding} (listed : finding ∈ found) :
    ∃ c ∈ siblings, h.Descends c finding.1 := by
  obtain ⟨c, sibling, -, rfl | ⟨rect, -, place, laid, finds⟩⟩ :=
    (walks.mem_iff_findsAmong finding).mp listed
  · exact ⟨c, sibling, .refl⟩
  · exact ⟨c, sibling, laid.descends.tail finds.1⟩

end Membership

section Order

theorem Walks.keys_sublist {siblings order : List Handle} {outer : PixelRect}
    {found : List Finding} (walks : h.Walks siblings outer found)
    (preOrder : h.PreOrder siblings order) : (found.map Prod.fst).Sublist order := by
  induction walks generalizing order with
  | done => exact List.nil_sublist order
  | hidden unseen _ ih =>
    cases preOrder with
    | cons first rest => exact ((ih rest).trans (List.sublist_append_right ..)).cons _
  | failed visible undefined _ ih =>
    cases preOrder with
    | cons first rest => exact ((ih rest).trans (List.sublist_append_right ..)).cons_cons _
  | placed visible resolved _ _ ihFirst ihRest =>
    cases preOrder with
    | cons first rest =>
      rw [List.cons_append, List.map_cons, List.map_append]
      exact ((ihFirst first).append (ihRest rest)).cons_cons _

/-- The part of a list that concerns a component and all below it, in one piece. -/
def Branch {ν : Type} (h : Hierarchy) (q : Handle) (entries part : List (Handle × ν)) : Prop :=
  ∃ before after, entries = before ++ part ++ after ∧ (∀ entry ∈ part, h.Descends q entry.1) ∧
    ∀ entry ∈ before ++ after, ¬h.Descends q entry.1

theorem Branch.filterMap {ν μ : Type} {q : Handle} {entries part : List (Handle × ν)}
    (branch : h.Branch q entries part) {pick : Handle × ν → Option (Handle × μ)}
    (same : ∀ entry entry', pick entry = some entry' → entry'.1 = entry.1) :
    h.Branch q (entries.filterMap pick) (part.filterMap pick) := by
  obtain ⟨before, after, rfl, inside, outside⟩ := branch
  refine ⟨before.filterMap pick, after.filterMap pick, ?_, fun entry' listed => ?_,
    fun entry' listed => ?_⟩
  · rw [List.filterMap_append, List.filterMap_append]
  · obtain ⟨entry, before, picked⟩ := List.mem_filterMap.mp listed
    rw [same entry entry' picked]
    exact inside entry before
  · rw [← List.filterMap_append] at listed
    obtain ⟨entry, before, picked⟩ := List.mem_filterMap.mp listed
    rw [same entry entry' picked]
    exact outside entry before

theorem Branch.prepend {ν : Type} {q : Handle} {entries part front : List (Handle × ν)}
    (branch : h.Branch q entries part) (ahead : ∀ entry ∈ front, ¬h.Descends q entry.1) :
    h.Branch q (front ++ entries) part := by
  obtain ⟨before, after, rfl, inside, outside⟩ := branch
  refine ⟨front ++ before, after, by simp only [List.append_assoc], inside, fun entry listed => ?_⟩
  rw [List.append_assoc] at listed
  exact (List.mem_append.mp listed).elim (ahead entry) (outside entry)

theorem Branch.cons {ν : Type} {q : Handle} {entry : Handle × ν} {entries part : List (Handle × ν)}
    (branch : h.Branch q entries part) (ahead : ¬h.Descends q entry.1) :
    h.Branch q (entry :: entries) part := by
  have only : ∀ first ∈ [entry], ¬h.Descends q first.1 := fun first listed => by
    rwa [List.mem_singleton.mp listed]
  exact branch.prepend only

theorem Branch.append {ν : Type} {q : Handle} {entries part back : List (Handle × ν)}
    (branch : h.Branch q entries part) (behind : ∀ entry ∈ back, ¬h.Descends q entry.1) :
    h.Branch q (entries ++ back) part := by
  obtain ⟨before, after, rfl, inside, outside⟩ := branch
  refine ⟨before, after ++ back, by simp only [List.append_assoc], inside, fun entry listed => ?_⟩
  rw [← List.append_assoc] at listed
  exact (List.mem_append.mp listed).elim (outside entry) (behind entry)

/-- What is found below a placed component stands together, and is what is found there alone. -/
theorem Walks.branch (forest : Forest h) {siblings : List Handle} {outer : PixelRect}
    {found : List Finding} (walks : h.Walks siblings outer found)
    (separate : h.Separate siblings) {q : Handle} {rect : PixelRect}
    (listed : (q, .ok rect) ∈ found) :
    ∃ below, h.Walks (h.children q) rect below ∧
      h.Branch q found ((q, .ok rect) :: below) := by
  induction walks with
  | done => cases listed
  | hidden _ _ ih => exact ih separate.tail listed
  | @failed c siblings outer found reason visible undefined rest ih =>
    obtain same | later := List.mem_cons.mp listed
    · cases same
    · obtain ⟨below, walks, branch⟩ := ih separate.tail later
      obtain ⟨d, sibling, down⟩ := rest.descends later
      exact ⟨below, walks, branch.cons fun fromQ =>
        separate.foreign sibling .refl (down.trans fromQ)⟩
  | @placed c siblings outer place inner found visible resolved first rest ihFirst ihRest =>
    have under : ∀ entry ∈ ((c, .ok place) :: inner : List Finding), h.Descends c entry.1 := by
      intro entry here
      obtain rfl | deeper := List.mem_cons.mp here
      · exact .refl
      · obtain ⟨d, child, down⟩ := first.descends deeper
        exact down.head child
    have beside : ∀ {q}, h.Descends c q → ∀ entry ∈ found, ¬h.Descends q entry.1 := by
      intro q fromC entry later fromQ
      obtain ⟨d, sibling, down⟩ := rest.descends later
      exact separate.foreign sibling (fromC.trans fromQ) down
    obtain here | later := List.mem_append.mp listed
    · obtain same | deeper := List.mem_cons.mp here
      · -- the first component itself, with all that was found below it
        cases same
        refine ⟨inner, first, [], found, rfl, under, ?_⟩
        exact beside .refl
      · -- something below the first component, which the others have no part in
        obtain ⟨below, walks, branch⟩ := ihFirst (forest.separate_children c) deeper
        obtain ⟨d, child, down⟩ := first.descends deeper
        have outside : ¬h.Descends q c := fun fromQ =>
          forest.acyclic c (TransGen.head' child (down.trans fromQ))
        exact ⟨below, walks, (branch.cons outside).append (beside (down.head child))⟩
    · obtain ⟨below, walks, branch⟩ := ihRest separate.tail later
      obtain ⟨d, sibling, down⟩ := rest.descends later
      exact ⟨below, walks, branch.prepend fun entry here fromQ =>
        separate.foreign sibling (under entry here) (down.trans fromQ)⟩

end Order

end FormulaLayout.Hierarchy
