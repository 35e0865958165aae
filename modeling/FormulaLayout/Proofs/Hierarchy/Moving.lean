import FormulaLayout.Proofs.Hierarchy.Adding

/-! How one component moves. It gives up its place, unless another one has it, and takes its place
in the new panel: last among the gridded or the free children, or where the one stood whose cell it
takes. Its parent changes and no other, and panels it neither leaves nor enters list the same
children in the same order. The order of the gridded children is that of the cells, so a move comes
down to what a removal and an insertion do to an ordered map. -/
namespace FormulaLayout

def handles (cells : OrderedMap Cell (Occupant Tenant)) : List Handle :=
  cells.values.filterMap held?

section Handles
variable {cells : OrderedMap Cell (Occupant Tenant)} {cell : Cell} {c d : Handle}

theorem mem_handles_iff :
    c ∈ handles cells ↔ ∃ cell, cells.get? cell = some (.child (.component c)) := by
  simp [handles, OrderedMap.values, ← OrderedMap.mem_entries_iff]

theorem exists_split {occupant : Occupant Tenant} (taken : cells.get? cell = some occupant) :
    ∃ before after, cells.entries = before ++ (cell, occupant) :: after :=
  List.append_of_mem ((OrderedMap.mem_entries_iff ..).mpr taken)

theorem handles_of_entries {before after : List (Cell × Occupant Tenant)}
    (split : cells.entries = before ++ (cell, .child (.component c)) :: after) :
    handles cells = before.filterMap (held? ·.2) ++ c :: after.filterMap (held? ·.2) := by
  simp [handles, OrderedMap.values, split, held?, Occupant.child?, Tenant.handle?,
    Function.comp_def]

theorem handles_insert_vacant (vacant : cells.get? cell = none) (c : Handle) :
    handles (cells.insert cell (.child (.component c))) = handles cells ++ [c] := by
  have fresh : cell ∉ cells.keys := by
    rw [← OrderedMap.contains_iff_mem_keys, OrderedMap.contains, vacant]
    exact Bool.false_ne_true
  simp [handles, OrderedMap.values, OrderedMap.entries_insert_of_not_mem fresh, held?,
    Occupant.child?, Tenant.handle?]

variable (distinct : (handles cells).Nodup)
include distinct

theorem handles_insert_taken (taken : cells.get? cell = some (.child (.component d)))
    (c : Handle) :
    handles (cells.insert cell (.child (.component c))) = (handles cells).replace d c := by
  obtain ⟨before, after, split⟩ := exists_split taken
  rw [handles_of_entries split] at distinct ⊢
  rw [handles_of_entries (OrderedMap.entries_insert_of_split split _),
    List.replace_append_right, List.replace_cons_self]
  exact fun early => List.disjoint_of_nodup_append distinct early List.mem_cons_self

theorem handles_erase (held : cells.get? cell = some (.child (.component c))) :
    handles (cells.erase cell) = (handles cells).erase c := by
  obtain ⟨before, after, split⟩ := exists_split held
  have left : handles (cells.erase cell) =
      before.filterMap (held? ·.2) ++ after.filterMap (held? ·.2) := by
    simp [handles, OrderedMap.values, OrderedMap.entries_erase_of_split split]
  rw [handles_of_entries split] at distinct ⊢
  rw [left, List.erase_append_right, List.erase_cons_head]
  exact fun early => List.disjoint_of_nodup_append distinct early List.mem_cons_self

end Handles

namespace Hierarchy

def gridded (h : Hierarchy) (p : Handle) : List Handle := handles (h.cells p)

section Sections
variable {h : Hierarchy}

theorem children_eq_sections (h : Hierarchy) (p : Handle) :
    h.children p = h.gridded p ++ h.freeChildren p := by
  unfold children gridded cells freeChildren grid?
  cases h.contents? p with
  | none => rfl
  | some contents =>
    simp only [Option.map_some, Option.getD_some, Contents.children, Grid.children, handles,
      List.filterMap_filterMap]
    rfl

theorem mem_gridded (h : Hierarchy) (p c : Handle) :
    c ∈ h.gridded p ↔ ∃ cell, h.occupant? p cell = some (.child (.component c)) := by
  simp only [gridded, mem_handles_iff, get?_cells]

theorem Consistent.nodup_sections (consistent : Consistent h) (p : Handle) :
    (h.gridded p ++ h.freeChildren p).Nodup :=
  children_eq_sections h p ▸ consistent.nodup_children p

theorem Consistent.seat_of_gridded (consistent : Consistent h) {p c : Handle}
    (listed : c ∈ h.gridded p) :
    ∃ cell, h.parent? c = some p ∧ h.cell? c = some cell ∧ h.holds p cell c = true := by
  obtain ⟨cell, held⟩ := (mem_gridded h p c).mp listed
  obtain ⟨own, seat⟩ := consistent.at_seat held
  exact ⟨cell, own, seat, (holds_iff ..).mpr held⟩

theorem Consistent.not_gridded_of_free (consistent : Consistent h) {c : Handle}
    (free : h.cell? c = none) (p : Handle) : c ∉ h.gridded p := by
  intro listed
  obtain ⟨cell, -, seat, -⟩ := consistent.seat_of_gridded listed
  rw [free] at seat
  cases seat

theorem Consistent.gridded_leave (consistent : Consistent h) (c p : Handle) :
    (h.leave c).gridded p = (h.gridded p).erase c := by
  have elsewhere : c ∉ h.gridded p → h.gridded p = (h.gridded p).erase c := fun away =>
    (List.erase_of_not_mem away).symm
  unfold leave
  split
  · next orphan =>
    refine elsewhere fun listed => ?_
    obtain ⟨cell, own, -, -⟩ := consistent.seat_of_gridded listed
    rw [orphan] at own
    cases own
  · next q own =>
    split
    · next cell seat =>
      split
      · next held =>
        rw [gridded, cells_removeFromGrid]
        split
        · next same =>
          subst same
          refine handles_erase (consistent.nodup_sections q).of_append_left ?_
          rw [get?_cells]
          exact (holds_iff ..).mp held
        · next other =>
          refine elsewhere fun listed => ?_
          obtain ⟨cell', own', -, -⟩ := consistent.seat_of_gridded listed
          rw [own] at own'
          exact other (Option.some.inj own')
      · next lost =>
        -- whoever has its cell is not touched
        refine elsewhere fun listed => lost ?_
        obtain ⟨cell', own', seat', held⟩ := consistent.seat_of_gridded listed
        rw [own] at own'
        rw [seat] at seat'
        cases own'
        cases seat'
        exact held
    · next free =>
      rw [gridded, cells_removeFree]
      exact elsewhere (consistent.not_gridded_of_free free p)

theorem Consistent.gridded_detach (consistent : Consistent h) (c p : Handle) :
    (h.detach c).gridded p = (h.gridded p).erase c := by
  rw [← consistent.gridded_leave, gridded, gridded, Hierarchy.detach, cells_modify]
  exact fun _ => rfl

theorem Consistent.children_detach (consistent : Consistent h) (c p : Handle) :
    (h.detach c).children p = (h.children p).erase c := by
  have distinct := consistent.nodup_sections p
  rw [children_eq_sections, children_eq_sections, consistent.gridded_detach,
    consistent.freeChildren_detach, distinct.erase_eq_filter, List.filter_append,
    distinct.of_append_left.erase_eq_filter, (consistent.distinct p).erase_eq_filter]

end Sections

section Enter
variable {h : Hierarchy} {c q : Handle}

theorem children_enter_of_ne (panel : h.IsPanel q) {p : Handle} (other : q ≠ p) :
    (h.enter c q).children p = h.children p := by
  unfold enter
  split
  · rw [children_eq_sections, gridded, cells_addToGrid panel, if_neg other,
      freeChildren_addToGrid, children_eq_sections, gridded]
  · rw [children_eq_sections, gridded, cells_addFree, freeChildren_addFree panel,
      if_neg fun both => other both.1, children_eq_sections, gridded]

theorem parent?_enter (declared : h.Declared c) (panel : h.IsPanel q) (d : Handle) :
    (h.enter c q).parent? d = if c = d then some q else h.parent? d := by
  unfold enter
  split
  · exact parent?_addToGrid declared panel _ d
  · exact parent?_addFree declared panel d

theorem cell?_enter (declared : h.Declared c) (panel : h.IsPanel q) (d : Handle) :
    (h.enter c q).cell? d = h.cell? d := by
  unfold enter
  split
  · next cell seat =>
    rw [cell?_addToGrid declared panel]
    split
    · next same => rw [← same, seat]
    · rfl
  · exact cell?_addFree d

theorem children_enter_free (panel : h.IsPanel q) (free : h.cell? c = none)
    (away : c ∉ h.freeChildren q) :
    (h.enter c q).children q = h.gridded q ++ (h.freeChildren q ++ [c]) := by
  simp only [enter, free]
  rw [children_eq_sections, gridded, cells_addFree, freeChildren_addFree panel,
    if_pos ⟨rfl, away⟩, gridded]

theorem children_enter_cell (panel : h.IsPanel q) {cell : Cell} (seat : h.cell? c = some cell) :
    (h.enter c q).children q =
      handles ((h.cells q).insert cell (.child (.component c))) ++ h.freeChildren q := by
  simp only [enter, seat]
  rw [children_eq_sections, gridded, cells_addToGrid panel, if_pos rfl,
    freeChildren_addToGrid]

end Enter

section Move
variable {h : Hierarchy} {c : Handle}

theorem mem_replace_of_ne {l : List Handle} {d e : Handle} (listed : d ∈ l) (other : d ≠ e)
    (c : Handle) : d ∈ l.replace e c := by
  obtain ⟨i, here⟩ := List.mem_iff_getElem?.mp listed
  refine List.mem_iff_getElem?.mpr ⟨i, ?_⟩
  rw [List.getElem?_replace, here, if_neg (by simpa using other)]

section Parents
variable {q : Option Handle} (declared : h.Declared c) (panel : ∀ p ∈ q, h.IsPanel p)
include declared panel

theorem parent?_setParent (d : Handle) :
    (h.setParent c q).parent? d = if c = d then q else h.parent? d := by
  cases q with
  | none => exact parent?_detach h c d
  | some q =>
    rw [setParent, parent?_enter ((declared_detach h c c).mpr declared)
      ((isPanel_detach h c q).mpr (panel q rfl)), parent?_detach]
    split <;> rfl

theorem cell?_setParent (d : Handle) : (h.setParent c q).cell? d = h.cell? d := by
  rw [← cell?_detach h c d]
  cases q with
  | none => rfl
  | some q =>
    exact cell?_enter ((declared_detach h c c).mpr declared)
      ((isPanel_detach h c q).mpr (panel q rfl)) d

end Parents

theorem Consistent.children_setParent_of_ne (consistent : Consistent h) (c : Handle)
    {q : Option Handle} (panel : ∀ r ∈ q, h.IsPanel r) {p : Handle} (other : q ≠ some p) :
    (h.setParent c q).children p = (h.children p).erase c := by
  rw [← consistent.children_detach]
  cases q with
  | none => rfl
  | some q =>
    refine children_enter_of_ne ((isPanel_detach h c q).mpr (panel q rfl)) ?_
    rintro rfl
    exact other rfl

end Move

section Arrival
variable {h : Hierarchy} {c q : Handle} (consistent : Consistent h) (panel : h.IsPanel q)
include consistent panel

theorem Consistent.children_setParent_free (free : h.cell? c = none) :
    (h.setParent c (some q)).children q = h.gridded q ++ ((h.freeChildren q).erase c ++ [c]) := by
  rw [Hierarchy.setParent, children_enter_free ((isPanel_detach h c q).mpr panel),
    consistent.gridded_detach, consistent.freeChildren_detach,
    List.erase_of_not_mem (consistent.not_gridded_of_free free q)]
  · rw [cell?_detach, free]
  · rw [consistent.freeChildren_detach]
    exact (consistent.distinct q).not_mem_erase

variable {cell : Cell} (seat : h.cell? c = some cell)
include seat

theorem Consistent.children_setParent_cell :
    (h.setParent c (some q)).children q =
      handles (((h.detach c).cells q).insert cell (.child (.component c))) ++ h.freeChildren q := by
  have gridded : c ∉ h.freeChildren q := by
    rw [consistent.listed, seat]
    rintro ⟨-, ⟨⟩⟩
  rw [Hierarchy.setParent, children_enter_cell ((isPanel_detach h c q).mpr panel)
    ((cell?_detach h c c).trans seat), consistent.freeChildren_detach,
    List.erase_of_not_mem gridded]

theorem Consistent.children_setParent_vacant
    (vacant : ∀ d, h.holds q cell d = true → d = c) :
    (h.setParent c (some q)).children q =
      ((h.gridded q).erase c ++ [c]) ++ h.freeChildren q := by
  have nobody : ((h.detach c).cells q).get? cell = none := by
    rw [get?_cells, consistent.occupant?_detach]
    split
    · rfl
    · next away =>
      rw [Option.eq_none_iff_forall_ne_some]
      intro occupant found
      obtain ⟨d, rfl, -, -⟩ := consistent.seated q cell occupant found
      obtain rfl := vacant d ((holds_iff ..).mpr found)
      exact away found
  rw [consistent.children_setParent_cell panel seat, handles_insert_vacant nobody,
    ← Hierarchy.gridded, consistent.gridded_detach]

theorem Consistent.children_setParent_taken {d : Handle} (held : h.holds q cell d = true)
    (other : d ≠ c) :
    (h.setParent c (some q)).children q = (h.gridded q).replace d c ++ h.freeChildren q := by
  rw [holds_iff] at held
  have away : c ∉ h.gridded q := by
    intro listed
    obtain ⟨cell', -, seat', held'⟩ := consistent.seat_of_gridded listed
    rw [seat] at seat'
    cases seat'
    rw [holds_iff, held] at held'
    cases held'
    exact other rfl
  have kept : (h.detach c).gridded q = h.gridded q :=
    (consistent.gridded_detach c q).trans (List.erase_of_not_mem away)
  have taken : ((h.detach c).cells q).get? cell = some (.child (.component d)) := by
    rw [get?_cells, consistent.occupant?_detach, held, if_neg]
    rintro ⟨⟩
    exact other rfl
  have distinct : (handles ((h.detach c).cells q)).Nodup := by
    rw [← Hierarchy.gridded, kept]
    exact (consistent.nodup_sections q).of_append_left
  rw [consistent.children_setParent_cell panel seat, handles_insert_taken distinct taken,
    ← Hierarchy.gridded, kept]

end Arrival

theorem Consistent.lost_setParent {h : Hierarchy} (consistent : Consistent h) {c : Handle}
    {q : Option Handle} (panel : ∀ p ∈ q, h.IsPanel p) {p d : Handle} (child : d ∈ h.children p)
    (lost : d ∉ (h.setParent c q).children p) (other : d ≠ c) :
    q = some p ∧ ∃ cell, h.cell? c = some cell ∧ h.holds p cell d = true := by
  by_cases here : q = some p
  · subst here
    have panel := panel p rfl
    refine ⟨rfl, ?_⟩
    rw [children_eq_sections, List.mem_append] at child
    cases seat : h.cell? c with
    | none =>
      rw [consistent.children_setParent_free panel seat] at lost
      simp only [List.mem_append, List.mem_erase_of_ne other] at lost
      tauto
    | some cell =>
      by_cases vacant : ∀ e, h.holds p cell e = true → e = c
      · rw [consistent.children_setParent_vacant panel seat vacant] at lost
        simp only [List.mem_append, List.mem_erase_of_ne other] at lost
        tauto
      · push Not at vacant
        obtain ⟨e, held, away⟩ := vacant
        rw [consistent.children_setParent_taken panel seat held away, List.mem_append] at lost
        have same : d = e := by
          by_contra apart
          exact lost (child.imp_left (mem_replace_of_ne · apart c))
        exact ⟨cell, rfl, same ▸ held⟩
  · rw [consistent.children_setParent_of_ne c panel here, List.mem_erase_of_ne other] at lost
    exact absurd child lost

/-- What a move comes to. The new panel lists the component last among those seated as it is, or in
the place of the one whose cell it takes, even when it never left that panel. Nobody else is lost to
a panel. -/
structure Moved (h after : Hierarchy) (c : Handle) (q : Option Handle) : Prop where
  parent : after.parent? c = q
  parents : ∀ d, d ≠ c → after.parent? d = h.parent? d
  seats : ∀ d, after.cell? d = h.cell? d
  elsewhere : ∀ p, h.parent? c ≠ some p → q ≠ some p → after.children p = h.children p
  former : ∀ p, h.parent? c = some p → q ≠ some p → after.children p = (h.children p).erase c
  displaced : ∀ p, h.parent? c = some p → q ≠ some p → c ∉ h.children p →
    after.children p = h.children p
  lost : ∀ p d, d ∈ h.children p → d ∉ after.children p →
    d = c ∨ q = some p ∧ ∃ cell, h.cell? c = some cell ∧ h.holds p cell d = true
  free : ∀ p, q = some p → h.cell? c = none →
    after.children p = h.gridded p ++ ((h.freeChildren p).erase c ++ [c])
  vacant : ∀ p cell, q = some p → h.cell? c = some cell →
    (∀ d, h.holds p cell d = true → d = c) →
      after.children p = ((h.gridded p).erase c ++ [c]) ++ h.freeChildren p
  taken : ∀ p cell d, q = some p → h.cell? c = some cell → h.holds p cell d = true → d ≠ c →
    after.children p = (h.gridded p).replace d c ++ h.freeChildren p

/-- However the hierarchy came about, a component moves alone. -/
theorem setParent_moves_one (edits : List Edit) {c : Handle} (declared : (edited edits).Declared c)
    {q : Option Handle} (panel : ∀ p ∈ q, (edited edits).IsPanel p) :
    Moved (edited edits) ((edited edits).setParent c q) c q where
  parent := (parent?_setParent declared panel c).trans (if_pos rfl)
  parents d other := (parent?_setParent declared panel d).trans (if_neg other.symm)
  seats := cell?_setParent declared panel
  elsewhere p away other := by
    rw [(consistent_edited edits).children_setParent_of_ne c panel other]
    exact List.erase_of_not_mem (mt (consistent_edited edits).parent_of_child away)
  former p _ other := (consistent_edited edits).children_setParent_of_ne c panel other
  displaced p _ other lost := by
    rw [(consistent_edited edits).children_setParent_of_ne c panel other]
    exact List.erase_of_not_mem lost
  lost p d child gone :=
    or_iff_not_imp_left.mpr ((consistent_edited edits).lost_setParent panel child gone)
  free p here free := by
    subst here
    exact (consistent_edited edits).children_setParent_free (panel p rfl) free
  vacant p cell here seat vacant := by
    subst here
    exact (consistent_edited edits).children_setParent_vacant (panel p rfl) seat vacant
  taken p cell d here seat held other := by
    subst here
    exact (consistent_edited edits).children_setParent_taken (panel p rfl) seat held other

def pushedOut : List Edit :=
  [.perform (.declare .panel "root" (.cell ⟨0, 0⟩) none),
    .perform (.declare .component "first" (.cell ⟨1, 0⟩) (some 0)),
    .perform (.declare .component "second" (.cell ⟨1, 0⟩) (some 0)),
    .perform (.declare .component "third" (.cell ⟨2, 0⟩) (some 0)),
    .perform (.declare .component "free" (.free .filling) (some 0))]

/-- The first component takes back the cell that the second one has, which would go last from there. -/
theorem first_takes_its_cell_back :
    (edited pushedOut).Declared 1 ∧ (∀ p ∈ some 0, (edited pushedOut).IsPanel p) ∧
      (edited pushedOut).children 0 = [2, 3, 4] ∧
      ((edited pushedOut).setParent 1 (some 0)).children 0 = [1, 3, 4] ∧
      ((edited pushedOut).setParent 1 (some 0)).parent? 2 = some 0 ∧
      ((edited pushedOut).setParent 2 (some 0)).children 0 = [3, 2, 4] := by
  have panel : ∀ p ∈ some 0, (edited pushedOut).IsPanel p := by
    rintro p ⟨⟩
    decide
  have first := setParent_moves_one pushedOut (c := 1) (by decide) panel
  have second := setParent_moves_one pushedOut (c := 2) (by decide) panel
  refine ⟨by decide, panel, by decide, ?_, (first.parents 2 (by decide)).trans (by decide), ?_⟩
  · exact (first.taken 0 ⟨1, 0⟩ 2 rfl (by decide) (by decide) (by decide)).trans (by decide)
  · refine (second.vacant 0 ⟨1, 0⟩ rfl (by decide) (fun d held => ?_)).trans (by decide)
    rw [holds_iff, show (edited pushedOut).occupant? 0 ⟨1, 0⟩ = some (.child (.component 2)) by
      decide] at held
    cases held
    rfl

end Hierarchy
end FormulaLayout
