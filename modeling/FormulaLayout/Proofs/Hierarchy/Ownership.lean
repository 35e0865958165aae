import FormulaLayout.Hierarchy.Layout
import FormulaLayout.Proofs.Hierarchy.Edit

/-! Who owns whom. A component names its parent, a panel lists its children, gridded ones in a cell
and free ones in a list. After any edits the two sides agree, but for components that lost their
cell to another one: they still name the panel, which lists them no more. What carries the
induction is that whatever a panel lists names the panel and sits just there, and that a free
component is listed wherever it names a parent. -/
namespace FormulaLayout.Hierarchy

structure Consistent (h : Hierarchy) : Prop where
  seated : ∀ p cell occupant, h.occupant? p cell = some occupant →
    ∃ c, occupant = .child (.component c) ∧ h.parent? c = some p ∧ h.cell? c = some cell
  listed : ∀ p c, c ∈ h.freeChildren p ↔ h.parent? c = some p ∧ h.cell? c = none
  distinct : ∀ p, (h.freeChildren p).Nodup
  panels : ∀ p c, h.parent? c = some p → h.IsPanel p

/-- Only what can be seen matters, and the cell of a component without a panel cannot. -/
theorem Consistent.congr {h h' : Hierarchy} (consistent : Consistent h)
    (parents : ∀ c, h'.parent? c = h.parent? c)
    (cells : ∀ c p, h.parent? c = some p → h'.cell? c = h.cell? c)
    (occupants : ∀ p cell, h'.occupant? p cell = h.occupant? p cell)
    (free : ∀ p, h'.freeChildren p = h.freeChildren p)
    (panels : ∀ p, h.IsPanel p → h'.IsPanel p) : Consistent h' where
  seated p cell occupant found := by
    rw [occupants] at found
    obtain ⟨c, same, own, seat⟩ := consistent.seated p cell occupant found
    exact ⟨c, same, (parents c).trans own, (cells c p own).trans seat⟩
  listed p c := by
    rw [free, parents, consistent.listed p c]
    exact and_congr_right fun own => by rw [cells c p own]
  distinct p := by
    rw [free]
    exact consistent.distinct p
  panels p c own := panels p (consistent.panels p c ((parents c).symm.trans own))

section Detach
variable {h : Hierarchy}

theorem Consistent.at_seat (consistent : Consistent h) {p c : Handle} {cell : Cell}
    (held : h.occupant? p cell = some (.child (.component c))) :
    h.parent? c = some p ∧ h.cell? c = some cell := by
  obtain ⟨d, same, own, seat⟩ := consistent.seated p cell _ held
  cases same
  exact ⟨own, seat⟩

theorem cell?_leave (h : Hierarchy) (c d : Handle) : (h.leave c).cell? d = h.cell? d := by
  unfold leave
  split
  · rfl
  · split
    · split
      · exact cell?_removeFromGrid ..
      · rfl
    · exact cell?_removeFree ..

theorem parent?_leave_of_ne (h : Hierarchy) {c d : Handle} (other : c ≠ d) :
    (h.leave c).parent? d = h.parent? d := by
  unfold leave
  split
  · rfl
  · split
    · split
      · next cell _ held =>
        rw [parent?_removeFromGrid, (holds_iff ..).mp held, if_neg]
        rintro ⟨same, -⟩
        cases same
        exact other rfl
      · rfl
    · rw [parent?_removeFree, if_neg]
      exact fun both => other both.1.1

theorem Consistent.occupant?_leave (consistent : Consistent h) (c p : Handle) (cell : Cell) :
    (h.leave c).occupant? p cell =
      if h.occupant? p cell = some (.child (.component c)) then none
      else h.occupant? p cell := by
  unfold leave
  split
  · next orphan =>
    rw [if_neg]
    intro held
    have own := (consistent.at_seat held).1
    rw [orphan] at own
    cases own
  · next q own =>
    split
    · next cell' seat =>
      split
      · next held =>
        rw [occupant?_removeFromGrid]
        congr 1
        rw [eq_iff_iff]
        constructor
        · rintro ⟨rfl, rfl⟩
          exact (holds_iff ..).mp held
        · intro here
          obtain ⟨own', seat'⟩ := consistent.at_seat here
          rw [own] at own'
          rw [seat] at seat'
          cases own'
          cases seat'
          exact ⟨rfl, rfl⟩
      · next lost =>
        rw [if_neg]
        intro here
        obtain ⟨own', seat'⟩ := consistent.at_seat here
        rw [own] at own'
        rw [seat] at seat'
        cases own'
        cases seat'
        exact lost ((holds_iff ..).mpr here)
    · next free =>
      rw [occupant?_removeFree, if_neg]
      intro here
      have seat := (consistent.at_seat here).2
      rw [free] at seat
      cases seat

theorem Consistent.freeChildren_leave (consistent : Consistent h) (c p : Handle) :
    (h.leave c).freeChildren p = (h.freeChildren p).erase c := by
  have elsewhere : ¬(h.parent? c = some p ∧ h.cell? c = none) →
      h.freeChildren p = (h.freeChildren p).erase c := fun away =>
    (List.erase_of_not_mem (mt (consistent.listed p c).mp away)).symm
  unfold leave
  split
  · next orphan =>
    refine elsewhere fun both => ?_
    rw [orphan] at both
    cases both.1
  · next q own =>
    split
    · next cell seat =>
      have gridded : h.freeChildren p = (h.freeChildren p).erase c := by
        refine elsewhere fun both => ?_
        rw [seat] at both
        cases both.2
      split
      · rw [freeChildren_removeFromGrid]
        exact gridded
      · exact gridded
    · rw [freeChildren_removeFree]
      split
      · rfl
      · next other =>
        refine elsewhere fun both => ?_
        rw [own] at both
        cases both.1
        exact other rfl

theorem parent?_detach (h : Hierarchy) (c d : Handle) :
    (h.detach c).parent? d = if c = d then none else h.parent? d := by
  unfold detach
  rw [parent?_modify_of_const _ c d none]
  · by_cases same : c = d
    · rw [if_pos same, if_pos same]
    · rw [if_neg same, if_neg same, parent?_leave_of_ne h same]
  · exact fun _ => rfl
  · exact .inr rfl

theorem cell?_detach (h : Hierarchy) (c d : Handle) : (h.detach c).cell? d = h.cell? d := by
  unfold detach
  rw [cell?_modify_of_seat, cell?_leave]
  exact fun _ => rfl

theorem Consistent.occupant?_detach (consistent : Consistent h) (c p : Handle) (cell : Cell) :
    (h.detach c).occupant? p cell =
      if h.occupant? p cell = some (.child (.component c)) then none
      else h.occupant? p cell := by
  unfold detach
  rw [occupant?_modify, consistent.occupant?_leave]
  exact fun _ => rfl

theorem Consistent.freeChildren_detach (consistent : Consistent h) (c p : Handle) :
    (h.detach c).freeChildren p = (h.freeChildren p).erase c := by
  unfold detach
  rw [freeChildren_modify, consistent.freeChildren_leave]
  exact fun _ => rfl

theorem declared_detach (h : Hierarchy) (c d : Handle) :
    (h.detach c).Declared d ↔ h.Declared d := by
  unfold detach leave
  rw [declared_modify]
  split
  · rfl
  · split
    · split
      · exact declared_removeFromGrid ..
      · rfl
    · exact declared_removeFree ..

theorem isPanel_detach (h : Hierarchy) (c p : Handle) :
    (h.detach c).IsPanel p ↔ h.IsPanel p := by
  unfold detach leave
  rw [isPanel_modify]
  · split
    · rfl
    · split
      · split
        · exact isPanel_removeFromGrid ..
        · rfl
      · exact isPanel_removeFree ..
  · exact fun _ => rfl

theorem Consistent.detach (consistent : Consistent h) (c : Handle) :
    Consistent (h.detach c) where
  seated p cell occupant found := by
    rw [consistent.occupant?_detach] at found
    split at found
    · cases found
    · next other =>
      obtain ⟨d, rfl, own, seat⟩ := consistent.seated p cell occupant found
      refine ⟨d, rfl, ?_, ?_⟩
      · rw [parent?_detach, if_neg, own]
        rintro rfl
        exact other found
      · rw [cell?_detach, seat]
  listed p d := by
    rw [consistent.freeChildren_detach, (consistent.distinct p).mem_erase_iff, consistent.listed,
      parent?_detach, cell?_detach]
    by_cases same : c = d
    · simp [same]
    · simp [same, Ne.symm same]
  distinct p := by
    rw [consistent.freeChildren_detach]
    exact (consistent.distinct p).erase c
  panels p d own := by
    rw [parent?_detach] at own
    split at own
    · cases own
    · exact (isPanel_detach h c p).mpr (consistent.panels p d own)

end Detach

section Enter
variable {h : Hierarchy} {c : Handle}

theorem Consistent.addToGrid (consistent : Consistent h) (alone : h.parent? c = none)
    (declared : h.Declared c) {q : Handle} (panel : h.IsPanel q) (cell : Cell) :
    Consistent (h.addToGrid q c cell) where
  seated p cell' occupant found := by
    rw [occupant?_addToGrid panel] at found
    split at found
    · next here =>
      obtain ⟨rfl, rfl⟩ := here
      cases found
      exact ⟨c, rfl, by rw [parent?_addToGrid declared panel, if_pos rfl],
        by rw [cell?_addToGrid declared panel, if_pos rfl]⟩
    · -- some other component, for `c` itself was nowhere
      obtain ⟨d, rfl, own, seat'⟩ := consistent.seated p cell' occupant found
      have other : c ≠ d := by
        rintro rfl
        rw [alone] at own
        cases own
      exact ⟨d, rfl, by rw [parent?_addToGrid declared panel, if_neg other, own],
        by rw [cell?_addToGrid declared panel, if_neg other, seat']⟩
  listed p d := by
    rw [freeChildren_addToGrid, consistent.listed, parent?_addToGrid declared panel,
      cell?_addToGrid declared panel]
    by_cases same : c = d
    · subst same
      simp [alone]
    · rw [if_neg same, if_neg same]
  distinct p := by
    rw [freeChildren_addToGrid]
    exact consistent.distinct p
  panels p d own := by
    rw [isPanel_addToGrid]
    rw [parent?_addToGrid declared panel] at own
    split at own
    · cases own
      exact panel
    · exact consistent.panels p d own

theorem Consistent.addFree (consistent : Consistent h) (alone : h.parent? c = none)
    (declared : h.Declared c) {q : Handle} (panel : h.IsPanel q)
    (free : h.cell? c = none) : Consistent (h.addFree q c) := by
  have unlisted : ∀ p, c ∉ h.freeChildren p := by
    intro p present
    have own := ((consistent.listed p c).mp present).1
    rw [alone] at own
    cases own
  have added : ∀ p, (h.addFree q c).freeChildren p =
      if q = p then h.freeChildren p ++ [c] else h.freeChildren p := by
    intro p
    rw [freeChildren_addFree panel]
    simp only [unlisted p, not_false_eq_true, and_true]
  constructor
  · intro p cell occupant found
    rw [occupant?_addFree] at found
    obtain ⟨d, rfl, own, seat⟩ := consistent.seated p cell occupant found
    refine ⟨d, rfl, ?_, by rw [cell?_addFree, seat]⟩
    rw [parent?_addFree declared panel, if_neg, own]
    rintro rfl
    rw [alone] at own
    cases own
  · intro p d
    rw [added, parent?_addFree declared panel, cell?_addFree]
    by_cases same : c = d
    · subst same
      by_cases here : q = p
      · simp [here, free]
      · simp [here, unlisted p]
    · rw [if_neg same, ← consistent.listed]
      split
      · simp [Ne.symm same]
      · rfl
  · intro p
    rw [added]
    split
    · exact List.nodup_append.mpr
        ⟨consistent.distinct p, List.nodup_singleton c, fun d present e last same =>
          unlisted p (List.mem_singleton.mp last ▸ same ▸ present)⟩
    · exact consistent.distinct p
  · intro p d own
    rw [isPanel_addFree]
    rw [parent?_addFree declared panel] at own
    split at own
    · cases own
      exact panel
    · exact consistent.panels p d own

theorem Consistent.enter (consistent : Consistent h) (alone : h.parent? c = none)
    (declared : h.Declared c) (q : Handle) : Consistent (h.enter c q) := by
  by_cases panel : h.IsPanel q
  · unfold Hierarchy.enter
    split
    · next cell _ => exact consistent.addToGrid alone declared panel cell
    · next free => exact consistent.addFree alone declared panel free
  · have same : h.enter c q = h := by
      unfold Hierarchy.enter
      split
      · exact if_neg panel
      · exact if_neg panel
    rw [same]
    exact consistent

theorem Consistent.setParent (consistent : Consistent h) (declared : h.Declared c)
    (p : Option Handle) : Consistent (h.setParent c p) := by
  have left := consistent.detach c
  cases p with
  | none => exact left
  | some p =>
    have alone : (h.detach c).parent? c = none := by rw [parent?_detach, if_pos rfl]
    exact left.enter alone ((declared_detach h c c).mpr declared) p

end Enter

section Run
variable {h : Hierarchy}

theorem Consistent.append (consistent : Consistent h) {new : Component}
    (orphan : new.parent = none) (bare : new.contents = none ∨ new.contents = some .empty) :
    Consistent ⟨h.components ++ [new]⟩ := by
  refine consistent.congr (fun c => parent?_append h c orphan) (fun c p own => ?_)
    (fun p cell => occupant?_append h p bare cell) (fun p => freeChildren_append h p bare)
    fun p => isPanel_append h p
  refine cell?_append h c ?_
  rintro rfl
  simp [parent?, get?_nextHandle] at own

theorem Consistent.declare (consistent : Consistent h) {kind : Kind} {name : String}
    {seat : SeatText} {parent : Option Handle} {declared : Hierarchy}
    (made : h.declare kind name seat parent = .ok declared) : Consistent declared := by
  unfold Hierarchy.declare at made
  cases parsed : seat.parse with
  | error fault => simp [parsed, bind, Except.bind] at made
  | ok place =>
    simp only [parsed, bind, Except.bind] at made
    have bare : kind.contents = none ∨ kind.contents = some .empty := by
      cases kind
      · exact .inl rfl
      · exact .inr rfl
    have added : Consistent ⟨h.components ++
        [⟨if name = "" then kind.name else name, true, place, none, kind.contents⟩]⟩ :=
      consistent.append rfl bare
    cases parent with
    | none =>
      cases made
      exact added
    | some p =>
      cases made
      refine added.setParent ?_ (some p)
      rw [Declared, get?_append, if_pos rfl]
      rfl

theorem Consistent.configure (consistent : Consistent h) (p : Handle)
    {setting : Grid.Operation Tenant} (sets : setting.sets = true) :
    Consistent (h.modifyGrid p fun grid => setting.apply grid) := by
  refine consistent.congr (fun c => parent?_modifyContents h c p _)
    (fun c _ _ => cell?_modifyContents h c p _) (fun q cell => ?_)
    (fun q => freeChildren_modifyGrid h q p _)
    fun q => (isPanel_modifyContents h q p _).mpr
  unfold modifyGrid
  rw [occupant?_modifyContents]
  split
  · unfold occupant? grid?
    cases h.contents? q with
    | none => rfl
    | some contents =>
      exact congrArg (·.get? cell) (Grid.contents_apply_of_sets sets contents.grid).1
  · rfl

theorem consistent_empty : Consistent .empty := by
  constructor
  · intro p cell occupant found
    cases found
  · intro p c
    simp [freeChildren, contents?, parent?, get?, Hierarchy.empty]
  · intro p
    exact List.nodup_nil
  · intro p c own
    cases own

theorem consistent_edited (edits : List Edit) : Consistent (edited edits) := by
  refine edited_induction consistent_empty (fun {h} edit consistent => ?_) edits
  cases edit with
  | configure p setting sets => exact consistent.configure p sets
  | perform operation =>
    simp only [Edit.apply]
    split
    · next declared =>
      cases operation with
      | declare kind name seat parent =>
        simp only [Operation.apply]
        cases made : h.declare kind name seat parent with
        | error fault => exact consistent
        | ok after => exact consistent.declare made
      | setParent c p => exact consistent.setParent (declared c List.mem_cons_self) p
      | setVisible c visible =>
        have kept : ∀ component : Component,
            { component with visible }.contents = component.contents := fun _ => rfl
        refine consistent.congr (fun d => ?_) (fun d _ _ => cell?_modify_of_seat h c d fun _ => rfl)
          (fun p => occupant?_modify h c p kept) (fun p => freeChildren_modify h c p kept)
          fun p => (isPanel_modify h c p kept).mpr
        unfold Operation.apply Hierarchy.setVisible
        rw [parent?_modify]
        split
        · rfl
        · rfl
    · exact consistent

end Run

section Children
variable {h : Hierarchy}

theorem mem_gridded_iff (contents : Contents) (c : Handle) :
    c ∈ contents.grid.children.filterMap Tenant.handle? ↔
      ∃ cell, contents.grid.get? cell = some (.child (.component c)) := by
  have handle : ∀ tenant : Tenant, tenant.handle? = some c ↔ tenant = .component c := by
    intro tenant
    cases tenant <;> simp [Tenant.handle?]
  have child : ∀ occupant : Occupant Tenant, ∀ tenant,
      occupant.child? = some tenant ↔ occupant = .child tenant := by
    intro occupant tenant
    cases occupant <;> simp [Occupant.child?]
  simp only [Grid.children, OrderedMap.values, Grid.get?, List.mem_filterMap, List.mem_map, handle,
    child, ← OrderedMap.mem_entries_iff]
  constructor
  · rintro ⟨_, ⟨_, ⟨⟨cell, _⟩, listed, rfl⟩, rfl⟩, rfl⟩
    exact ⟨cell, listed⟩
  · rintro ⟨cell, listed⟩
    exact ⟨_, ⟨_, ⟨_, listed, rfl⟩, rfl⟩, rfl⟩

theorem mem_children_iff (h : Hierarchy) (p c : Handle) :
    c ∈ h.children p ↔
      (∃ cell, h.occupant? p cell = some (.child (.component c))) ∨ c ∈ h.freeChildren p := by
  unfold children occupant? freeChildren grid?
  cases h.contents? p with
  | none => simp
  | some contents =>
    simp only [Option.map_some, Option.getD_some, Option.bind_some, Contents.children,
      List.mem_append, mem_gridded_iff]

theorem Consistent.parent_of_child (consistent : Consistent h) {p c : Handle}
    (child : c ∈ h.children p) : h.parent? c = some p := by
  obtain ⟨cell, held⟩ | free := (mem_children_iff h p c).mp child
  · exact (consistent.at_seat held).1
  · exact ((consistent.listed p c).mp free).1

theorem Consistent.owner (consistent : Consistent h) {p q c : Handle} (child : c ∈ h.children p)
    (child' : c ∈ h.children q) : p = q := by
  have own := consistent.parent_of_child child
  rw [consistent.parent_of_child child'] at own
  exact (Option.some.inj own).symm

theorem Consistent.holds_iff_cell? (consistent : Consistent h) {p c : Handle}
    (child : c ∈ h.children p) (cell : Cell) :
    h.holds p cell c = true ↔ h.cell? c = some cell := by
  rw [holds_iff]
  constructor
  · intro held
    exact (consistent.at_seat held).2
  · intro seat
    obtain ⟨cell', held⟩ | free := (mem_children_iff h p c).mp child
    · have seat' := (consistent.at_seat held).2
      rw [seat] at seat'
      cases seat'
      exact held
    · have unseated := ((consistent.listed p c).mp free).2
      rw [seat] at unseated
      cases unseated

/-- Two cells of a panel never hold the same component, since it has but one cell of its own. -/
theorem Consistent.nodup_gridded (consistent : Consistent h) {p : Handle} {contents : Contents}
    (found : h.contents? p = some contents) :
    (contents.grid.children.filterMap Tenant.handle?).Nodup := by
  have held : ∀ entry ∈ contents.grid.entries, ∀ c, (entry.2.child?.bind Tenant.handle?) = some c →
      h.cell? c = some entry.1 := by
    rintro ⟨cell, occupant⟩ listed c taken
    have here : h.occupant? p cell = some occupant := by
      simpa only [occupant?, grid?, found, Option.map_some, Option.bind_some, Grid.get?] using
        (OrderedMap.mem_entries_iff ..).mp listed
    obtain ⟨d, rfl, -, seat⟩ := consistent.seated p cell occupant here
    cases taken
    exact seat
  have apart : contents.grid.entries.Pairwise fun entry entry' => entry.1 ≠ entry'.1 :=
    List.pairwise_map.mp contents.grid.cells.nodup_keys
  -- equal handles in two entries would have the same cell, and the cells are keys
  simp only [Grid.children, OrderedMap.values, List.filterMap_map, List.filterMap_filterMap]
  refine List.pairwise_filterMap.mpr (apart.imp_of_mem fun listed listed' other c taken c' taken'
    same => ?_)
  subst same
  have seat := held _ listed c taken
  rw [held _ listed' c taken'] at seat
  exact other (Option.some.inj seat).symm

theorem Consistent.nodup_children (consistent : Consistent h) (p : Handle) :
    (h.children p).Nodup := by
  unfold children
  cases found : h.contents? p with
  | none => exact List.nodup_nil
  | some contents =>
    have free : h.freeChildren p = contents.free := by simp [freeChildren, found]
    refine List.nodup_append.mpr
      ⟨consistent.nodup_gridded found, free ▸ consistent.distinct p, fun c gridded d listed same => ?_⟩
    subst same
    obtain ⟨cell, held⟩ := (mem_gridded_iff contents c).mp gridded
    have here : h.occupant? p cell = some (.child (.component c)) := by
      simpa [occupant?, grid?, found] using held
    have seat := (consistent.at_seat here).2
    have unseated := ((consistent.listed p c).mp (free ▸ listed)).2
    rw [seat] at unseated
    cases unseated

theorem Consistent.displaced (consistent : Consistent h) {p c : Handle}
    (own : h.parent? c = some p) (lost : c ∉ h.children p) :
    ∃ cell, h.cell? c = some cell ∧ h.holds p cell c = false ∧
      (h.occupant? p cell = none ∨ ∃ d ∈ h.children p, d ≠ c ∧ h.holds p cell d = true) := by
  rw [mem_children_iff, not_or, not_exists] at lost
  obtain ⟨unheld, unlisted⟩ := lost
  cases seat : h.cell? c with
  | none => exact absurd ((consistent.listed p c).mpr ⟨own, seat⟩) unlisted
  | some cell =>
    refine ⟨cell, rfl, ?_, ?_⟩
    · rw [Bool.eq_false_iff, Ne, holds_iff]
      exact unheld cell
    · cases held : h.occupant? p cell with
      | none => exact .inl rfl
      | some occupant =>
        obtain ⟨d, rfl, -, -⟩ := consistent.seated p cell occupant held
        refine .inr ⟨d, (mem_children_iff h p d).mpr (.inl ⟨cell, held⟩), ?_,
          (holds_iff ..).mpr held⟩
        rintro rfl
        exact unheld cell held

theorem resolve_of_seat {p c : Handle} {cell : Cell} (own : h.parent? c = some p)
    (seat : h.cell? c = some cell) (canvas : PixelRect) :
    h.resolve c canvas =
      if h.holds p cell c then ((h.grid? p).getD .empty).resolve cell canvas else .ok .zero := by
  unfold parent? at own
  unfold cell? at seat
  unfold resolve
  cases found : h.get? c with
  | none => simp [found] at own
  | some component =>
    rw [found, Option.bind_some] at own seat
    cases place : component.seat with
    | free placement =>
      rw [place] at seat
      cases seat
    | cell cell' =>
      rw [place] at seat
      cases seat
      simp only [place, own]

end Children

structure Owned (h : Hierarchy) : Prop where
  parent : ∀ p c, c ∈ h.children p → h.IsPanel p ∧ h.parent? c = some p
  once : ∀ p, (h.children p).Nodup
  only : ∀ p q c, c ∈ h.children p → c ∈ h.children q → p = q
  gridded : ∀ p c cell, c ∈ h.children p → (h.holds p cell c = true ↔ h.cell? c = some cell)
  free : ∀ p c, c ∈ h.children p → (c ∈ h.freeChildren p ↔ h.cell? c = none)
  displaced : ∀ p c, h.parent? c = some p → c ∉ h.children p →
    h.IsPanel p ∧ ∃ cell, h.cell? c = some cell ∧
      (h.occupant? p cell = none ∨ ∃ d ∈ h.children p, d ≠ c ∧ h.holds p cell d = true) ∧
      ∀ canvas, h.resolve c canvas = .ok .zero

/-- However components were declared, moved, shown and hidden, and their cells taken over, parents
and lists agree. Only a component that lost its cell names a panel which does not list it, and that
one has no size. -/
theorem parents_and_lists_agree (edits : List Edit) : Owned (edited edits) where
  parent p c child := by
    have own := (consistent_edited edits).parent_of_child child
    exact ⟨(consistent_edited edits).panels p c own, own⟩
  once := (consistent_edited edits).nodup_children
  only _ _ _ child child' := (consistent_edited edits).owner child child'
  gridded p c cell child := (consistent_edited edits).holds_iff_cell? child cell
  free p c child := by
    have own := (consistent_edited edits).parent_of_child child
    rw [(consistent_edited edits).listed]
    exact and_iff_right own
  displaced p c own lost := by
    obtain ⟨cell, seat, gone, vacancy⟩ := (consistent_edited edits).displaced own lost
    refine ⟨(consistent_edited edits).panels p c own, cell, seat, vacancy, fun canvas => ?_⟩
    rw [resolve_of_seat own seat, gone]
    rfl

def borrowedCell : List Edit :=
  [.perform (.declare .panel "root" (.cell ⟨0, 0⟩) none),
    .perform (.declare .component "first" (.cell ⟨1, 0⟩) (some 0)),
    .perform (.declare .component "second" (.cell ⟨1, 0⟩) (some 0)),
    .perform (.setParent 2 none)]

example : (edited (borrowedCell.take 3)).children 0 = [2] ∧ (edited borrowedCell).children 0 = [] ∧
    (edited borrowedCell).parent? 1 = some 0 := by
  decide

end FormulaLayout.Hierarchy
