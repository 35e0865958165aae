import FormulaLayout.Proofs.Hierarchy.Run

/-! What can be seen of a hierarchy: the parent and the cell of a component, the cells of a panel in
their order with what they hold, and the free children of a panel. Each operation on panels is an
equation for each of the four, and no later proof looks at the components themselves. -/
namespace FormulaLayout.Hierarchy

def occupant? (h : Hierarchy) (p : Handle) (cell : Cell) : Option (Occupant Tenant) :=
  (h.grid? p).bind (·.get? cell)

def cells (h : Hierarchy) (p : Handle) : OrderedMap Cell (Occupant Tenant) :=
  ((h.grid? p).map (·.cells)).getD .empty

theorem get?_cells (h : Hierarchy) (p : Handle) (cell : Cell) :
    (h.cells p).get? cell = h.occupant? p cell := by
  unfold cells occupant?
  cases h.grid? p <;> rfl

def freeChildren (h : Hierarchy) (p : Handle) : List Handle :=
  ((h.contents? p).map (·.free)).getD []

def Declared (h : Hierarchy) (c : Handle) : Prop := (h.get? c).isSome = true

instance (h : Hierarchy) (c : Handle) : Decidable (h.Declared c) :=
  inferInstanceAs (Decidable (_ = true))

def IsPanel (h : Hierarchy) (p : Handle) : Prop := (h.contents? p).isSome = true

instance (h : Hierarchy) (p : Handle) : Decidable (h.IsPanel p) :=
  inferInstanceAs (Decidable (_ = true))

theorem holds_iff (h : Hierarchy) (p : Handle) (cell : Cell) (c : Handle) :
    h.holds p cell c = true ↔ h.occupant? p cell = some (.child (.component c)) := by
  simp [holds, occupant?]

section Modify
variable (h : Hierarchy) (c d p q : Handle)

theorem parent?_modify (change : Component → Component) :
    (h.modify c change).parent? d =
      if c = d then (h.get? d).bind fun component => (change component).parent
      else h.parent? d := by
  unfold parent?
  rw [get?_modify]
  split
  · cases h.get? d <;> rfl
  · rfl

theorem declared_modify (change : Component → Component) :
    (h.modify c change).Declared d ↔ h.Declared d := by
  unfold Declared
  rw [get?_modify]
  split
  · rw [Option.isSome_map]
  · rfl

theorem parent?_modify_of_const (parent : Option Handle) {change : Component → Component}
    (set : ∀ component, (change component).parent = parent)
    (kept : h.Declared c ∨ parent = none) :
    (h.modify c change).parent? d = if c = d then parent else h.parent? d := by
  rw [parent?_modify]
  split
  · next same =>
    subst same
    simp only [set]
    obtain declared | rfl := kept
    · rw [Declared, Option.isSome_iff_exists] at declared
      obtain ⟨component, found⟩ := declared
      rw [found, Option.bind_some]
    · cases h.get? c <;> rfl
  · rfl

theorem cell?_modify (change : Component → Component) :
    (h.modify c change).cell? d =
      if c = d then (h.get? d).bind fun component => (change component).seat.cell?
      else h.cell? d := by
  unfold cell?
  rw [get?_modify]
  split
  · cases h.get? d <;> rfl
  · rfl

theorem cell?_modify_of_seat {change : Component → Component}
    (same : ∀ component, (change component).seat = component.seat) :
    (h.modify c change).cell? d = h.cell? d := by
  rw [cell?_modify]
  split
  · simp only [same, cell?]
  · rfl

theorem contents?_modify {change : Component → Component}
    (same : ∀ component, (change component).contents = component.contents) :
    (h.modify c change).contents? p = h.contents? p := by
  unfold contents?
  rw [get?_modify]
  split
  · cases h.get? p with
    | none => rfl
    | some component => simp [same]
  · rfl

theorem isPanel_modify {change : Component → Component}
    (same : ∀ component, (change component).contents = component.contents) :
    (h.modify c change).IsPanel p ↔ h.IsPanel p := by
  rw [IsPanel, contents?_modify h c p same, IsPanel]

theorem cells_modify {change : Component → Component}
    (same : ∀ component, (change component).contents = component.contents) :
    (h.modify c change).cells p = h.cells p := by
  simp only [cells, grid?, contents?_modify h c p same]

theorem occupant?_modify {change : Component → Component}
    (same : ∀ component, (change component).contents = component.contents) (cell : Cell) :
    (h.modify c change).occupant? p cell = h.occupant? p cell := by
  rw [← get?_cells, cells_modify h c p same, get?_cells]

theorem freeChildren_modify {change : Component → Component}
    (same : ∀ component, (change component).contents = component.contents) :
    (h.modify c change).freeChildren p = h.freeChildren p := by
  simp only [freeChildren, contents?_modify h c p same]

theorem isPanel_modifyContents (change : Contents → Contents) :
    (h.modifyContents q change).IsPanel p ↔ h.IsPanel p := by
  unfold IsPanel
  rw [contents?_modifyContents]
  split
  · rw [Option.isSome_map]
  · rfl

theorem declared_orphan : (h.orphan p c).Declared d ↔ h.Declared d := declared_modify h c d _

theorem parent?_modifyContents (change : Contents → Contents) :
    (h.modifyContents q change).parent? d = h.parent? d := by
  unfold modifyContents
  rw [parent?_modify]
  split
  · rfl
  · rfl

theorem cell?_modifyContents (change : Contents → Contents) :
    (h.modifyContents q change).cell? d = h.cell? d :=
  cell?_modify_of_seat h q d fun _ => rfl

theorem cells_modifyContents (change : Contents → Contents) :
    (h.modifyContents q change).cells p =
      if q = p then ((h.contents? p).map fun contents => (change contents).grid.cells).getD .empty
      else h.cells p := by
  unfold cells grid?
  rw [contents?_modifyContents]
  split
  · cases h.contents? p <;> rfl
  · rfl

theorem cells_modifyContents_of_grid {change : Contents → Contents}
    (same : ∀ contents, (change contents).grid = contents.grid) :
    (h.modifyContents q change).cells p = h.cells p := by
  rw [cells_modifyContents]
  split
  · simp only [same, cells, grid?, Option.map_map]
    rfl
  · rfl

theorem occupant?_modifyContents (change : Contents → Contents) (cell : Cell) :
    (h.modifyContents q change).occupant? p cell =
      if q = p then (h.contents? p).bind fun contents => (change contents).grid.get? cell
      else h.occupant? p cell := by
  rw [← get?_cells, cells_modifyContents, ← get?_cells]
  split
  · cases h.contents? p <;> rfl
  · rfl

theorem freeChildren_modifyContents (change : Contents → Contents) :
    (h.modifyContents q change).freeChildren p =
      if q = p then ((h.contents? p).map fun contents => (change contents).free).getD []
      else h.freeChildren p := by
  unfold freeChildren
  rw [contents?_modifyContents]
  split
  · cases h.contents? p <;> rfl
  · rfl

theorem freeChildren_modifyGrid (change : Grid Tenant → Grid Tenant) :
    (h.modifyGrid q change).freeChildren p = h.freeChildren p := by
  unfold modifyGrid
  rw [freeChildren_modifyContents]
  split
  · rfl
  · rfl

theorem parent?_orphan :
    (h.orphan p c).parent? d =
      if c = d ∧ h.parent? d = some p then none else h.parent? d := by
  unfold orphan
  rw [parent?_modify]
  by_cases same : c = d
  · subst same
    rw [if_pos rfl]
    unfold parent?
    cases h.get? c with
    | none => simp
    | some component =>
      by_cases here : component.parent = some p <;> simp [here]
  · simp [same]

theorem orphan_keeps (component : Component) :
    (if component.parent = some p then { component with parent := none } else component).seat =
        component.seat ∧
      (if component.parent = some p then { component with parent := none }
        else component).contents = component.contents := by
  split <;> exact ⟨rfl, rfl⟩

theorem cell?_orphan : (h.orphan p c).cell? d = h.cell? d :=
  cell?_modify_of_seat h c d fun component => (orphan_keeps p component).1

theorem isPanel_orphan : (h.orphan q c).IsPanel p ↔ h.IsPanel p :=
  isPanel_modify h c p fun component => (orphan_keeps q component).2

theorem cells_orphan : (h.orphan q c).cells p = h.cells p :=
  cells_modify h c p fun component => (orphan_keeps q component).2

theorem freeChildren_orphan : (h.orphan q c).freeChildren p = h.freeChildren p :=
  freeChildren_modify h c p fun component => (orphan_keeps q component).2

end Modify

section Add
variable {h : Hierarchy} {c q : Handle}

theorem addToGrid_of_isPanel (panel : h.IsPanel q) (cell : Cell) :
    h.addToGrid q c cell = (h.modifyGrid q (·.place cell (.child (.component c)))).modify c
      ({ · with seat := .cell cell, parent := some q }) :=
  if_pos panel

theorem addFree_of_isPanel (panel : h.IsPanel q) :
    h.addFree q c = (h.modifyContents q (·.addFree c)).modify c ({ · with parent := some q }) :=
  if_pos panel

theorem parent?_addToGrid (declared : h.Declared c) (panel : h.IsPanel q)
    (cell : Cell) (d : Handle) :
    (h.addToGrid q c cell).parent? d = if c = d then some q else h.parent? d := by
  rw [addToGrid_of_isPanel panel, parent?_modify_of_const _ c d (some q)]
  · exact congrArg _ (parent?_modifyContents h d q _)
  · exact fun _ => rfl
  · exact .inl ((declared_modify h q c _).mpr declared)

theorem cell?_addToGrid (declared : h.Declared c) (panel : h.IsPanel q)
    (cell : Cell) (d : Handle) :
    (h.addToGrid q c cell).cell? d = if c = d then some cell else h.cell? d := by
  rw [addToGrid_of_isPanel panel, cell?_modify]
  split
  · next same =>
    subst same
    obtain ⟨component, found⟩ :
        ∃ component, (h.modifyGrid q (·.place cell (.child (.component c)))).get? c =
          some component := Option.isSome_iff_exists.mp ((declared_modify h q c _).mpr declared)
    exact Option.bind_eq_some_iff.mpr ⟨component, found, rfl⟩
  · exact cell?_modifyContents h d q _

theorem isPanel_addToGrid (cell : Cell) (p : Handle) :
    (h.addToGrid q c cell).IsPanel p ↔ h.IsPanel p := by
  unfold addToGrid
  split
  · rw [isPanel_modify]
    · exact isPanel_modifyContents h p q _
    · exact fun _ => rfl
  · rfl

theorem isPanel_addFree (p : Handle) : (h.addFree q c).IsPanel p ↔ h.IsPanel p := by
  unfold addFree
  split
  · rw [isPanel_modify]
    · exact isPanel_modifyContents h p q _
    · exact fun _ => rfl
  · rfl

theorem cells_addToGrid (panel : h.IsPanel q) (cell : Cell) (p : Handle) :
    (h.addToGrid q c cell).cells p =
      if q = p then (h.cells p).insert cell (.child (.component c)) else h.cells p := by
  rw [addToGrid_of_isPanel panel, cells_modify, modifyGrid, cells_modifyContents]
  · split
    · next same =>
      subst same
      obtain ⟨contents, found⟩ := Option.isSome_iff_exists.mp panel
      simp only [cells, grid?, found, Option.map_some, Option.getD_some, Grid.cells_place]
    · rfl
  · exact fun _ => rfl

theorem occupant?_addToGrid (panel : h.IsPanel q) (cell : Cell) (p : Handle)
    (cell' : Cell) :
    (h.addToGrid q c cell).occupant? p cell' =
      if q = p ∧ cell = cell' then some (.child (.component c)) else h.occupant? p cell' := by
  rw [← get?_cells, cells_addToGrid panel, ← get?_cells]
  by_cases same : q = p
  · rw [if_pos same, OrderedMap.get?_insert]
    simp only [same, true_and]
  · rw [if_neg same, if_neg fun both => same both.1]

theorem freeChildren_addToGrid (cell : Cell) (p : Handle) :
    (h.addToGrid q c cell).freeChildren p = h.freeChildren p := by
  unfold addToGrid
  split
  · rw [freeChildren_modify]
    · exact freeChildren_modifyGrid h p q _
    · exact fun _ => rfl
  · rfl

theorem parent?_addFree (declared : h.Declared c) (panel : h.IsPanel q)
    (d : Handle) : (h.addFree q c).parent? d = if c = d then some q else h.parent? d := by
  rw [addFree_of_isPanel panel, parent?_modify_of_const _ c d (some q)]
  · exact congrArg _ (parent?_modifyContents h d q _)
  · exact fun _ => rfl
  · exact .inl ((declared_modify h q c _).mpr declared)

theorem cell?_addFree (d : Handle) : (h.addFree q c).cell? d = h.cell? d := by
  unfold addFree
  split
  · rw [cell?_modify_of_seat, cell?_modifyContents]
    exact fun _ => rfl
  · rfl

theorem grid_addFree (contents : Contents) (c : Handle) :
    (contents.addFree c).grid = contents.grid := by
  unfold Contents.addFree
  split <;> rfl

theorem cells_addFree (p : Handle) : (h.addFree q c).cells p = h.cells p := by
  unfold addFree
  split
  · rw [cells_modify, cells_modifyContents_of_grid]
    · exact fun contents => grid_addFree contents c
    · exact fun _ => rfl
  · rfl

theorem occupant?_addFree (p : Handle) (cell : Cell) :
    (h.addFree q c).occupant? p cell = h.occupant? p cell := by
  rw [← get?_cells, cells_addFree, get?_cells]

theorem freeChildren_addFree (panel : h.IsPanel q) (p : Handle) :
    (h.addFree q c).freeChildren p =
      if q = p ∧ c ∉ h.freeChildren p then h.freeChildren p ++ [c] else h.freeChildren p := by
  rw [addFree_of_isPanel panel, freeChildren_modify, freeChildren_modifyContents]
  · by_cases same : q = p
    · subst same
      obtain ⟨contents, found⟩ := Option.isSome_iff_exists.mp panel
      simp only [freeChildren, found, Option.map_some, Option.getD_some, Contents.addFree, true_and,
        if_true]
      by_cases listed : c ∈ contents.free
      · rw [if_pos listed, if_neg (not_not.mpr listed)]
      · rw [if_neg listed, if_pos listed]
    · simp only [same, false_and, if_false]
  · exact fun _ => rfl

end Add

section Remove
variable (h : Hierarchy) (c d p q : Handle)

theorem declared_removeFromGrid (cell : Cell) (shrink : Bool) :
    (h.removeFromGrid q cell shrink).1.Declared d ↔ h.Declared d := by
  unfold removeFromGrid
  split
  · rfl
  · dsimp only
    split
    · rw [declared_orphan]
      exact declared_modify h q d _
    · exact declared_modify h q d _

theorem declared_removeFree : (h.removeFree q c).1.Declared d ↔ h.Declared d := by
  unfold removeFree
  split
  · rfl
  · split
    · rw [declared_orphan]
      exact declared_modify h q d _
    · rfl

theorem isPanel_removeFromGrid (cell : Cell) (shrink : Bool) :
    (h.removeFromGrid q cell shrink).1.IsPanel p ↔ h.IsPanel p := by
  unfold removeFromGrid
  split
  · rfl
  · dsimp only
    split
    · rw [isPanel_orphan]
      exact isPanel_modifyContents h p q _
    · exact isPanel_modifyContents h p q _

theorem isPanel_removeFree : (h.removeFree q c).1.IsPanel p ↔ h.IsPanel p := by
  unfold removeFree
  split
  · rfl
  · split
    · rw [isPanel_orphan]
      exact isPanel_modifyContents h p q _
    · rfl

theorem cell?_removeFromGrid (cell : Cell) (shrink : Bool) :
    (h.removeFromGrid q cell shrink).1.cell? d = h.cell? d := by
  unfold removeFromGrid
  split
  · rfl
  · dsimp only
    split
    · rw [cell?_orphan]
      exact cell?_modifyContents h d q _
    · exact cell?_modifyContents h d q _

theorem freeChildren_removeFromGrid (cell : Cell) (shrink : Bool) :
    (h.removeFromGrid q cell shrink).1.freeChildren p = h.freeChildren p := by
  unfold removeFromGrid
  split
  · rfl
  · dsimp only
    split
    · rw [freeChildren_orphan, freeChildren_modifyGrid]
    · exact freeChildren_modifyGrid h p q _

theorem cells_removeFromGrid (cell : Cell) (shrink : Bool) :
    (h.removeFromGrid q cell shrink).1.cells p =
      if q = p then (h.cells p).erase cell else h.cells p := by
  unfold removeFromGrid
  cases found : h.grid? q with
  | none =>
    dsimp only
    split
    · next same =>
      subst same
      simp only [cells, found]
      rfl
    · rfl
  | some grid =>
    have cleared : (h.modifyGrid q fun _ => (grid.remove cell shrink).1).cells p =
        if q = p then (h.cells p).erase cell else h.cells p := by
      rw [modifyGrid, cells_modifyContents]
      split
      · next same =>
        subst same
        obtain ⟨contents, here, rfl⟩ := Option.map_eq_some_iff.mp found
        simp only [here, cells, grid?, Option.map_some, Option.getD_some, Grid.cells_remove]
      · rfl
    dsimp only
    split
    · rw [cells_orphan, cleared]
    · exact cleared

theorem occupant?_removeFromGrid (cell : Cell) (shrink : Bool) (cell' : Cell) :
    (h.removeFromGrid q cell shrink).1.occupant? p cell' =
      if q = p ∧ cell = cell' then none else h.occupant? p cell' := by
  rw [← get?_cells, cells_removeFromGrid, ← get?_cells]
  by_cases same : q = p
  · rw [if_pos same, OrderedMap.get?_erase]
    simp only [same, true_and]
  · rw [if_neg same, if_neg fun both => same both.1]

theorem parent?_removeFromGrid (cell : Cell) (shrink : Bool) :
    (h.removeFromGrid q cell shrink).1.parent? d =
      if h.occupant? q cell = some (.child (.component d)) ∧ h.parent? d = some q then none
      else h.parent? d := by
  unfold removeFromGrid
  cases found : h.grid? q with
  | none => simp [occupant?, found]
  | some grid =>
    have same : ∀ left : Grid Tenant, (h.modifyGrid q fun _ => left).parent? d = h.parent? d :=
      fun _ => parent?_modifyContents h d q _
    have here : h.occupant? q cell = grid.get? cell := by
      simp [occupant?, found]
    dsimp only
    rw [here]
    split
    · next c held =>
      rw [parent?_orphan, same, held]
      simp only [Option.some.injEq, Occupant.child.injEq, Tenant.component.injEq]
    · next other =>
      rw [same, if_neg]
      rintro ⟨held, -⟩
      exact other d held

theorem cell?_removeFree : (h.removeFree q c).1.cell? d = h.cell? d := by
  unfold removeFree
  split
  · rfl
  · split
    · rw [cell?_orphan, cell?_modifyContents]
    · rfl

theorem cells_removeFree : (h.removeFree q c).1.cells p = h.cells p := by
  unfold removeFree
  split
  · rfl
  · split
    · rw [cells_orphan, cells_modifyContents_of_grid]
      exact fun _ => rfl
    · rfl

theorem occupant?_removeFree (cell : Cell) :
    (h.removeFree q c).1.occupant? p cell = h.occupant? p cell := by
  rw [← get?_cells, cells_removeFree, get?_cells]

theorem freeChildren_removeFree :
    (h.removeFree q c).1.freeChildren p =
      if q = p then (h.freeChildren p).erase c else h.freeChildren p := by
  unfold removeFree
  cases found : h.contents? q with
  | none =>
    dsimp only
    split
    · next same =>
      subst same
      simp [freeChildren, found]
    · rfl
  | some contents =>
    dsimp only
    split
    · rw [freeChildren_orphan, freeChildren_modifyContents]
      split
      · next same =>
        subst same
        simp [freeChildren, found]
      · rfl
    · next absent =>
      split
      · next same =>
        subst same
        simp [freeChildren, found, List.erase_of_not_mem absent]
      · rfl

theorem parent?_removeFree :
    (h.removeFree q c).1.parent? d =
      if (c = d ∧ h.parent? d = some q) ∧ c ∈ h.freeChildren q then none else h.parent? d := by
  unfold removeFree
  cases found : h.contents? q with
  | none => simp [freeChildren, found]
  | some contents =>
    have listed : h.freeChildren q = contents.free := by simp [freeChildren, found]
    dsimp only
    rw [listed]
    split
    · next present =>
      rw [parent?_orphan, parent?_modifyContents]
      simp only [present, and_true]
    · next absent => simp only [absent, and_false, if_false]

end Remove

section Append
variable (h : Hierarchy) (new : Component) (d p : Handle)

theorem get?_append :
    (Hierarchy.mk (h.components ++ [new])).get? d =
      if d = h.nextHandle then some new else h.get? d := by
  unfold get? nextHandle
  obtain old | rfl | late := Nat.lt_trichotomy d h.components.length
  · rw [List.getElem?_append_left old, if_neg old.ne]
  · rw [List.getElem?_concat_length, if_pos rfl]
  · rw [if_neg late.ne', List.getElem?_eq_none (Nat.le_of_lt late), List.getElem?_eq_none]
    rw [List.length_append]
    exact late

theorem get?_nextHandle : h.get? h.nextHandle = none :=
  List.getElem?_eq_none (Nat.le_refl _)

variable {new}

theorem parent?_append (orphan : new.parent = none) :
    (Hierarchy.mk (h.components ++ [new])).parent? d = h.parent? d := by
  unfold parent?
  rw [get?_append]
  split
  · next same => rw [same, get?_nextHandle, Option.bind_some, orphan, Option.bind_none]
  · rfl

theorem cell?_append (old : d ≠ h.nextHandle) :
    (Hierarchy.mk (h.components ++ [new])).cell? d = h.cell? d := by
  unfold cell?
  rw [get?_append, if_neg old]

theorem isPanel_append (panel : h.IsPanel p) :
    (Hierarchy.mk (h.components ++ [new])).IsPanel p := by
  unfold IsPanel contents? at panel ⊢
  rw [get?_append, if_neg]
  · exact panel
  · rintro rfl
    rw [get?_nextHandle] at panel
    cases panel

theorem occupant?_append (bare : new.contents = none ∨ new.contents = some .empty) (cell : Cell) :
    (Hierarchy.mk (h.components ++ [new])).occupant? p cell = h.occupant? p cell := by
  unfold occupant? grid? contents?
  rw [get?_append]
  split
  · next same =>
    rw [same, get?_nextHandle]
    obtain none | empty := bare
    · simp [none]
    · simp only [empty, Option.bind_some, Option.map_some]
      rfl
  · rfl

theorem freeChildren_append (bare : new.contents = none ∨ new.contents = some .empty) :
    (Hierarchy.mk (h.components ++ [new])).freeChildren p = h.freeChildren p := by
  unfold freeChildren contents?
  rw [get?_append]
  split
  · next same =>
    rw [same, get?_nextHandle]
    obtain none | empty := bare
    · simp [none]
    · simp only [empty, Option.bind_some, Option.map_some]
      rfl
  · rfl

end Append

end FormulaLayout.Hierarchy
