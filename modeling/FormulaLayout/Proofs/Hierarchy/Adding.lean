import FormulaLayout.Proofs.Hierarchy.Ownership

/-! Components that are added to a panel directly. The panel becomes the parent and lists the
component from then on, but whoever listed it before is not told, and a component that leaves gives
up only the place it knows of. So what was added is listed once, and by nobody after it left,
exactly if it was nowhere else. A place is a cell of a panel or, where there is no cell, its list of
free children. -/
namespace FormulaLayout

abbrev Place := Option Cell

def held? (occupant : Occupant Tenant) : Option Handle := occupant.child?.bind Tenant.handle?

@[simp] theorem held?_eq_some_iff {occupant : Occupant Tenant} {c : Handle} :
    held? occupant = some c ↔ occupant = .child (.component c) := by
  rcases occupant with _ | (_ | _) <;> simp [held?, Occupant.child?, Tenant.handle?]

def Contents.places (contents : Contents) : List (Place × Handle) :=
  contents.grid.entries.filterMap (fun entry => (held? entry.2).map fun c => (some entry.1, c)) ++
    contents.free.map fun c => (none, c)

theorem Contents.children_eq_places (contents : Contents) :
    contents.children = contents.places.map Prod.snd := by
  simp only [children, places, Grid.children, Grid.entries, OrderedMap.values, List.filterMap_map,
    List.filterMap_filterMap, List.map_append, List.map_filterMap, List.map_map]
  congr 1
  · congr 1
    funext entry
    simp [held?, Function.comp_def]
  · simp [Function.comp_def]

theorem Contents.nodup_places {contents : Contents} (distinct : contents.free.Nodup) :
    contents.places.Nodup := by
  have cells : contents.grid.entries.Pairwise fun entry entry' => entry.1 ≠ entry'.1 :=
    List.pairwise_map.mp contents.grid.cells.nodup_keys
  refine List.nodup_append.mpr ⟨List.pairwise_filterMap.mpr (cells.imp ?_), ?_, ?_⟩
  · intro entry entry' other place taken place' taken' same
    simp only [Option.map_eq_some_iff] at taken taken'
    obtain ⟨c, -, rfl⟩ := taken
    obtain ⟨c', -, rfl⟩ := taken'
    exact other (Option.some.inj (Prod.mk.inj same).1)
  · exact distinct.map fun c c' same => (Prod.mk.inj same).2
  · intro place gridded place' free same
    subst same
    simp only [List.mem_filterMap, Option.map_eq_some_iff, List.mem_map] at gridded free
    obtain ⟨entry, -, c, -, rfl⟩ := gridded
    obtain ⟨c', -, same⟩ := free
    cases same

theorem count_map_snd_eq_one_iff {α β : Type} [DecidableEq α] [DecidableEq β] {pairs : List (α × β)}
    (distinct : pairs.Nodup) {a : α} {b : β} (listed : (a, b) ∈ pairs) :
    (pairs.map Prod.snd).count b = 1 ↔ ∀ a', (a', b) ∈ pairs → a' = a := by
  rw [List.count, List.countP_map]
  constructor
  · intro one a' listed'
    rw [List.countP_eq_length_filter, List.length_eq_one_iff] at one
    obtain ⟨only, same⟩ := one
    have among : ∀ pair ∈ pairs, pair.2 = b → pair = only := by
      intro pair member value
      have kept : pair ∈ pairs.filter ((· == b) ∘ Prod.snd) := by simp [member, value]
      simpa [same] using kept
    exact congrArg Prod.fst ((among _ listed' rfl).trans (among _ listed rfl).symm)
  · intro only
    have same : pairs.countP ((· == b) ∘ Prod.snd) = pairs.count (a, b) := by
      refine List.countP_congr fun pair member => ?_
      obtain ⟨a', b'⟩ := pair
      simp only [Function.comp_apply, beq_iff_eq, Prod.mk.injEq]
      constructor
      · rintro rfl
        exact ⟨only a' member, rfl⟩
      · exact And.right
    rw [same]
    exact List.count_eq_one_of_mem distinct listed

namespace Hierarchy

section Places

def ListedAt (h : Hierarchy) (c p : Handle) : Place → Prop
  | some cell => h.occupant? p cell = some (.child (.component c))
  | none => c ∈ h.freeChildren p

instance (h : Hierarchy) (c p : Handle) : (place : Place) → Decidable (h.ListedAt c p place)
  | some _ => inferInstanceAs (Decidable (_ = _))
  | none => inferInstanceAs (Decidable (_ ∈ _))

def OnlyAt (h : Hierarchy) (c p : Handle) (place : Place) : Prop :=
  ∀ q place', h.ListedAt c q place' → q = p ∧ place' = place

def DistinctFree (h : Hierarchy) : Prop := ∀ p, (h.freeChildren p).Nodup

structure ListedOnce (h : Hierarchy) (c p : Handle) : Prop where
  once : (h.children p).count c = 1
  only : ∀ q, c ∈ h.children q → q = p

variable {h : Hierarchy} {c p : Handle}

theorem mem_children_iff_listedAt : c ∈ h.children p ↔ ∃ place, h.ListedAt c p place := by
  rw [mem_children_iff, Option.exists, or_comm]
  rfl

theorem mem_places_iff {contents : Contents} (found : h.contents? p = some contents)
    {place : Place} :
    (place, c) ∈ contents.places ↔ h.ListedAt c p place := by
  cases place <;>
    simp [Contents.places, ListedAt, freeChildren, occupant?, grid?, found, Grid.get?, Grid.entries,
      ← OrderedMap.mem_entries_iff]

theorem listedOnce_iff (distinct : h.DistinctFree) {place : Place}
    (listed : h.ListedAt c p place) : h.ListedOnce c p ↔ h.OnlyAt c p place := by
  have child : c ∈ h.children p := mem_children_iff_listedAt.mpr ⟨place, listed⟩
  cases found : h.contents? p with
  | none => simp [children, found] at child
  | some contents =>
    have free : h.freeChildren p = contents.free := by simp [freeChildren, found]
    have children : h.children p = contents.places.map Prod.snd := by
      simp [children, found, Contents.children_eq_places]
    have count : (h.children p).count c = 1 ↔ ∀ place', h.ListedAt c p place' → place' = place := by
      rw [children, count_map_snd_eq_one_iff (Contents.nodup_places (free ▸ distinct p))
        ((mem_places_iff found).mpr listed)]
      simp only [mem_places_iff found]
    constructor
    · rintro ⟨once, only⟩ q place' listed'
      obtain rfl := only q (mem_children_iff_listedAt.mpr ⟨place', listed'⟩)
      exact ⟨rfl, count.mp once place' listed'⟩
    · intro only
      refine ⟨count.mpr fun place' listed' => (only p place' listed').2, fun q child' => ?_⟩
      obtain ⟨place', listed'⟩ := mem_children_iff_listedAt.mp child'
      exact (only q place' listed').1

end Places

section Moves
variable {h : Hierarchy} {c p : Handle}

theorem listedAt_modify {change : Component → Component}
    (same : ∀ component, (change component).contents = component.contents) (d q : Handle)
    (place : Place) : (h.modify d change).ListedAt c q place ↔ h.ListedAt c q place := by
  cases place <;> simp [ListedAt, occupant?_modify h d q same, freeChildren_modify h d q same]

theorem listedAt_detach (distinct : h.DistinctFree) (own : h.parent? c = some p)
    (q : Handle) (place : Place) :
    (h.detach c).ListedAt c q place ↔ h.ListedAt c q place ∧ ¬(q = p ∧ place = h.cell? c) := by
  have forgotten : (h.detach c).ListedAt c q place ↔ (h.leave c).ListedAt c q place := by
    unfold detach
    rw [listedAt_modify]
    exact fun _ => rfl
  rw [forgotten, leave, own]
  cases seat : h.cell? c with
  | none =>
    cases place with
    | none =>
      simp only [ListedAt, freeChildren_removeFree, and_true]
      split
      · next same => simp [same, (distinct q).mem_erase_iff]
      · next other => simp [Ne.symm other]
    | some cell => simp [ListedAt, occupant?_removeFree]
  | some cell =>
    dsimp only
    split
    · cases place with
      | none => simp [ListedAt, freeChildren_removeFromGrid]
      | some cell' =>
        simp only [ListedAt, occupant?_removeFromGrid, Option.some.injEq]
        split <;> grind
    · next lost =>
      -- it was not in its cell, so nothing happens
      rw [holds_iff] at lost
      refine (and_iff_left_of_imp ?_).symm
      rintro listed ⟨rfl, rfl⟩
      exact lost listed

def add (h : Hierarchy) (p c : Handle) : Place → Hierarchy
  | some cell => h.addToGrid p c cell
  | none => h.addFree p c

variable (declared : h.Declared c) (panel : h.IsPanel p)

include panel in
theorem listedAt_add (place : Place) (q : Handle) (place' : Place) :
    (h.add p c place).ListedAt c q place' ↔
      (q = p ∧ place' = place) ∨ h.ListedAt c q place' := by
  cases place with
  | none =>
    cases place' with
    | none =>
      simp only [add, ListedAt, freeChildren_addFree panel]
      split <;> grind
    | some cell' => simp [add, ListedAt, occupant?_addFree]
  | some cell =>
    cases place' with
    | none => simp [add, ListedAt, freeChildren_addToGrid]
    | some cell' =>
      simp only [add, ListedAt, occupant?_addToGrid panel]
      split <;> grind

include declared panel in
theorem parent?_add (place : Place) : (h.add p c place).parent? c = some p := by
  cases place with
  | none => exact (parent?_addFree declared panel c).trans (if_pos rfl)
  | some cell => exact (parent?_addToGrid declared panel cell c).trans (if_pos rfl)

include declared panel in
theorem cell?_add (place : Place) : (h.add p c place).cell? c = place.or (h.cell? c) := by
  cases place with
  | none => exact cell?_addFree c
  | some cell => exact (cell?_addToGrid declared panel cell c).trans (if_pos rfl)

end Moves

section Calls
variable {h h' : Hierarchy}

inductive Call where
  | edit (change : Edit)
  | add (p c : Handle) (place : Place)
  | removeFromGrid (p : Handle) (cell : Cell) (shrink : Bool)
  | removeFree (p c : Handle)

def Call.apply (h : Hierarchy) : Call → Hierarchy
  | .edit change => change.apply h
  | .add p c place => if h.Declared c then h.add p c place else h
  | .removeFromGrid p cell shrink => (h.removeFromGrid p cell shrink).1
  | .removeFree p c => (h.removeFree p c).1

def called (calls : List Call) : Hierarchy := calls.foldl Call.apply .empty

namespace DistinctFree

theorem congr (distinct : h.DistinctFree) (same : ∀ p, h'.freeChildren p = h.freeChildren p) :
    h'.DistinctFree := by
  intro p
  rw [same]
  exact distinct p

theorem modify (distinct : h.DistinctFree) (c : Handle) {change : Component → Component}
    (same : ∀ component, (change component).contents = component.contents) :
    (h.modify c change).DistinctFree :=
  distinct.congr fun p => freeChildren_modify h c p same

theorem add (distinct : h.DistinctFree) (p c : Handle) (place : Place) :
    (h.add p c place).DistinctFree := by
  cases place with
  | some cell => exact distinct.congr (freeChildren_addToGrid cell)
  | none =>
    by_cases panel : h.IsPanel p
    · intro q
      rw [Hierarchy.add, freeChildren_addFree panel]
      split
      · next new => simpa using (distinct q).concat new.2
      · exact distinct q
    · have idle : h.add p c none = h := if_neg panel
      rwa [idle]

theorem removeFromGrid (distinct : h.DistinctFree) (p : Handle) (cell : Cell) (shrink : Bool) :
    (h.removeFromGrid p cell shrink).1.DistinctFree :=
  distinct.congr fun q => freeChildren_removeFromGrid h q p cell shrink

theorem removeFree (distinct : h.DistinctFree) (p c : Handle) :
    (h.removeFree p c).1.DistinctFree := by
  intro q
  rw [freeChildren_removeFree]
  split
  · exact (distinct q).erase c
  · exact distinct q

theorem detach (distinct : h.DistinctFree) (c : Handle) : (h.detach c).DistinctFree := by
  have left : (h.leave c).DistinctFree := by
    unfold leave
    split
    · exact distinct
    · split
      · split
        · exact distinct.removeFromGrid _ _ true
        · exact distinct
      · exact distinct.removeFree _ c
  exact left.modify c fun _ => rfl

theorem setParent (distinct : h.DistinctFree) (c : Handle) (p : Option Handle) :
    (h.setParent c p).DistinctFree := by
  have left := distinct.detach c
  cases p with
  | none => exact left
  | some p =>
    simp only [Hierarchy.setParent, enter]
    cases (h.detach c).cell? c with
    | some cell => exact left.add p c (some cell)
    | none => exact left.add p c none

theorem declare (distinct : h.DistinctFree) {kind : Kind} {name : String} {seat : SeatText}
    {parent : Option Handle} (made : h.declare kind name seat parent = .ok h') :
    h'.DistinctFree := by
  unfold Hierarchy.declare at made
  cases parsed : seat.parse with
  | error fault => simp [parsed, bind, Except.bind] at made
  | ok place =>
    simp only [parsed, bind, Except.bind] at made
    have added : DistinctFree ⟨h.components ++
        [⟨if name = "" then kind.name else name, true, place, none, kind.contents⟩]⟩ := by
      refine distinct.congr fun p => freeChildren_append h p ?_
      cases kind <;> simp [Kind.contents]
    cases parent with
    | none =>
      cases made
      exact added
    | some p =>
      cases made
      exact added.setParent _ (some p)

theorem edit (distinct : h.DistinctFree) (change : Edit) : (change.apply h).DistinctFree := by
  cases change with
  | configure p setting sets =>
    exact distinct.congr fun q => freeChildren_modifyGrid h q p _
  | perform operation =>
    simp only [Edit.apply]
    split
    · cases operation with
      | declare kind name seat parent =>
        simp only [Operation.apply]
        cases made : h.declare kind name seat parent with
        | error fault => exact distinct
        | ok after => exact distinct.declare made
      | setParent c p => exact distinct.setParent c p
      | setVisible c visible => exact distinct.modify c fun _ => rfl
    · exact distinct

theorem call (distinct : h.DistinctFree) (call : Call) : (call.apply h).DistinctFree := by
  cases call with
  | edit change => exact distinct.edit change
  | add p c place =>
    simp only [Call.apply]
    split
    · exact distinct.add p c place
    · exact distinct
  | removeFromGrid p cell shrink => exact distinct.removeFromGrid p cell shrink
  | removeFree p c => exact distinct.removeFree p c

end DistinctFree

theorem distinctFree_called (calls : List Call) : (called calls).DistinctFree := by
  have kept : ∀ {h : Hierarchy}, h.DistinctFree → (calls.foldl Call.apply h).DistinctFree := by
    induction calls with
    | nil => exact id
    | cons call rest ih => exact fun distinct => ih (distinct.call call)
  exact kept fun p => List.nodup_nil

end Calls

/-- What comes of adding a component: it is listed once, and by nobody after it left, exactly if it
was nowhere else. One that has a cell of its own never leaves the free children again. -/
structure Added (h after : Hierarchy) (c p : Handle) (place : Place) : Prop where
  parent : after.parent? c = some p
  listed : c ∈ after.children p
  once : after.ListedOnce c p ↔ h.OnlyAt c p place
  gone : (∀ q, c ∉ (after.setParent c none).children q) ↔
    h.OnlyAt c p place ∧ (place = none → h.cell? c = none)

theorem added_once_iff (calls : List Call) {c p : Handle} (declared : (called calls).Declared c)
    (panel : (called calls).IsPanel p) (place : Place) :
    Added (called calls) ((called calls).add p c place) c p place := by
  have distinct : ((called calls).add p c place).DistinctFree :=
    (distinctFree_called calls).add p c place
  have own := parent?_add declared panel place
  have here : ((called calls).add p c place).ListedAt c p place :=
    (listedAt_add panel place p place).mpr (.inl ⟨rfl, rfl⟩)
  have only : ((called calls).add p c place).OnlyAt c p place ↔
      (called calls).OnlyAt c p place := by
    simp only [OnlyAt, listedAt_add panel]
    grind
  refine ⟨own, mem_children_iff_listedAt.mpr ⟨place, here⟩, ?_, ?_⟩
  · rw [listedOnce_iff distinct here, only]
  · have left : (∀ q, c ∉ (((called calls).add p c place).setParent c none).children q) ↔
        ((called calls).add p c place).OnlyAt c p (place.or ((called calls).cell? c)) := by
      simp only [mem_children_iff_listedAt, setParent, not_exists, listedAt_detach distinct own,
        cell?_add declared panel, OnlyAt, not_and_not_right]
    rw [left]
    cases place with
    | some cell => simp [only]
    | none =>
      rw [← only]
      constructor
      · intro there
        have same := (there p none here).2
        simp only [Option.none_or] at same there
        rw [← same] at there ⊢
        exact ⟨there, fun _ => rfl⟩
      · rintro ⟨there, free⟩
        rwa [free rfl]

def strays : List Call :=
  [.edit (.perform (.declare .panel "first" (.cell ⟨0, 0⟩) none)),
    .edit (.perform (.declare .panel "second" (.cell ⟨0, 0⟩) none)),
    .edit (.perform (.declare .component "free" (.free .filling) (some 0))),
    .edit (.perform (.declare .component "gridded" (.cell ⟨1, 0⟩) (some 0)))]

theorem readded_child_is_listed_once :
    (called strays).Declared 3 ∧ (called strays).IsPanel 0 ∧
      ((called strays).add 0 3 (some ⟨1, 0⟩)).parent? 3 = some 0 ∧
      ((called strays).add 0 3 (some ⟨1, 0⟩)).ListedOnce 3 0 ∧
      ∀ q, 3 ∉ (((called strays).add 0 3 (some ⟨1, 0⟩)).setParent 3 none).children q := by
  have declared : (called strays).Declared 3 := by decide
  have panel : (called strays).IsPanel 0 := by decide
  have owners : ∀ q < (called strays).components.length,
      3 ∈ (called strays).children q → q = 0 := by
    decide
  have before : (called strays).OnlyAt 3 0 (some ⟨1, 0⟩) := by
    refine (listedOnce_iff (distinctFree_called strays) (by decide +kernel)).mp ⟨by decide, ?_⟩
    intro q child
    by_cases inside : q < (called strays).components.length
    · exact owners q inside child
    · have nobody : (called strays).get? q = none := List.getElem?_eq_none (not_lt.mp inside)
      simp [children, contents?, nobody] at child
  have added := added_once_iff strays declared panel (some ⟨1, 0⟩)
  exact ⟨declared, panel, added.parent, added.once.mpr before, added.gone.mpr ⟨before, by simp⟩⟩

/-- A free child that another panel takes into a cell stays with the first one for good, and so does
a gridded child that is added to the free children of its own panel. -/
theorem strays_stay_listed :
    (called strays).Declared 2 ∧ (called strays).IsPanel 1 ∧
      ¬((called strays).add 1 2 (some ⟨0, 0⟩)).ListedOnce 2 1 ∧
      2 ∈ (((called strays).add 1 2 (some ⟨0, 0⟩)).setParent 2 none).children 0 ∧
      ¬((called strays).add 0 3 none).ListedOnce 3 0 ∧
      3 ∈ (((called strays).add 0 3 none).setParent 3 none).children 0 := by
  refine ⟨by decide, by decide, fun listed => ?_, by decide, fun listed => ?_, by decide⟩
  · have former : 2 ∈ ((called strays).add 1 2 (some ⟨0, 0⟩)).children 0 := by decide
    exact absurd (listed.only 0 former) (by decide)
  · have twice : (((called strays).add 0 3 none).children 0).count 3 = 2 := by decide
    exact absurd listed.once (by simp [twice])

end Hierarchy
end FormulaLayout
