import FormulaLayout.Proofs.Hierarchy.Ownership
import Mathlib.Data.List.Perm.Subperm
import Mathlib.Logic.Relation

/-! Hierarchies without a panel within itself in which every component is listed once. Below any of
its components such a hierarchy is a tree. What is proved of all lists of components from the
children of the first and from the others holds of all of them, and the way down is never longer
than there are components. -/
namespace FormulaLayout.Hierarchy
open Relation

def Lists (h : Hierarchy) (p c : Handle) : Prop := c ∈ h.children p

abbrev Descends (h : Hierarchy) (p c : Handle) : Prop := ReflTransGen h.Lists p c

def Acyclic (h : Hierarchy) : Prop := ∀ c, ¬TransGen h.Lists c c

structure Forest (h : Hierarchy) : Prop where
  acyclic : h.Acyclic
  once : ∀ p, (h.children p).Nodup
  owner : ∀ p q c, c ∈ h.children p → c ∈ h.children q → p = q

/-- Editing never lists a component twice. That no panel gets into itself is up to the author. -/
theorem forest_edited {edits : List Edit} (acyclic : (edited edits).Acyclic) :
    Forest (edited edits) where
  acyclic := acyclic
  once := (consistent_edited edits).nodup_children
  owner _ _ _ child child' := (consistent_edited edits).owner child child'

variable {h : Hierarchy}

theorem declared_iff_lt {c : Handle} : h.Declared c ↔ c < h.components.length := by
  simp [Declared, get?]

theorem declared_of_isPanel {p : Handle} (panel : h.IsPanel p) : h.Declared p := by
  unfold IsPanel contents? at panel
  unfold Declared
  cases found : h.get? p with
  | none => simp [found] at panel
  | some component => rfl

theorem children_of_not_isPanel {p : Handle} (plain : ¬h.IsPanel p) : h.children p = [] := by
  unfold IsPanel at plain
  unfold children
  cases found : h.contents? p with
  | none => rfl
  | some contents => simp [found] at plain

theorem isPanel_of_child {p c : Handle} (child : c ∈ h.children p) : h.IsPanel p := by
  by_contra plain
  rw [children_of_not_isPanel plain] at child
  cases child

theorem acyclic_of_lt (later : ∀ p < h.components.length, ∀ c ∈ h.children p, p < c) :
    h.Acyclic := by
  have next : ∀ {p c}, h.Lists p c → p < c := fun child =>
    later _ (declared_iff_lt.mp (declared_of_isPanel (isPanel_of_child child))) _ child
  have below : ∀ {p c}, TransGen h.Lists p c → p < c := by
    intro p c way
    induction way with
    | single child => exact next child
    | tail _ child ih => exact ih.trans (next child)
  exact fun c cycle => Nat.lt_irrefl c (below cycle)

section Depth

/-- The way down from the panel passes at most so many panels, itself included. -/
def Shallow (h : Hierarchy) : Nat → Handle → Prop
  | 0, _ => False
  | depth + 1, p => ∀ c ∈ h.children p, h.IsPanel c → h.Shallow depth c

theorem length_le_of_declared {path : List Handle} (distinct : path.Nodup)
    (declared : ∀ c ∈ path, h.Declared c) : path.length ≤ h.components.length := by
  have bounded : path ⊆ List.range h.components.length := by
    intro c listed
    rw [List.mem_range]
    exact declared_iff_lt.mp (declared c listed)
  simpa using (List.subperm_of_subset distinct bounded).length_le

/-- The panels above are distinct, so they use up the components. -/
theorem Acyclic.shallow_below (acyclic : h.Acyclic) {depth : Nat} {p : Handle}
    {above : List Handle} (distinct : (p :: above).Nodup)
    (leading : ∀ a ∈ p :: above, h.Declared a ∧ h.Descends a p)
    (enough : h.components.length ≤ above.length + depth) : h.Shallow depth p := by
  induction depth generalizing p above with
  | zero =>
    -- no depth left, and one panel more on the way than there are components
    have used := length_le_of_declared distinct fun a listed => (leading a listed).1
    rw [List.length_cons] at used
    omega
  | succ depth ih =>
    intro c child panel
    have further : ∀ a ∈ p :: above, TransGen h.Lists a c := fun a listed =>
      TransGen.tail' (leading a listed).2 child
    have fresh : c ∉ p :: above := fun listed => acyclic c (further c listed)
    refine ih (List.nodup_cons.mpr ⟨fresh, distinct⟩) (fun a listed => ?_) ?_
    · obtain rfl | before := List.mem_cons.mp listed
      · exact ⟨declared_of_isPanel panel, .refl⟩
      · exact ⟨(leading a before).1, (further a before).to_reflTransGen⟩
    · rw [List.length_cons]
      omega

theorem Acyclic.shallow (acyclic : h.Acyclic) {p : Handle} (declared : h.Declared p) :
    h.Shallow h.components.length p := by
  refine acyclic.shallow_below (List.nodup_singleton p) ?_ (by simp)
  intro a listed
  rw [List.mem_singleton.mp listed]
  exact ⟨declared, .refl⟩

section Induction
variable {P : List Handle → Prop} (nil : P [])
  (cons : ∀ {c siblings}, P (h.children c) → P siblings → P (c :: siblings))
include nil cons

theorem of_children {siblings : List Handle} (each : ∀ c ∈ siblings, P (h.children c)) :
    P siblings := by
  induction siblings with
  | nil => exact nil
  | cons c siblings ih =>
    exact cons (each c List.mem_cons_self) (ih fun d listed => each d (List.mem_cons_of_mem c listed))

theorem children_induction {depth : Nat} {c : Handle}
    (within : h.IsPanel c → h.Shallow depth c) : P (h.children c) := by
  induction depth generalizing c with
  | zero =>
    rw [children_of_not_isPanel within]
    exact nil
  | succ depth ih =>
    refine of_children nil cons fun d child => ih ?_
    exact within (isPanel_of_child child) d child

theorem Acyclic.induction (acyclic : h.Acyclic) (roots : List Handle) : P roots :=
  of_children nil cons fun _ _ => children_induction nil cons fun panel =>
    acyclic.shallow (declared_of_isPanel panel)

end Induction

end Depth

section PreOrder

/-- All that descends from the roots, each before what is below it, and this before the next. -/
inductive PreOrder (h : Hierarchy) : List Handle → List Handle → Prop
  | nil : PreOrder h [] []
  | cons {c : Handle} {siblings below others : List Handle}
      (first : PreOrder h (h.children c) below) (rest : PreOrder h siblings others) :
      PreOrder h (c :: siblings) (c :: below ++ others)

theorem Acyclic.exists_preOrder (acyclic : h.Acyclic) (roots : List Handle) :
    ∃ order, h.PreOrder roots order := by
  refine Acyclic.induction (P := fun roots => ∃ order, h.PreOrder roots order) ⟨[], .nil⟩ ?_ acyclic
    roots
  rintro c siblings ⟨below, first⟩ ⟨others, rest⟩
  exact ⟨_, first.cons rest⟩

theorem PreOrder.mem_iff {roots order : List Handle} (preOrder : h.PreOrder roots order)
    (x : Handle) : x ∈ order ↔ ∃ root ∈ roots, h.Descends root x := by
  induction preOrder with
  | nil => simp
  | @cons c siblings below others first rest ihFirst ihRest =>
    have head : h.Descends c x ↔ x = c ∨ x ∈ below := by
      rw [ihFirst]
      exact ReflTransGen.cases_head_iff.trans (or_congr eq_comm Iff.rfl)
    simp only [List.cons_append, List.mem_cons, List.mem_append, exists_eq_or_imp, head, ihRest,
      or_assoc]

theorem Forest.total (forest : Forest h) {c d x : Handle} (fromC : h.Descends c x)
    (fromD : h.Descends d x) : h.Descends c d ∨ h.Descends d c := by
  have unique : Relator.RightUnique (Function.swap h.Lists) := fun x p q child child' =>
    forest.owner p q x child child'
  obtain back | back := ReflTransGen.total_of_right_unique unique (reflTransGen_swap.mpr fromC)
    (reflTransGen_swap.mpr fromD)
  · exact .inr (reflTransGen_swap.mp back)
  · exact .inl (reflTransGen_swap.mp back)

theorem Forest.eq_of_descends_sibling (forest : Forest h) {p c d : Handle}
    (childC : c ∈ h.children p) (childD : d ∈ h.children p) (down : h.Descends c d) : c = d := by
  obtain same | ⟨q, above, last⟩ := ReflTransGen.cases_tail_iff .. |>.mp down
  · exact same.symm
  · obtain rfl := forest.owner q p d last childD
    exact absurd (TransGen.head' childC above) (forest.acyclic q)

structure Separate (h : Hierarchy) (roots : List Handle) : Prop where
  distinct : roots.Nodup
  apart : ∀ c ∈ roots, ∀ d ∈ roots, ∀ x, h.Descends c x → h.Descends d x → c = d

theorem Forest.separate_children (forest : Forest h) (p : Handle) :
    h.Separate (h.children p) where
  distinct := forest.once p
  apart c childC d childD x fromC fromD := by
    obtain down | up := forest.total fromC fromD
    · exact forest.eq_of_descends_sibling childC childD down
    · exact (forest.eq_of_descends_sibling childD childC up).symm

theorem Separate.tail {c : Handle} {siblings : List Handle} (separate : h.Separate (c :: siblings)) :
    h.Separate siblings where
  distinct := separate.distinct.of_cons
  apart a siblingA b siblingB :=
    separate.apart a (List.mem_cons_of_mem c siblingA) b (List.mem_cons_of_mem c siblingB)

theorem Separate.foreign {c d x : Handle} {siblings : List Handle}
    (separate : h.Separate (c :: siblings)) (sibling : d ∈ siblings) (fromC : h.Descends c x) :
    ¬h.Descends d x := by
  intro fromD
  obtain rfl := separate.apart c List.mem_cons_self d (List.mem_cons_of_mem c sibling) x fromC fromD
  exact (List.nodup_cons.mp separate.distinct).1 sibling

theorem PreOrder.nodup (forest : Forest h) {roots order : List Handle}
    (preOrder : h.PreOrder roots order) (separate : h.Separate roots) : order.Nodup := by
  induction preOrder with
  | nil => exact List.nodup_nil
  | @cons c siblings below others first rest ihFirst ihRest =>
    have under : ∀ {x}, x ∈ below → TransGen h.Lists c x := fun listed =>
      TransGen.head'_iff.mpr ((first.mem_iff _).mp listed)
    have foreign : ∀ {x}, h.Descends c x → x ∉ others := by
      intro x down listed
      obtain ⟨d, sibling, down'⟩ := (rest.mem_iff x).mp listed
      exact separate.foreign sibling down down'
    -- `c` is neither below itself nor below a sibling, and nothing is below both
    rw [List.cons_append, List.nodup_cons, List.mem_append, List.nodup_append]
    refine ⟨fun listed => ?_, ihFirst (forest.separate_children c), ihRest separate.tail,
      fun x inBelow y inOthers same => ?_⟩
    · obtain inBelow | inOthers := listed
      · exact forest.acyclic c (under inBelow)
      · exact foreign .refl inOthers
    · exact foreign (under inBelow).to_reflTransGen (same ▸ inOthers)

end PreOrder

end FormulaLayout.Hierarchy
