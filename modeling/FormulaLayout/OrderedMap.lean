/-! Maps that remember the order of their keys. A new key goes last, a key that is already there
keeps its place when its value changes, and a key that was erased and comes back is new. No key
stands twice, and the type says so. -/
namespace FormulaLayout

structure OrderedMap (κ : Type) (ν : Type) where
  entries : List (κ × ν)
  distinct : (entries.map Prod.fst).Nodup

namespace OrderedMap
variable {κ ν : Type} [DecidableEq κ]

def empty : OrderedMap κ ν := ⟨[], List.nodup_nil⟩

instance : EmptyCollection (OrderedMap κ ν) := ⟨empty⟩
instance : Inhabited (OrderedMap κ ν) := ⟨empty⟩

def keys (m : OrderedMap κ ν) : List κ := m.entries.map Prod.fst
def values (m : OrderedMap κ ν) : List ν := m.entries.map Prod.snd
def size (m : OrderedMap κ ν) : Nat := m.entries.length

omit [DecidableEq κ] in
@[ext] theorem ext {m n : OrderedMap κ ν} (h : m.entries = n.entries) : m = n := by
  cases m; cases n; simp_all

instance [DecidableEq ν] : DecidableEq (OrderedMap κ ν) := fun m n =>
  decidable_of_iff (m.entries = n.entries) ⟨ext, fun h => h ▸ rfl⟩

omit [DecidableEq κ] in
theorem nodup_keys (m : OrderedMap κ ν) : m.keys.Nodup := m.distinct

private def lookupIn (k : κ) : List (κ × ν) → Option ν
  | [] => none
  | (key, value) :: rest => if key = k then some value else lookupIn k rest

private def insertIn (k : κ) (v : ν) : List (κ × ν) → List (κ × ν)
  | [] => [(k, v)]
  | (key, value) :: rest =>
    if key = k then (k, v) :: rest else (key, value) :: insertIn k v rest

def get? (m : OrderedMap κ ν) (k : κ) : Option ν := lookupIn k m.entries

def contains (m : OrderedMap κ ν) (k : κ) : Bool := (m.get? k).isSome

private theorem keys_insertIn (k : κ) (v : ν) (entries : List (κ × ν)) :
    (insertIn k v entries).map Prod.fst =
      if k ∈ entries.map Prod.fst then entries.map Prod.fst else entries.map Prod.fst ++ [k] := by
  induction entries with
  | nil => rfl
  | cons head rest ih =>
    by_cases h : head.1 = k
    · simp [insertIn, h]
    · have ne : k ≠ head.1 := fun e => h e.symm
      simp only [insertIn, h, if_false, List.map_cons, ih, List.mem_cons, ne, false_or]
      split <;> simp

def insert (m : OrderedMap κ ν) (k : κ) (v : ν) : OrderedMap κ ν :=
  ⟨insertIn k v m.entries, by
    rw [keys_insertIn]
    split
    · exact m.distinct
    · next absent =>
      rw [List.nodup_append]
      refine ⟨m.distinct, by simp, ?_⟩
      intro a ha b hb same
      simp only [List.mem_singleton] at hb
      exact absent (hb ▸ same ▸ ha)⟩

def erase (m : OrderedMap κ ν) (k : κ) : OrderedMap κ ν :=
  ⟨m.entries.filter (·.1 ≠ k), m.distinct.sublist (List.filter_sublist.map _)⟩

def ofList (entries : List (κ × ν)) : OrderedMap κ ν :=
  entries.foldl (fun m entry => m.insert entry.1 entry.2) empty

private theorem insertIn_of_not_mem {k : κ} {entries : List (κ × ν)}
    (fresh : k ∉ entries.map Prod.fst) (v : ν) : insertIn k v entries = entries ++ [(k, v)] := by
  induction entries with
  | nil => rfl
  | cons head rest ih =>
    rw [List.map_cons, List.mem_cons, not_or] at fresh
    have away : head.1 ≠ k := fun e => fresh.1 e.symm
    simp [insertIn, away, ih fresh.2]

theorem entries_insert_of_not_mem {m : OrderedMap κ ν} {k : κ} (fresh : k ∉ m.keys) (v : ν) :
    (m.insert k v).entries = m.entries ++ [(k, v)] :=
  insertIn_of_not_mem fresh v

theorem keys_insert (m : OrderedMap κ ν) (k : κ) (v : ν) :
    (m.insert k v).keys = if k ∈ m.keys then m.keys else m.keys ++ [k] :=
  keys_insertIn k v m.entries

theorem entries_erase (m : OrderedMap κ ν) (k : κ) :
    (m.erase k).entries = m.entries.filter (·.1 ≠ k) := rfl

private theorem filter_of_not_mem {k : κ} {entries : List (κ × ν)}
    (fresh : k ∉ entries.map Prod.fst) : entries.filter (·.1 ≠ k) = entries := by
  refine List.filter_eq_self.mpr fun entry listed => decide_eq_true ?_
  rintro rfl
  exact fresh (List.mem_map_of_mem listed)

theorem erase_of_not_mem {m : OrderedMap κ ν} {k : κ} (fresh : k ∉ m.keys) : m.erase k = m :=
  ext (filter_of_not_mem fresh)

private theorem insertIn_of_split {k : κ} {v : ν} {before after : List (κ × ν)}
    (fresh : k ∉ before.map Prod.fst) (w : ν) :
    insertIn k w (before ++ (k, v) :: after) = before ++ (k, w) :: after := by
  induction before with
  | nil => simp [insertIn]
  | cons head rest ih =>
    rw [List.map_cons, List.mem_cons, not_or] at fresh
    have away : head.1 ≠ k := fun e => fresh.1 e.symm
    simp [insertIn, away, ih fresh.2]

section Split
variable {m : OrderedMap κ ν} {k : κ} {v : ν} {before after : List (κ × ν)}
  (split : m.entries = before ++ (k, v) :: after)
include split

omit [DecidableEq κ] in
theorem not_mem_of_split : k ∉ before.map Prod.fst ∧ k ∉ after.map Prod.fst := by
  have distinct := m.distinct
  rw [split, List.map_append, List.map_cons, List.nodup_append, List.nodup_cons] at distinct
  exact ⟨fun early => distinct.2.2 k early k List.mem_cons_self rfl, distinct.2.1.1⟩

theorem entries_insert_of_split (w : ν) : (m.insert k w).entries = before ++ (k, w) :: after :=
  (congrArg (insertIn k w) split).trans (insertIn_of_split (not_mem_of_split split).1 w)

theorem entries_erase_of_split : (m.erase k).entries = before ++ after := by
  obtain ⟨early, late⟩ := not_mem_of_split split
  rw [entries_erase, split, List.filter_append, List.filter_cons_of_neg (by simp),
    filter_of_not_mem early, filter_of_not_mem late]

end Split

private theorem lookupIn_insertIn (k k' : κ) (v : ν) (entries : List (κ × ν)) :
    lookupIn k' (insertIn k v entries) = if k = k' then some v else lookupIn k' entries := by
  induction entries with
  | nil => simp [insertIn, lookupIn]
  | cons head rest ih =>
    by_cases h : head.1 = k
    · by_cases same : k = k' <;> simp [insertIn, lookupIn, h, same]
    · by_cases same : k = k'
      · subst same
        simp [insertIn, lookupIn, h, ih]
      · have kept : insertIn k v (head :: rest) = head :: insertIn k v rest := by
          simp [insertIn, h]
        simp only [kept, lookupIn, ih, same, if_false]

theorem get?_insert (m : OrderedMap κ ν) (k k' : κ) (v : ν) :
    (m.insert k v).get? k' = if k = k' then some v else m.get? k' :=
  lookupIn_insertIn k k' v m.entries

private theorem lookupIn_filter (k k' : κ) (entries : List (κ × ν)) :
    lookupIn k' (entries.filter (·.1 ≠ k)) = if k = k' then none else lookupIn k' entries := by
  induction entries with
  | nil => simp [lookupIn]
  | cons head rest ih =>
    by_cases h : head.1 = k
    · by_cases same : k = k'
      · simp_all
      · have away : head.1 ≠ k' := fun e => same (h ▸ e)
        simp_all [lookupIn]
    · by_cases same : k = k'
      · have away : head.1 ≠ k' := fun e => h (e.trans same.symm)
        simp_all [lookupIn]
      · by_cases here : head.1 = k' <;> simp_all [lookupIn]

theorem get?_erase (m : OrderedMap κ ν) (k k' : κ) :
    (m.erase k).get? k' = if k = k' then none else m.get? k' :=
  lookupIn_filter k k' m.entries

theorem mem_keys_insert (m : OrderedMap κ ν) (k k' : κ) (v : ν) :
    k' ∈ (m.insert k v).keys ↔ k' = k ∨ k' ∈ m.keys := by
  rw [keys_insert]
  split
  · next present => exact ⟨.inr, fun h => h.elim (fun same => same ▸ present) id⟩
  · rw [List.mem_append, List.mem_singleton, or_comm]

theorem mem_keys_erase (m : OrderedMap κ ν) (k k' : κ) :
    k' ∈ (m.erase k).keys ↔ k' ≠ k ∧ k' ∈ m.keys := by
  rw [keys, entries_erase, keys, List.mem_map, List.mem_map]
  constructor
  · rintro ⟨entry, listed, rfl⟩
    obtain ⟨present, away⟩ := List.mem_filter.mp listed
    exact ⟨of_decide_eq_true away, entry, present, rfl⟩
  · rintro ⟨away, entry, present, rfl⟩
    exact ⟨entry, List.mem_filter.mpr ⟨present, decide_eq_true away⟩, rfl⟩

private theorem lookupIn_isSome (k : κ) (entries : List (κ × ν)) :
    (lookupIn k entries).isSome = true ↔ k ∈ entries.map Prod.fst := by
  induction entries with
  | nil => simp [lookupIn]
  | cons head rest ih =>
    by_cases h : head.1 = k
    · simp [lookupIn, h]
    · have ne : k ≠ head.1 := fun e => h e.symm
      simp [lookupIn, h, ne, ih]

theorem contains_iff_mem_keys (m : OrderedMap κ ν) (k : κ) :
    m.contains k = true ↔ k ∈ m.keys :=
  lookupIn_isSome k m.entries

private theorem lookupIn_of_mem {k : κ} {v : ν} {entries : List (κ × ν)}
    (distinct : (entries.map Prod.fst).Nodup) (h : (k, v) ∈ entries) :
    lookupIn k entries = some v := by
  induction entries with
  | nil => simp at h
  | cons head rest ih =>
    simp only [List.map_cons, List.nodup_cons] at distinct
    rcases List.mem_cons.mp h with rfl | later
    · simp [lookupIn]
    · have away : head.1 ≠ k := fun e =>
        distinct.1 (e ▸ List.mem_map.mpr ⟨(k, v), later, rfl⟩)
      simp [lookupIn, away, ih distinct.2 later]

private theorem mem_of_lookupIn {k : κ} {v : ν} {entries : List (κ × ν)}
    (h : lookupIn k entries = some v) : (k, v) ∈ entries := by
  induction entries with
  | nil => simp [lookupIn] at h
  | cons head rest ih =>
    by_cases here : head.1 = k
    · simp [lookupIn, here] at h
      subst here h
      exact List.mem_cons_self
    · exact List.mem_cons_of_mem _ (ih (by simpa [lookupIn, here] using h))

theorem mem_entries_iff (m : OrderedMap κ ν) (k : κ) (v : ν) :
    (k, v) ∈ m.entries ↔ m.get? k = some v :=
  ⟨lookupIn_of_mem m.distinct, mem_of_lookupIn⟩

section MapValues
variable {μ : Type} (f : ν → μ)

omit [DecidableEq κ] in
def mapValues (m : OrderedMap κ ν) : OrderedMap κ μ :=
  ⟨m.entries.map fun entry => (entry.1, f entry.2), by
    rw [List.map_map]
    exact m.distinct⟩

private theorem insertIn_map (k : κ) (v : ν) (entries : List (κ × ν)) :
    insertIn k (f v) (entries.map fun entry => (entry.1, f entry.2)) =
      (insertIn k v entries).map fun entry => (entry.1, f entry.2) := by
  induction entries with
  | nil => rfl
  | cons head rest ih =>
    simp only [List.map_cons, insertIn, ih]
    split <;> rfl

theorem mapValues_insert (m : OrderedMap κ ν) (k : κ) (v : ν) :
    (m.insert k v).mapValues f = (m.mapValues f).insert k (f v) :=
  ext (insertIn_map f k v m.entries).symm

end MapValues

section MapKeys
variable {κ' : Type} {f : κ → κ'} (injective : Function.Injective f)
include injective

omit [DecidableEq κ] in
def mapKeys (m : OrderedMap κ ν) : OrderedMap κ' ν :=
  ⟨m.entries.map fun entry => (f entry.1, entry.2), by
    rw [List.map_map]
    refine List.pairwise_map.mpr ((List.pairwise_map.mp m.distinct).imp ?_)
    exact fun apart same => apart (injective same)⟩

private theorem lookupIn_map [DecidableEq κ'] (k : κ) (entries : List (κ × ν)) :
    lookupIn (f k) (entries.map fun entry => (f entry.1, entry.2)) = lookupIn k entries := by
  induction entries with
  | nil => rfl
  | cons head rest ih => simp only [List.map_cons, lookupIn, ih, injective.eq_iff]

theorem get?_mapKeys [DecidableEq κ'] (m : OrderedMap κ ν) (k : κ) :
    (m.mapKeys injective).get? (f k) = m.get? k :=
  lookupIn_map injective k m.entries

end MapKeys

end OrderedMap
end FormulaLayout
