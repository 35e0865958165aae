/-! Sets of characters given by runs of code points. A set is the ascending list of the points at
which membership changes: the first opens a run, the second closes it, the third opens the next. An
odd number of points leaves the last run open. Code points below the first one cost one
comparison, so the tables answer quickly where formulas live. -/
namespace FormulaLayout.Text

def inRuns : List Nat → Nat → Bool
  | [], _ => false
  | [start], n => start ≤ n
  | start :: stop :: rest, n => if n < start then false else n < stop || inRuns rest n

theorem inRuns_of_lt_head {start n : Nat} {rest : List Nat} (below : n < start) :
    inRuns (start :: rest) n = false := by
  cases rest with
  | nil => simp [inRuns]; omega
  | cons stop rest => simp [inRuns, below]

theorem inRuns_of_mem_first {start stop n : Nat} {rest : List Nat} (above : start ≤ n)
    (below : n < stop) : inRuns (start :: stop :: rest) n = true := by
  simp [inRuns, Nat.not_lt.mpr above, below]

theorem inRuns_of_mem_rest {start stop n : Nat} {rest : List Nat} (above : start ≤ n)
    (later : inRuns rest n = true) : inRuns (start :: stop :: rest) n = true := by
  simp [inRuns, Nat.not_lt.mpr above, later]

def members : List Nat → List Nat
  | start :: stop :: rest => List.range' start (stop - start) ++ members rest
  | _ => []

theorem mem_members {runs : List Nat} (closed : runs.length % 2 = 0) {n : Nat}
    (h : inRuns runs n = true) : n ∈ members runs := by
  induction runs using members.induct with
  | case1 start stop rest ih =>
    have closed' : rest.length % 2 = 0 := by
      simp only [List.length_cons] at closed
      omega
    simp only [inRuns, Bool.if_false_left, Bool.and_eq_true, Bool.or_eq_true, Bool.not_eq_true',
      decide_eq_false_iff_not, decide_eq_true_eq] at h
    rw [members, List.mem_append, List.mem_range'_1]
    obtain ⟨above, below | later⟩ := h
    · exact .inl (by omega)
    · exact .inr (ih closed' later)
  | case2 runs short =>
    match runs with
    | [] => simp [inRuns] at h
    | [start] => simp at closed
    | start :: stop :: rest => exact absurd rfl (short start stop rest)

/-- One way along the runs: up to the run from `start` to `stop` they leave it alone, and what is
behind it is left to `later`. -/
def leaveAlone (start stop : Nat) (later : List Nat → Bool) : List Nat → Bool
  | [] => true
  | [start'] => stop ≤ start' && later [start']
  | start' :: stop' :: rest =>
    if stop ≤ start' then later (start' :: stop' :: rest)
    else stop' ≤ start && leaveAlone start stop later rest

/-- Whether no point is in both sets. The last run of the first is closed. -/
def apart : List Nat → List Nat → Bool
  | start :: stop :: rest => leaveAlone start stop (apart rest)
  | [_] => fun _ => false
  | [] => fun _ => true

theorem inRuns_of_leaveAlone {start stop n : Nat} {rest runs : List Nat} {later : List Nat → Bool}
    (alone : leaveAlone start stop later runs = true)
    (mem : inRuns (start :: stop :: rest) n = true)
    (behind : ∀ runs, later runs = true → inRuns rest n = true → inRuns runs n = false) :
    inRuns runs n = false := by
  simp only [inRuns, Bool.if_false_left, Bool.and_eq_true, Bool.or_eq_true, Bool.not_eq_true',
    decide_eq_false_iff_not, decide_eq_true_eq] at mem
  obtain ⟨above, mem⟩ := mem
  have front {runs : List Nat} {start' : Nat} (gap : stop ≤ start')
      (left : later (start' :: runs) = true) : inRuns (start' :: runs) n = false :=
    mem.elim (fun below => inRuns_of_lt_head (Nat.lt_of_lt_of_le below gap)) (behind _ left)
  induction runs using leaveAlone.induct stop with
  | case1 => rfl
  | case2 start' =>
    simp only [leaveAlone, Bool.and_eq_true, decide_eq_true_eq] at alone
    exact front alone.1 alone.2
  | case3 start' stop' rest gap =>
    rw [leaveAlone, if_pos gap] at alone
    exact front gap alone
  | case4 start' stop' rest gap ih =>
    rw [leaveAlone, if_neg gap, Bool.and_eq_true, decide_eq_true_eq] at alone
    obtain ⟨passed, alone⟩ := alone
    have outside : ¬n < stop' := Nat.not_lt.mpr (Nat.le_trans passed (Nat.not_lt.mp above))
    simp [inRuns, outside, ih alone]

theorem inRuns_of_apart {runs runs' : List Nat} (h : apart runs runs' = true) {n : Nat}
    (mem : inRuns runs n = true) : inRuns runs' n = false := by
  induction runs using members.induct generalizing runs' with
  | case1 start stop rest ih => exact inRuns_of_leaveAlone h mem fun _ => ih
  | case2 runs short =>
    match runs with
    | [] => cases mem
    | [start] => cases h
    | start :: stop :: rest => exact absurd rfl (short start stop rest)

end FormulaLayout.Text
