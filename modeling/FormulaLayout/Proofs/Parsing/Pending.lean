import FormulaLayout.Proofs.Parsing.Grammar
import Mathlib.Data.Nat.Init

/-! Pending connectives as tiers of a derivation. A value that is complete up to a tier, with looser
connectives pending, is completed by the tokens behind it: tier after tier goes on as far as its
connective stands there. The next connective decides all of that. The tiers above it stop, what
they and its own tier have pending is joined, and it waits for the right operand itself. -/
namespace FormulaLayout

abbrev Derives (symbol : Symbol) (tokens rest : List Token) (tree : Formula) : Prop :=
  Nonempty (Derivation symbol tokens rest tree)

theorem derives_tightest_iff {flip : Bool} {tokens rest : List Token} {tree : Formula} :
    Derives (.tier flip signedLevel) tokens rest tree ↔ Derives (.signed flip) tokens rest tree := by
  constructor
  · rintro ⟨d⟩
    cases d with
    | tier loose => exact absurd loose (Nat.lt_irrefl _)
    | tightest signed => exact ⟨signed⟩
  · rintro ⟨signed⟩
    exact ⟨.tightest signed⟩

theorem derives_tier_iff {flip : Bool} {level : Nat} (loose : level < signedLevel)
    {tokens rest : List Token} {tree : Formula} :
    Derives (.tier flip level) tokens rest tree ↔
      ∃ middle left, Derives (.tier flip (level + 1)) tokens middle left ∧
        Derives (.more level left) middle rest tree := by
  constructor
  · rintro ⟨d⟩
    cases d with
    | tier loose first more => exact ⟨_, _, ⟨first⟩, ⟨more⟩⟩
    | tightest => exact absurd loose (Nat.lt_irrefl _)
  · rintro ⟨middle, left, ⟨first⟩, ⟨more⟩⟩
    exact ⟨.tier loose first more⟩

theorem derives_more_iff_of_apart {level : Nat} {left tree : Formula} {tokens rest : List Token}
    (idle : ∀ connective flip start, Joins connective flip tokens start → connective.tier ≠ level) :
    Derives (.more level left) tokens rest tree ↔ tokens = rest ∧ left = tree := by
  constructor
  · rintro ⟨d⟩
    cases d with
    | stop => exact ⟨rfl, rfl⟩
    | join here joins => exact absurd here (idle _ _ _ joins)
  · rintro ⟨rfl, rfl⟩
    exact ⟨.stop⟩

theorem derives_more_iff_of_joins {connective : Connective} {flip : Bool} {left tree : Formula}
    {tokens start rest : List Token} (joins : Joins connective flip tokens start) :
    Derives (.more connective.tier left) tokens rest tree ↔
      (tokens = rest ∧ left = tree) ∨
        ∃ middle right, Derives (.tier flip (connective.tier + 1)) start middle right ∧
          Derives (.more connective.tier (connective.join left right)) middle rest tree := by
  constructor
  · rintro ⟨d⟩
    cases d with
    | stop => exact .inl ⟨rfl, rfl⟩
    | join here joins' operand more =>
      obtain ⟨rfl, rfl, rfl⟩ := joins.unique joins'
      exact .inr ⟨_, _, ⟨operand⟩, ⟨more⟩⟩
  · rintro (⟨rfl, rfl⟩ | ⟨middle, right, ⟨operand⟩, ⟨more⟩⟩)
    · exact ⟨.stop⟩
    · exact ⟨.join rfl joins operand more⟩

namespace Pending

theorem collapse_collapsed {level level' : Nat} (tighter : level ≤ level') (pending : Pending)
    (value value' : Formula) :
    (pending.collapse level value).1.collapse level' value' =
      ((pending.collapse level value).1, value') := by
  induction pending generalizing value with
  | nil => rfl
  | cons head rest ih =>
    obtain ⟨connective, left⟩ := head
    simp only [collapse]
    split
    · exact ih _
    · next looser =>
      simp only [collapse]
      rw [if_neg (by omega)]

theorem collapse_collapse {level level' : Nat} (tighter : level ≤ level') (pending : Pending)
    (value : Formula) :
    (pending.collapse level' value).1.collapse level (pending.collapse level' value).2 =
      pending.collapse level value := by
  induction pending generalizing value with
  | nil => rfl
  | cons head rest ih =>
    obtain ⟨connective, left⟩ := head
    by_cases joined : level' ≤ connective.tier
    · simp only [collapse]
      rw [if_pos joined, if_pos (Nat.le_trans tighter joined)]
      exact ih _
    · simp only [collapse]
      rw [if_neg joined]
      rfl

/-- What a value and the tokens behind it still yield, where the value is complete up to a tier and
the connectives of looser tiers are pending. -/
def Completes : Nat → Pending → Formula → List Token → List Token → Formula → Prop
  | 0, pending, value, tokens, rest, tree => pending = [] ∧ tokens = rest ∧ value = tree
  | level + 1, pending, value, tokens, rest, tree =>
    ∃ middle value', Derives (.more level (pending.collapse level value).2) tokens middle value' ∧
      Completes level (pending.collapse level value).1 value' middle rest tree

theorem completes_congr {level : Nat} {pending pending' : Pending} {value value' : Formula}
    (same : pending.collapse level value = pending'.collapse level value')
    (tokens rest : List Token) (tree : Formula) :
    pending.Completes (level + 1) value tokens rest tree ↔
      pending'.Completes (level + 1) value' tokens rest tree := by
  simp only [Completes, same]

theorem completes_iff_of_apart {tokens : List Token} (apart : Apart 0 tokens) (level : Nat)
    (pending : Pending) (value : Formula) (rest : List Token) (tree : Formula) :
    pending.Completes (level + 1) value tokens rest tree ↔
      tokens = rest ∧ pending.close value = tree := by
  have idle (level : Nat) : ∀ connective flip start, Joins connective flip tokens start →
      connective.tier ≠ level :=
    fun connective flip start joins => absurd (apart connective flip start joins) (Nat.not_lt_zero _)
  induction level generalizing pending value with
  | zero =>
    simp only [Completes, derives_more_iff_of_apart (idle 0), collapse_zero]
    constructor
    · rintro ⟨middle, value', ⟨rfl, rfl⟩, -, rfl, rfl⟩
      exact ⟨rfl, rfl⟩
    · rintro ⟨rfl, rfl⟩
      exact ⟨_, _, ⟨rfl, rfl⟩, trivial, rfl, rfl⟩
  | succ level ih =>
    have closed := collapse_collapse (Nat.zero_le (level + 1)) pending value
    rw [collapse_zero, collapse_zero, Prod.mk.injEq] at closed
    rw [Completes]
    simp only [derives_more_iff_of_apart (idle (level + 1))]
    rw [← closed.2]
    constructor
    · rintro ⟨middle, value', ⟨rfl, rfl⟩, completes⟩
      exact (ih _ _).mp completes
    · exact fun joined => ⟨_, _, ⟨rfl, rfl⟩, (ih _ _).mpr joined⟩

theorem completes_above {connective : Connective} {flip : Bool} {tokens start : List Token}
    (joins : Joins connective flip tokens start) {level : Nat} (tighter : connective.tier ≤ level)
    (pending : Pending) (value : Formula) (rest : List Token) (tree : Formula) :
    pending.Completes (level + 1) value tokens rest tree ↔
      pending.Completes (connective.tier + 1) value tokens rest tree := by
  induction level, tighter using Nat.le_induction generalizing pending value with
  | base => rfl
  | succ level tighter ih =>
    have idle : ∀ connective' flip' start', Joins connective' flip' tokens start' →
        connective'.tier ≠ level + 1 := by
      intro connective' flip' start' joins'
      obtain ⟨rfl, -, -⟩ := joins.unique joins'
      omega
    rw [Completes]
    simp only [derives_more_iff_of_apart idle]
    have looser : connective.tier ≤ level + 1 := by omega
    rw [← completes_congr (collapse_collapse looser pending value), ← ih]
    constructor
    · rintro ⟨middle, value', ⟨rfl, rfl⟩, completes⟩
      exact completes
    · exact fun completes => ⟨_, _, ⟨rfl, rfl⟩, completes⟩

theorem eq_of_completes {tokens : List Token} {level : Nat}
    (tight : ∀ connective flip start, Joins connective flip tokens start → level ≤ connective.tier)
    {pending : Pending} {value tree : Formula} {rest : List Token}
    (h : pending.Completes level value tokens rest tree) : tokens = rest := by
  induction level generalizing pending value with
  | zero => exact h.2.1
  | succ level ih =>
    obtain ⟨middle, value', more, completes⟩ := h
    have idle : ∀ connective flip start, Joins connective flip tokens start →
        connective.tier ≠ level := by
      intro connective flip start joins
      have := tight connective flip start joins
      omega
    obtain ⟨rfl, rfl⟩ := (derives_more_iff_of_apart idle).mp more
    refine ih (fun connective flip start joins => ?_) completes
    have := tight connective flip start joins
    omega

def Looser (level : Nat) (pending : Pending) : Prop :=
  ∀ level' value, level ≤ level' → pending.collapse level' value = (pending, value)

theorem looser_nil (level : Nat) : Looser level [] := fun _ _ _ => rfl

theorem looser_cons {connective : Connective} {level : Nat} (less : connective.tier < level)
    (left : Formula) (pending : Pending) : Looser level ((connective, left) :: pending) := by
  intro level' value tighter
  rw [collapse, if_neg (by omega)]

theorem tier_completes_iff {pending : Pending} {flip : Bool} {level : Nat}
    (loose : level ≤ signedLevel) (looser : pending.Looser level) (tokens rest : List Token)
    (tree : Formula) :
    (∃ middle value, Derives (.tier flip level) tokens middle value ∧
        pending.Completes level value middle rest tree) ↔
      ∃ middle value, Derives (.signed flip) tokens middle value ∧
        pending.Completes signedLevel value middle rest tree := by
  induction loose using Nat.decreasingInduction with
  | self => simp only [derives_tightest_iff]
  | of_succ level loose ih =>
    rw [← ih fun level' value tighter => looser level' value (by omega)]
    have kept (value : Formula) : pending.collapse level value = (pending, value) :=
      looser level value (Nat.le_refl _)
    simp only [derives_tier_iff loose, Completes, kept]
    constructor
    · rintro ⟨middle, value, ⟨middle', left, first, more⟩, completes⟩
      exact ⟨middle', left, first, middle, value, more, completes⟩
    · rintro ⟨middle', left, first, middle, value, more, completes⟩
      exact ⟨middle, value, ⟨middle', left, first, more⟩, completes⟩

theorem tier_lt_signedLevel (connective : Connective) : connective.tier < signedLevel := by
  cases connective <;> decide

/-- A connective joins what binds as tightly before it and waits for its right operand. -/
theorem completes_iff_of_joins {connective : Connective} {flip : Bool}
    {tokens start rest : List Token} (joins : Joins connective flip tokens start)
    (apart : Apart 0 rest) (pending : Pending) (value tree : Formula) :
    pending.Completes signedLevel value tokens rest tree ↔
      ∃ middle right, Derives (.signed flip) start middle right ∧
        Pending.Completes signedLevel ((connective, (pending.collapse connective.tier value).2) ::
          (pending.collapse connective.tier value).1) right middle rest tree := by
  have tighter := tier_lt_signedLevel connective
  generalize collapsed : pending.collapse connective.tier value = result
  obtain ⟨pending', left⟩ := result
  have done (value' : Formula) : pending'.collapse connective.tier value' = (pending', value') := by
    have := collapse_collapsed (Nat.le_refl connective.tier) pending value value'
    rwa [collapsed] at this
  have top (right : Formula) : Pending.collapse connective.tier ((connective, left) :: pending') right =
      (pending', connective.join left right) := by
    rw [collapse, if_pos (Nat.le_refl _), done]
  have below := completes_above joins (Nat.le_pred_of_lt tighter) pending value rest tree
  change pending.Completes signedLevel value tokens rest tree ↔ _ at below
  rw [below, ← tier_completes_iff (Nat.succ_le_of_lt tighter)
    (looser_cons (Nat.lt_succ_self connective.tier) left pending')]
  simp only [Completes, collapsed, top, derives_more_iff_of_joins joins]
  constructor
  · rintro ⟨middle, value', ⟨rfl, rfl⟩ | ⟨middle', right, operand, more⟩, completes⟩
    · have stuck := eq_of_completes (fun connective' flip' start' joins' => by
        obtain ⟨rfl, -, -⟩ := joins.unique joins'
        exact Nat.le_refl _) completes
      subst stuck
      exact absurd (apart _ _ _ joins) (Nat.not_lt_zero _)
    · exact ⟨middle', right, operand, middle, value', more, completes⟩
  · rintro ⟨middle', right, operand, middle, value', more, completes⟩
    exact ⟨middle, value', .inr ⟨middle', right, operand, more⟩, completes⟩

end Pending
end FormulaLayout
