import FormulaLayout.Formula.Parse

/-! How deeply parentheses nest, counted from the tokens alone. The parser has as many groups open
as the count says, gets through only if the limit allows all of them, and blames nesting only if
it does not. -/
namespace FormulaLayout

def TokenKind.depthAfter : TokenKind → Nat → Nat
  | .opening, depth => depth + 1
  | .closing, depth => depth - 1
  | _, depth => depth

/-- How many parentheses are open at most, if so many are open before. -/
def nestingFrom : Nat → List Token → Nat
  | depth, [] => depth
  | depth, token :: rest => max depth (nestingFrom (token.kind.depthAfter depth) rest)

def nesting : List Token → Nat := nestingFrom 0

theorem le_nestingFrom (depth : Nat) (tokens : List Token) : depth ≤ nestingFrom depth tokens := by
  cases tokens with
  | nil => exact Nat.le_refl depth
  | cons token rest => exact Nat.le_max_left ..

def allows (limit : Option Nat) (depth : Nat) : Bool :=
  limit.all (depth ≤ ·)

theorem allows_zero (limit : Option Nat) : allows limit 0 = true := by
  cases limit <;> simp [allows]

theorem allows_mono {limit : Option Nat} {depth depth' : Nat} (le : depth' ≤ depth)
    (h : allows limit depth = true) : allows limit depth' = true := by
  cases limit with
  | none => rfl
  | some most =>
    simp only [allows, Option.all_some, decide_eq_true_eq] at h ⊢
    exact Nat.le_trans le h

theorem allows_max (limit : Option Nat) (depth depth' : Nat) :
    allows limit (max depth depth') = (allows limit depth && allows limit depth') := by
  cases limit with
  | none => rfl
  | some most =>
    change decide (max depth depth' ≤ most) = (decide (depth ≤ most) && decide (depth' ≤ most))
    rw [← Bool.decide_and]
    exact decide_eq_decide.mpr Nat.max_le

theorem allows_succ (limit : Option Nat) (depth : Nat) :
    allows limit (depth + 1) = !limit.any (· ≤ depth) := by
  cases limit with
  | none => rfl
  | some most =>
    change decide (depth + 1 ≤ most) = !decide (most ≤ depth)
    rw [← decide_not]
    exact decide_eq_decide.mpr Nat.not_le.symm

theorem allows_nestingFrom_of_beyond {limit : Option Nat} {depth : Nat}
    (beyond : allows limit depth = false) (tokens : List Token) :
    allows limit (nestingFrom depth tokens) = false := by
  rw [Bool.eq_false_iff] at beyond ⊢
  exact fun within => beyond (allows_mono (le_nestingFrom depth tokens) within)

/-- A symbol that no formula has is not a fault of the form, and a scan that stalls finds none. -/
def Complaint.isMalformed : Complaint → Bool
  | unsupportedSymbol _ | stalled _ => false
  | _ => true

namespace ParserState

/-- A result has the second number of parentheses open, where the first one was before, and stays
within the limit; it complains about nesting only where the second number is beyond the limit. -/
def Nests (limit : Option Nat) (depth depth' : Nat) : Except Complaint ParserState → Prop
  | .ok next => next.outer.length = depth' ∧ (allows limit depth = true → allows limit depth' = true)
  | .error complaint => complaint.isMalformed = true ∧
      (complaint = .nestedTooDeeply → allows limit depth' = false)

theorem receive_nests (limit : Option Nat) (state : ParserState) (slot : Slot) (token : Token) :
    Nests limit state.outer.length (token.kind.depthAfter state.outer.length)
      (state.receive limit slot token) := by
  unfold receive
  split
  case h_3 kind =>
    have after := allows_succ limit state.outer.length
    rw [kind, TokenKind.depthAfter]
    unfold openGroup
    split
    · next full => exact ⟨rfl, fun _ => by rw [after, full]; rfl⟩
    · next free => exact ⟨rfl, fun _ => by rw [after, Bool.eq_false_iff.mpr free]; rfl⟩
  all_goals simp_all [Nests, hold, await, Complaint.isMalformed, TokenKind.depthAfter]

theorem step_nests (limit : Option Nat) (state : ParserState) (token : Token) :
    Nests limit state.outer.length (token.kind.depthAfter state.outer.length)
      (state.step limit token) := by
  unfold step
  split
  · split
    · next pending slot outer kind enclosed =>
      rw [kind, enclosed]
      exact ⟨rfl, allows_mono (Nat.le_succ outer.length)⟩
    · exact receive_nests ..
  · exact receive_nests ..
  · split
    · next kind =>
      rw [kind]
      exact ⟨rfl, id⟩
    · next kind =>
      rw [kind]
      exact ⟨rfl, id⟩
    · next kind =>
      split
      · exact ⟨rfl, nofun⟩
      · next pending slot outer enclosed =>
        rw [kind, enclosed]
        exact ⟨rfl, allows_mono (Nat.le_succ outer.length)⟩
    · exact receive_nests ..

theorem run_nests (limit : Option Nat) (source : String) (state : ParserState)
    (tokens : List Token) :
    match state.run limit source tokens with
    | .ok _ => allows limit state.outer.length = true →
        allows limit (nestingFrom state.outer.length tokens) = true
    | .error fault => fault.complaint.isMalformed = true ∧ (fault.complaint = .nestedTooDeeply →
        allows limit (nestingFrom state.outer.length tokens) = false) := by
  induction tokens generalizing state with
  | nil => exact id
  | cons token rest ih =>
    have nests := step_nests limit state token
    unfold run
    rw [nestingFrom, allows_max]
    cases taken : state.step limit token with
    | ok next =>
      rw [taken] at nests
      obtain ⟨depth, kept⟩ := nests
      have later := ih next
      rw [depth] at later
      dsimp only
      split
      · next last reached =>
        rw [reached] at later
        exact fun within => Bool.and_eq_true_iff.mpr ⟨within, later (kept within)⟩
      · next fault failed =>
        rw [failed] at later
        exact later.imp_right fun beyond deep => by rw [beyond deep, Bool.and_false]
    | error complaint =>
      rw [taken] at nests
      obtain ⟨malformed, beyond⟩ := nests
      have exceeded : complaint = .nestedTooDeeply → (allows limit state.outer.length &&
          allows limit (nestingFrom (token.kind.depthAfter state.outer.length) rest)) = false := by
        intro deep
        rw [allows_nestingFrom_of_beyond (beyond deep), Bool.and_false]
      cases complaint with
      | nestedTooDeeply => exact ⟨rfl, exceeded⟩
      | _ => exact ⟨malformed, exceeded⟩

theorem finish_malformed {state : ParserState} {complaint : Complaint}
    (failed : state.finish = .error complaint) :
    complaint.isMalformed = true ∧ complaint ≠ .nestedTooDeeply := by
  unfold finish at failed
  split at failed <;> cases failed <;> simp [Complaint.isMalformed]

end ParserState
end FormulaLayout
