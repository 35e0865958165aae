import FormulaLayout.Proofs.Hierarchy.Pass

/-! Strict passes beside tolerant ones. Both make their way through the same findings: the tolerant
pass notes them all, the strict one ends at the first failure. What a strict pass has written when
it ends is not part of its outcome, so the pass is also told with all it holds on the way. -/
namespace FormulaLayout.Hierarchy

section Findings
variable {h : Hierarchy}

theorem foldlM_heed_strict (found : List Finding) (pass : LayoutPass) :
    found.foldlM (h.heed true) pass =
      match found.filterMap failure? with
      | [] => .ok (found.foldl h.note pass)
      | (_, reason) :: _ => .error (.failure reason) := by
  induction found generalizing pass with
  | nil => rfl
  | cons finding found ih =>
    obtain ⟨c, reason | rect⟩ := finding
    · rw [List.foldlM_cons, heed, if_pos (.inl rfl)]
      rfl
    · exact ih _

theorem Survey.strict {root : Handle} {canvas : PixelRect} {found : List Finding}
    {pass : LayoutPass} (survey : Survey h root canvas found pass) (forest : Forest h)
    (declared : h.Declared root) :
    h.layout root canvas true =
      match pass.failures.entries with
      | [] => .ok pass
      | (_, reason) :: _ => .error (.failure reason) := by
  have shallow := forest.acyclic.shallow declared
  have passable := (forest.acyclic.exists_pass_iff declared canvas).mp ⟨pass, survey.done⟩
  have tolerant : found.foldl h.note (.start root canvas) = pass :=
    Except.ok.inj ((survey.walks.tolerant shallow passable _).symm.trans survey.done)
  have failures : pass.failures.entries = found.filterMap failure? := survey.noted.failures
  rw [layout, survey.walks.layoutChildren true shallow, foldlM_heed_strict, tolerant, failures]

end Findings

section Progress

structure Progress where
  pass : LayoutPass
  stop : Option Interruption

def Progress.outcome (progress : Progress) : Except Interruption LayoutPass :=
  match progress.stop with
  | none => .ok progress.pass
  | some stop => .error stop

def advance (enter : LayoutPass → Handle → Progress) : List Handle → LayoutPass → Progress
  | [], pass => ⟨pass, none⟩
  | c :: siblings, pass =>
    match enter pass c with
    | ⟨pass, none⟩ => advance enter siblings pass
    | ⟨pass, some stop⟩ => ⟨pass, some stop⟩

def progressChildren (h : Hierarchy) (strict : Bool) :
    Nat → Handle → PixelRect → LayoutPass → Progress
  | 0, _, _, pass => ⟨pass, some .endless⟩
  | depth + 1, p, outer, pass =>
    advance (fun pass c =>
      if h.Visible c then
        match h.resolve c outer with
        | .error reason =>
          if strict ∨ reason.caught = false then ⟨pass, some (.failure reason)⟩
          else ⟨h.fail pass c reason, none⟩
        | .ok rect =>
          let pass := { pass with rects := pass.rects.insert c rect }
          if h.IsPanel c then progressChildren h strict depth c rect pass else ⟨pass, none⟩
      else ⟨pass, none⟩) (h.children p) pass

def progress (h : Hierarchy) (root : Handle) (canvas : PixelRect) (strict : Bool) : Progress :=
  h.progressChildren strict h.components.length root canvas (.start root canvas)

end Progress

end FormulaLayout.Hierarchy
