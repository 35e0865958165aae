import FormulaLayout.Grid.Basic
import FormulaLayout.Placement.Free
import FormulaLayout.Proofs.Scanning.Cutting

/-! Blanks in the texts of an author. Formulas drop them all, sizes are trimmed before the mark in
front of them is looked for, and faults show the text without any. A text is therefore read by what
is left without blanks, wherever they stand, and two texts are scanned alike exactly if the same is
left of them. -/
namespace FormulaLayout
open Text

namespace Text

theorem trim_cases (text : List Char) :
    (trim text = [] ∧ squeeze text = []) ∨
      ∃ c rest, trim text = c :: rest ∧ squeeze text = c :: squeeze rest := by
  have kept := squeeze_trim text
  cases front : trimLeft text with
  | nil =>
    have empty : trim text = [] := by
      rw [trim, front]
      rfl
    rw [empty] at kept
    exact .inl ⟨empty, kept.symm⟩
  | cons c rest =>
    have mark : isBlank c = false := by
      have first := List.head?_dropWhile_not isBlank text
      rwa [← trimLeft, front] at first
    have same : trim text = trim (c :: rest) := by
      have stays : trimLeft (c :: rest) = c :: rest := List.dropWhile_cons_of_neg (by simp [mark])
      rw [trim, trim, front, stays]
    rw [same, trim_cons mark] at kept ⊢
    refine .inr ⟨c, _, rfl, ?_⟩
    rw [← kept, squeeze, List.filter_cons_of_pos (by simp [mark]), squeeze]

end Text

theorem sourceOf_eq_iff {text text' : String} :
    sourceOf text = sourceOf text' ↔ squeeze text.toList = squeeze text'.toList := by
  rw [sourceOf, sourceOf, String.ofList_inj]

theorem tokenize_eq_iff {text text' : String} (extra : List String) :
    tokenize text extra = tokenize text' extra ↔ sourceOf text = sourceOf text' := by
  refine ⟨fun same => ?_, fun same => tokenize_congr extra (sourceOf_eq_iff.mp same)⟩
  cases scanned : tokenize text extra with
  | ok tokens =>
    have cuts := cutsUp_of_tokenize scanned
    have cuts' := cutsUp_of_tokenize (same.symm.trans scanned)
    exact String.toList_inj.mp (cuts.whole.symm.trans cuts'.whole)
  | error fault =>
    obtain ⟨-, -, place, -, shown⟩ := exists_meets_of_scanFrom scanned
    obtain ⟨-, -, place', -, shown'⟩ := exists_meets_of_scanFrom (same.symm.trans scanned)
    exact (congrArg Fault.source shown).symm.trans (congrArg Fault.source shown')

namespace Dimension

theorem split_eq (text : Option String) {left : List Char}
    (whole : squeeze (text.getD "").toList = left) :
    (split text).1 = decide (left.head? = some '?') ∧
      squeeze (split text).2.toList = if left.head? = some '?' then left.tail else left := by
  subst whole
  rw [split]
  obtain ⟨empty, blank⟩ | ⟨c, rest, shown, left⟩ := trim_cases (text.getD "").toList
  · rw [empty, blank]
    exact ⟨rfl, rfl⟩
  · have kept := squeeze_trim (text.getD "").toList
    rw [shown] at kept
    rw [shown, left]
    split
    · next marked =>
      obtain ⟨rfl, rfl⟩ := List.cons.inj marked
      exact ⟨rfl, by simp⟩
    · next other =>
      have plain : c ≠ '?' := fun mark => other rest (by rw [mark])
      simp [plain, kept, left]

theorem parse_congr {text text' : Option String}
    (same : squeeze (text.getD "").toList = squeeze (text'.getD "").toList) :
    (split text).1 = (split text').1 ∧ parse text = parse text' := by
  obtain ⟨marked, formula⟩ := split_eq text same
  obtain ⟨marked', formula'⟩ := split_eq text' rfl
  refine ⟨marked.trans marked'.symm, ?_⟩
  simp only [parse, marked.trans marked'.symm, Formula.parse_congr [] (formula.trans formula'.symm)]

end Dimension

namespace Formula

theorem parse_map_congr {text text' : Option String} (extra : List String)
    (same : text.map sourceOf = text'.map sourceOf) : parse text extra = parse text' extra := by
  match text, text', same with
  | none, none, _ => rfl
  | some _, some _, same => exact parse_congr extra (sourceOf_eq_iff.mp (Option.some.inj same))

end Formula

theorem squeeze_getD_congr {text text' : Option String}
    (same : text.map sourceOf = text'.map sourceOf) :
    squeeze (text.getD "").toList = squeeze (text'.getD "").toList := by
  match text, text', same with
  | none, none, _ => rfl
  | some _, some _, same => exact sourceOf_eq_iff.mp (Option.some.inj same)

def PlacementText.sources (text : PlacementText) : PlacementText :=
  ⟨text.x.map sourceOf, text.y.map sourceOf, text.width.map sourceOf, text.height.map sourceOf⟩

theorem FreePlacement.parse_congr {text text' : PlacementText}
    (same : text.sources = text'.sources) : parse text = parse text' := by
  obtain ⟨x, y, width, height⟩ := PlacementText.mk.inj same
  rw [parse, parse, Formula.parse_map_congr [] x, Formula.parse_map_congr [] y,
    (Dimension.parse_congr (squeeze_getD_congr width)).2,
    (Dimension.parse_congr (squeeze_getD_congr height)).2]

namespace Grid

theorem readSetting_congr {text text' : Option String}
    (same : text.map sourceOf = text'.map sourceOf) : readSetting text = readSetting text' := by
  match text, text', same with
  | none, none, _ => rfl
  | some _, some _, same => rw [readSetting, readSetting, Formula.parse_map_congr [] same]

theorem readSettings_congr (old : PerAxis (Option Formula)) {x x' y y' : Option String}
    (horizontal : x.map sourceOf = x'.map sourceOf) (vertical : y.map sourceOf = y'.map sourceOf) :
    readSettings old x y = readSettings old x' y' := by
  rw [readSettings, readSettings, readSetting_congr horizontal, readSetting_congr vertical]

end Grid

/-- Texts of which the same is left without blanks are scanned alike, and no others are. Wherever a
text is read they give the same result or the same fault, for a size the same mark, and for a grid
the same settings. -/
theorem blanks_never_matter :
    (∀ (text text' : String) (extra : List String),
      (tokenize text extra = tokenize text' extra ↔ sourceOf text = sourceOf text') ∧
      (sourceOf text = sourceOf text' →
        Formula.parse (some text) extra = Formula.parse (some text') extra ∧
        (Dimension.split (some text)).1 = (Dimension.split (some text')).1 ∧
        Dimension.parse (some text) = Dimension.parse (some text'))) ∧
    (∀ text text' : PlacementText, text.sources = text'.sources →
      FreePlacement.parse text = FreePlacement.parse text') ∧
    ∀ (α : Type) (grid : Grid α) (x x' y y' : Option String),
      x.map sourceOf = x'.map sourceOf → y.map sourceOf = y'.map sourceOf →
      grid.setMargin x y = grid.setMargin x' y' ∧ grid.setFrame x y = grid.setFrame x' y' := by
  refine ⟨fun text text' extra => ⟨tokenize_eq_iff extra, fun same => ?_⟩,
    fun text text' same => FreePlacement.parse_congr same,
    fun α grid x x' y y' horizontal vertical => ?_⟩
  · have left := sourceOf_eq_iff.mp same
    exact ⟨Formula.parse_congr extra left, Dimension.parse_congr left⟩
  · rw [Grid.setMargin, Grid.setMargin, Grid.setFrame, Grid.setFrame,
      Grid.readSettings_congr grid.margin horizontal vertical,
      Grid.readSettings_congr grid.frame horizontal vertical]
    exact ⟨rfl, rfl⟩

theorem scattered_blanks_never_matter :
    sourceOf "\u3000? wi\u2003dth\t/1 0\n" = sourceOf "?width/10" ∧
    Dimension.parse (some "\u3000? wi\u2003dth\t/1 0\n") = Dimension.parse (some "?width/10") ∧
    (Dimension.split (some "\u3000? wi\u2003dth\t/1 0\n")).1 = true ∧
    sourceOf "2 ce\u00a0nterx +" = sourceOf "2centerx+" ∧
    (Grid.empty : Grid Nat).setMargin (some "2 ce\u00a0nterx +") none =
      (Grid.empty, .error ⟨.endsEarly, "2centerx+", some 9⟩) := by
  have mark : sourceOf "\u3000? wi\u2003dth\t/1 0\n" = sourceOf "?width/10" := by decide +kernel
  have unfinished : sourceOf "2 ce\u00a0nterx +" = sourceOf "2centerx+" := by decide +kernel
  obtain ⟨texts, -, grids⟩ := blanks_never_matter
  obtain ⟨-, marked, parsed⟩ := (texts _ _ []).2 mark
  have margins := grids Nat .empty (some "2 ce\u00a0nterx +") (some "2centerx+") none none
    (congrArg some unfinished) rfl
  have refused : (Grid.empty : Grid Nat).setMargin (some "2centerx+") none =
      (Grid.empty, .error ⟨.endsEarly, "2centerx+", some 9⟩) := by decide +kernel
  exact ⟨mark, parsed, marked.trans (by decide +kernel), unfinished, margins.1.trans refused⟩

end FormulaLayout
