import FormulaLayout.Text.Runs

/-! Blank characters. Formulas lose every blank before they are read; sizes are only trimmed, so
that a leading mark can be seen. Both use the same set. -/
namespace FormulaLayout.Text

private def blankRuns : List Nat :=
  [0x09, 0x0E, 0x1C, 0x21, 0x85, 0x86, 0xA0, 0xA1, 0x1680, 0x1681, 0x2000, 0x200B,
   0x2028, 0x202A, 0x202F, 0x2030, 0x205F, 0x2060, 0x3000, 0x3001]

def isBlank (c : Char) : Bool := inRuns blankRuns c.toNat

def blanks : List Char := (members blankRuns).map Char.ofNat

theorem mem_blanks {c : Char} (h : isBlank c = true) : c ∈ blanks :=
  List.mem_map.mpr ⟨c.toNat, mem_members (by decide) h, Char.ofNat_toNat c⟩

def squeeze (text : List Char) : List Char := text.filter (!isBlank ·)

theorem mem_squeeze {text : List Char} {c : Char} :
    c ∈ squeeze text ↔ c ∈ text ∧ isBlank c = false := by
  simp [squeeze]

theorem squeeze_append (left right : List Char) :
    squeeze (left ++ right) = squeeze left ++ squeeze right := List.filter_append ..

def trimLeft (text : List Char) : List Char := text.dropWhile isBlank

def trim (text : List Char) : List Char := (trimLeft (trimLeft text).reverse).reverse

theorem squeeze_trimLeft (text : List Char) : squeeze (trimLeft text) = squeeze text := by
  induction text with
  | nil => rfl
  | cons c rest ih =>
    by_cases h : isBlank c = true
    · simpa [trimLeft, squeeze, List.dropWhile_cons, h] using ih
    · simp [trimLeft, h]

theorem squeeze_reverse (text : List Char) : squeeze text.reverse = (squeeze text).reverse :=
  List.filter_reverse ..

theorem squeeze_trim (text : List Char) : squeeze (trim text) = squeeze text := by
  rw [trim, squeeze_reverse, squeeze_trimLeft, squeeze_reverse, List.reverse_reverse,
    squeeze_trimLeft]

theorem trim_cons {c : Char} (mark : isBlank c = false) (text : List Char) :
    trim (c :: text) = c :: (trimLeft text.reverse).reverse := by
  have front : trimLeft (c :: text) = c :: text := by simp [trimLeft, mark]
  rw [trim, front, List.reverse_cons, trimLeft, List.dropWhile_append]
  split
  · next blank =>
    rw [List.isEmpty_iff] at blank
    simp [trimLeft, blank, mark]
  · simp [trimLeft]

end FormulaLayout.Text
