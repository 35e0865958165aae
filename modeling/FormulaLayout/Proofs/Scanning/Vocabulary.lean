import FormulaLayout.Formula.Token
import Mathlib.Data.List.Induction

/-! Words. The scan takes the longest known word at the front of the text, whatever the order of the
words. No standard word continues another one, so a standard word is taken whatever is glued
behind it. -/
namespace FormulaLayout
open Number Text

/-- Of the listed words at the front of the text, one that no other exceeds. -/
structure IsLongest (words : List (List Char)) (text word : List Char) : Prop where
  listed : word ∈ words
  front : word <+: text
  longest : ∀ other ∈ words, other <+: text → other.length ≤ word.length

theorem IsLongest.unique {words : List (List Char)} {text word word' : List Char}
    (h : IsLongest words text word) (h' : IsLongest words text word') : word = word' := by
  have le := h.longest word' h'.listed h'.front
  have le' := h'.longest word h.listed h.front
  exact (List.prefix_of_prefix_length_le h.front h'.front le').eq_of_length (Nat.le_antisymm le' le)

theorem longestWord?_concat (words : List (List Char)) (word text : List Char) :
    longestWord? (words ++ [word]) text =
      if word <+: text ∧ (longestWord? words text).all (·.length < word.length)
      then some word else longestWord? words text := by
  simp [longestWord?]

theorem longestWord?_answers (words : List (List Char)) (text : List Char) :
    match longestWord? words text with
    | none => ∀ word ∈ words, ¬word <+: text
    | some word => IsLongest words text word := by
  induction words using List.reverseRecOn with
  | nil => exact nofun
  | append_singleton words word ih =>
    rw [longestWord?_concat]
    cases found : longestWord? words text with
    | none =>
      rw [found] at ih
      simp only [Option.all_none, and_true]
      by_cases front : word <+: text
      · rw [if_pos front]
        refine ⟨List.mem_concat_self, front, List.forall_mem_append.mpr ⟨?_, ?_⟩⟩
        · exact fun other before front' => absurd front' (ih other before)
        · exact List.forall_mem_singleton.mpr fun _ => Nat.le_refl _
      · rw [if_neg front]
        exact List.forall_mem_append.mpr ⟨ih, List.forall_mem_singleton.mpr front⟩
    | some best =>
      rw [found] at ih
      simp only [Option.all_some, decide_eq_true_eq]
      by_cases better : word <+: text ∧ best.length < word.length
      · rw [if_pos better]
        refine ⟨List.mem_concat_self, better.1, List.forall_mem_append.mpr ⟨?_, ?_⟩⟩
        · intro other before front'
          exact Nat.le_trans (ih.longest other before front') (Nat.le_of_lt better.2)
        · exact List.forall_mem_singleton.mpr fun _ => Nat.le_refl _
      · rw [if_neg better]
        refine ⟨List.mem_append_left _ ih.listed, ih.front,
          List.forall_mem_append.mpr ⟨ih.longest, List.forall_mem_singleton.mpr fun front' => ?_⟩⟩
        exact Nat.le_of_not_lt fun longer => better ⟨front', longer⟩

theorem longestWord?_eq_some_iff {words : List (List Char)} {text word : List Char} :
    longestWord? words text = some word ↔ IsLongest words text word := by
  have answers := longestWord?_answers words text
  constructor
  · intro found
    rw [found] at answers
    exact answers
  · intro longest
    cases found : longestWord? words text with
    | none =>
      rw [found] at answers
      exact absurd longest.front (answers word longest.listed)
    | some word' =>
      rw [found] at answers
      rw [answers.unique longest]

theorem IsLongest.of_prefix {words : List (List Char)} {word rest shorter : List Char}
    (h : IsLongest words (word ++ rest) word) (front : shorter <+: rest) :
    IsLongest words (word ++ shorter) word where
  listed := h.listed
  front := List.prefix_append ..
  longest other listed found :=
    h.longest other listed (found.trans ((List.prefix_append_right_inj word).mpr front))

theorem isLongest_filter_iff {words : List (List Char)} {text word : List Char} :
    IsLongest (words.filter (· ≠ [])) text word ↔ IsLongest words text word ∧ word ≠ [] := by
  have among (word : List Char) : word ∈ words.filter (· ≠ []) ↔ word ∈ words ∧ word ≠ [] := by
    simp
  constructor
  · rintro ⟨listed, front, longest⟩
    obtain ⟨listed, filled⟩ := (among word).mp listed
    refine ⟨⟨listed, front, fun other listed' front' => ?_⟩, filled⟩
    by_cases empty : other = []
    · exact empty ▸ Nat.zero_le _
    · exact longest other ((among other).mpr ⟨listed', empty⟩) front'
  · rintro ⟨⟨listed, front, longest⟩, filled⟩
    refine ⟨(among word).mpr ⟨listed, filled⟩, front, fun other listed' => ?_⟩
    exact longest other ((among other).mp listed').1

theorem longestWord?_filter (words : List (List Char)) (text : List Char) :
    longestWord? (words.filter (· ≠ [])) text = (longestWord? words text).filter (· ≠ []) := by
  ext word
  rw [longestWord?_eq_some_iff, isLongest_filter_iff, Option.filter_eq_some_iff,
    longestWord?_eq_some_iff, decide_eq_true_eq]

theorem words_come_apart : ∀ word ∈ knownWords [], ∀ other ∈ knownWords [],
    word <+: other → word = other := by
  decide +kernel

theorem isLongest_append {word : List Char} (listed : word ∈ knownWords []) (rest : List Char) :
    IsLongest (knownWords []) (word ++ rest) word := by
  refine ⟨listed, List.prefix_append .., fun other listed' front => ?_⟩
  rcases List.prefix_or_prefix_of_prefix front (List.prefix_append word rest) with le | le
  · exact le.length_le
  · exact Nat.le_of_eq (congrArg List.length (words_come_apart word listed other listed' le)).symm

theorem words_spelled : ∀ word ∈ knownWords [],
    (word.head?.any fun c => !startsLiteral c && c != 'E' && (TokenKind.ofSymbol? c).isNone &&
      isLetter c) = true ∧ word.all (fun c => !isBlank c && c != '(' && c != ')') = true := by
  decide +kernel

theorem word_starts {word : List Char} (listed : word ∈ knownWords []) :
    ∃ c text, word = c :: text ∧ startsLiteral c = false ∧ c ≠ 'E' ∧
      TokenKind.ofSymbol? c = none ∧ isLetter c = true := by
  have all := (words_spelled word listed).1
  cases word with
  | nil => cases all
  | cons c text =>
    simp only [List.head?_cons, Option.any_some, Bool.and_eq_true, Bool.not_eq_true', bne_iff_ne,
      Option.isNone_iff_eq_none] at all
    obtain ⟨⟨⟨literal, mark⟩, symbol⟩, letter⟩ := all
    exact ⟨c, text, rfl, literal, mark, symbol, letter⟩

theorem word_plain {word : List Char} (listed : word ∈ knownWords []) {c : Char} (mem : c ∈ word) :
    isBlank c = false ∧ c ≠ '(' ∧ c ≠ ')' := by
  simpa [and_assoc] using List.all_eq_true.mp (words_spelled word listed).2 c mem

theorem TokenKind.ofWord_mem (word : String) :
    ofWord word ∈ TokenKind.name :: reservedWords.map Prod.snd := by
  unfold ofWord
  cases found : reservedWords.lookup word with
  | none => exact List.mem_cons_self
  | some kind =>
    obtain ⟨before, behind, entries, -⟩ := List.lookup_eq_some_iff.mp found
    exact List.mem_cons_of_mem _ (List.mem_map.mpr ⟨(word, kind), by simp [entries], rfl⟩)

end FormulaLayout
