import FormulaLayout.Proofs.Scanning.Cutting

/-! Words in a scan. At a letter the loop takes the longest known word in front of it and raises
where there is none, so what is known of the extra names is the set of them: neither their order
nor a name said twice counts, and a name that is known anyway adds nothing. -/
namespace FormulaLayout
open Number Text

/-- What a known word stands for. A word that is reserved stays so when it is a name as well. -/
inductive WordKind (word : String) : TokenKind → Prop where
  | reserved {kind : TokenKind} (listed : (word, kind) ∈ reservedWords) : WordKind word kind
  | name (free : ∀ kind, (word, kind) ∉ reservedWords) : WordKind word .name

theorem wordKind_ofWord (word : String) : WordKind word (.ofWord word) := by
  unfold TokenKind.ofWord
  cases found : reservedWords.lookup word with
  | none =>
    refine .name fun kind listed => ?_
    simpa using List.lookup_eq_none_iff.mp found _ listed
  | some kind =>
    obtain ⟨before, behind, whole, -⟩ := List.lookup_eq_some_iff.mp found
    exact .reserved (by simp [whole])

theorem startsWord_of_isLetter {c : Char} (letter : isLetter c = true) : StartsWord c where
  literal := by
    have point : c ≠ '.' := by
      rintro rfl
      exact absurd letter (by decide)
    simp [startsLiteral, isDigit_of_isLetter letter, point]
  symbol := by
    rw [Option.eq_none_iff_forall_ne_some]
    intro kind symbol
    have none : Lexeme.symbols.all (!isLetter ·) = true := by decide
    have other := List.all_eq_true.mp none c (Lexeme.mem_symbols symbol)
    simp [letter] at other
  letter := letter

theorem exists_isLongest {words : List (List Char)} {text word : List Char} (listed : word ∈ words)
    (front : word <+: text) : ∃ longest, IsLongest words text longest := by
  have answers := longestWord?_answers words text
  cases found : longestWord? words text with
  | none =>
    rw [found] at answers
    exact absurd front (answers word listed)
  | some longest =>
    rw [found] at answers
    exact ⟨longest, answers⟩

section Sets
variable {words words' : List (List Char)} (same : ∀ word, word ∈ words ↔ word ∈ words')
include same

theorem IsLongest.congr {text word : List Char} (h : IsLongest words text word) :
    IsLongest words' text word where
  listed := (same word).mp h.listed
  front := h.front
  longest other listed := h.longest other ((same other).mpr listed)

theorem longestWord?_congr (text : List Char) :
    longestWord? words text = longestWord? words' text := by
  ext word
  rw [longestWord?_eq_some_iff, longestWord?_eq_some_iff]
  exact ⟨.congr same, .congr fun word => (same word).symm⟩

theorem lexeme_congr (c : Char) (rest : List Char) :
    lexeme words c rest = lexeme words' c rest := by
  unfold lexeme
  rw [longestWord?_congr same]

theorem scanFrom_congr (source : String) (skip position : Nat) (text : List Char) :
    scanFrom words source skip position text = scanFrom words' source skip position text := by
  induction text generalizing skip position with
  | nil => rfl
  | cons c rest ih =>
    cases skip with
    | succ skip => exact ih skip (position + 1)
    | zero => simp only [scanFrom, lexeme_congr same, ih]

end Sets

theorem tokenize_congr_words {extra extra' : List String} (text : String)
    (same : ∀ word, word ∈ knownWords extra ↔ word ∈ knownWords extra') :
    tokenize text extra = tokenize text extra' :=
  scanFrom_congr same ..

theorem mem_knownWords_iff {extra : List String} {word : List Char} :
    word ∈ knownWords extra ↔
      String.ofList word ∈ baseNames ++ extendedNames ++ reservedWords.map Prod.fst ∨
        String.ofList word ∈ extra := by
  have named {names : List String} :
      word ∈ names.map String.toList ↔ String.ofList word ∈ names := by
    rw [List.mem_map]
    constructor
    · rintro ⟨name, listed, rfl⟩
      rwa [String.ofList_toList]
    · exact fun listed => ⟨_, listed, String.toList_ofList⟩
  rw [knownWords, named]
  simp only [List.mem_append]
  tauto

theorem exists_position_of_scanFrom {words : List (List Char)} {source : String}
    {text : List Char} {skip position : Nat} {fault : Fault}
    (failed : scanFrom words source skip position text = .error fault) :
    ∃ place, fault.position = some place ∧ position ≤ place := by
  induction text generalizing skip position with
  | nil => cases failed
  | cons c rest ih =>
    have behind {skip : Nat} (failed : scanFrom words source skip (position + 1) rest =
        .error fault) : ∃ place, fault.position = some place ∧ position ≤ place := by
      obtain ⟨place, found, later⟩ := ih failed
      exact ⟨place, found, Nat.le_of_succ_le later⟩
    cases skip with
    | succ skip => exact behind failed
    | zero =>
      rw [scanFrom] at failed
      cases front : lexeme words c rest with
      | error complaint =>
        rw [front] at failed
        cases failed
        exact ⟨position, rfl, Nat.le_refl position⟩
      | ok found =>
        simp only [front, bind, Except.bind] at failed
        split at failed
        · next later =>
          cases failed
          exact behind later
        · cases failed

section Rounds
variable {text : String} {extra : List String} {n : Nat} {scan : Scan}

theorem outcome_of_loop (reached : loop text extra n = .ok scan) :
    scan.outcome (knownWords extra) (sourceOf text) = tokenize text extra :=
  Scan.outcome_of_after reached

theorem found_prefix_of_loop (reached : loop text extra n = .ok scan) {tokens : List Token}
    (scanned : tokenize text extra = .ok tokens) : scan.found <+: tokens := by
  rw [← outcome_of_loop reached, Scan.outcome] at scanned
  cases later : scanFrom (knownWords extra) (sourceOf text) 0 scan.position scan.rest with
  | error fault =>
    rw [later] at scanned
    cases scanned
  | ok more =>
    rw [later] at scanned
    exact ⟨more, Except.ok.inj scanned⟩

theorem exists_position_of_loop (reached : loop text extra n = .ok scan) {fault : Fault}
    (failed : tokenize text extra = .error fault) :
    ∃ place, fault.position = some place ∧ scan.position ≤ place := by
  rw [← outcome_of_loop reached, Scan.outcome] at failed
  cases later : scanFrom (knownWords extra) (sourceOf text) 0 scan.position scan.rest with
  | error fault' =>
    rw [later] at failed
    exact Except.error.inj failed ▸ exists_position_of_scanFrom later
  | ok more =>
    rw [later] at failed
    cases failed

theorem loop_succ (reached : loop text extra n = .ok scan) :
    loop text extra (n + 1) = scan.round (knownWords extra) (sourceOf text) := by
  rw [loop, Scan.after, ← loop, reached]
  rfl

theorem ne_nil_of_mem_knownWords (named : "" ∉ extra) {word : List Char}
    (listed : word ∈ knownWords extra) : word ≠ [] := by
  rintro rfl
  exact named (nil_mem_knownWords_iff.mp listed)

structure ReadsWord (text : String) (extra : List String) (n : Nat) (scan : Scan) (c : Char) :
    Prop where
  takes : ∀ word ∈ knownWords extra, word <+: scan.rest → ∃ longest kind,
    IsLongest (knownWords extra) scan.rest longest ∧ WordKind (String.ofList longest) kind ∧
    loop text extra (n + 1) = .ok (scan.pass kind longest)
  keeps : ∀ next tokens, loop text extra (n + 1) = .ok next → tokenize text extra = .ok tokens →
    next.found <+: tokens
  raises : (∀ word ∈ knownWords extra, ¬word <+: scan.rest) →
    tokenize text extra = .error ⟨.unknownName c, sourceOf text, some scan.position⟩
  raises_only : ∀ fault, tokenize text extra = .error fault → fault.position = some scan.position →
    ∀ word ∈ knownWords extra, ¬word <+: scan.rest

section Letter
variable (named : "" ∉ extra) (reached : loop text extra n = .ok scan) {c : Char} {rest : List Char}
  (front : scan.rest = c :: rest) (starts : StartsWord c)
include reached front starts

include named in
theorem loop_takes_longest {word : List Char} (listed : word ∈ knownWords extra)
    (before : word <+: scan.rest) : ∃ longest kind,
      IsLongest (knownWords extra) scan.rest longest ∧ WordKind (String.ofList longest) kind ∧
      loop text extra (n + 1) = .ok (scan.pass kind longest) := by
  obtain ⟨longest, isLongest⟩ := exists_isLongest listed before
  refine ⟨longest, _, isLongest, wordKind_ofWord _, ?_⟩
  rw [front] at isLongest
  have filled := ne_nil_of_mem_knownWords named isLongest.listed
  rw [loop_succ reached, Scan.round, front]
  simp only [(Meets.word starts isLongest filled).lexeme_eq]

theorem tokenize_of_unknown (unknown : ∀ word ∈ knownWords extra, ¬word <+: scan.rest) :
    tokenize text extra = .error ⟨.unknownName c, sourceOf text, some scan.position⟩ := by
  obtain ⟨found, position, left⟩ := scan
  obtain rfl : left = c :: rest := front
  have meets : Meets (knownWords extra) c rest (.error (.unknownName c)) := by
    refine .unknownName starts (Option.eq_none_iff_forall_ne_some.mpr fun word isSome => ?_)
    have longest := longestWord?_eq_some_iff.mp isSome
    exact unknown word longest.listed longest.front
  have moving (initial : Char) : Complaint.unknownName c ≠ .stalled initial := by simp
  rw [← outcome_of_loop reached]
  exact (Scan.Turns.raises meets moving).outcome_eq

end Letter

theorem readsWord_of_isLetter (named : "" ∉ extra) (reached : loop text extra n = .ok scan)
    {c : Char} {rest : List Char} (front : scan.rest = c :: rest) (letter : isLetter c = true) :
    ReadsWord text extra n scan c := by
  have starts := startsWord_of_isLetter letter
  refine ⟨fun _ => loop_takes_longest named reached front starts,
    fun _ _ passed => found_prefix_of_loop passed, tokenize_of_unknown reached front starts,
    fun fault failed here word listed before => ?_⟩
  -- the loop goes on behind the word, so the fault is not here
  obtain ⟨longest, kind, isLongest, -, passed⟩ :=
    loop_takes_longest named reached front starts listed before
  obtain ⟨place, found, behind⟩ := exists_position_of_loop passed failed
  obtain rfl : scan.position = place := Option.some.inj (here.symm.trans found)
  have some := List.length_pos_iff.mpr (ne_nil_of_mem_knownWords named isLongest.listed)
  simp only [Scan.pass] at behind
  omega

end Rounds

/-- At every letter that the scan meets the token is the longest known word in front of it, and the
scan raises there exactly if there is none. Extra names count as a set, and none that is known
without them counts. -/
theorem longest_known_word_is_taken {extra : List String} (named : "" ∉ extra) (text : String) :
    (∀ n scan c rest, loop text extra n = .ok scan → scan.rest = c :: rest → isLetter c = true →
      ReadsWord text extra n scan c) ∧
    (∀ extra', (∀ name, name ∈ extra' ↔ name ∈ extra) →
      tokenize text extra' = tokenize text extra) ∧
    (∀ more, (∀ name ∈ more, name ∈ baseNames ++ extendedNames ++ reservedWords.map Prod.fst) →
      tokenize text (extra ++ more) = tokenize text extra) := by
  refine ⟨fun _ _ _ _ reached => readsWord_of_isLetter named reached, fun extra' same => ?_,
    fun more standard => ?_⟩
  · refine tokenize_congr_words text fun word => ?_
    rw [mem_knownWords_iff, mem_knownWords_iff, same]
  · refine tokenize_congr_words text fun word => ?_
    rw [mem_knownWords_iff, mem_knownWords_iff]
    constructor
    · rintro (known | listed)
      · exact .inl known
      · exact (List.mem_append.mp listed).elim .inr fun added => .inl (standard _ added)
    · exact Or.imp_right (List.mem_append_left more)

/-- With `wi`, `widthr` and `r` as names, `widthr r` is the longest name and the root operator, for
no name takes `r` from it. Naming `r` once more, and `width` too, changes nothing. -/
theorem longest_of_overlapping_names : "" ∉ ["wi", "widthr", "r"] ∧
    tokenize "widthr r" ["wi", "widthr", "r"] =
      .ok [⟨.name, "widthr", 0⟩, ⟨.operator .root, "r", 6⟩] ∧
    ReadsWord "widthr r" ["wi", "widthr", "r"] 0 ⟨[], 0, "widthrr".toList⟩ 'w' ∧
    tokenize "widthr r" (["r", "widthr", "wi"] ++ ["width", "r"]) =
      tokenize "widthr r" ["wi", "widthr", "r"] := by
  have named : "" ∉ ["wi", "widthr", "r"] := by decide
  have turned : "" ∉ ["r", "widthr", "wi"] := by decide
  have words := longest_known_word_is_taken named "widthr r"
  have standard := (longest_known_word_is_taken turned "widthr r").2.2 ["width", "r"] (by decide)
  refine ⟨named, by rfl, words.1 0 _ 'w' _ (by rfl) (by rfl) (by decide), standard.trans ?_⟩
  refine words.2.1 _ fun name => ?_
  simp only [List.mem_cons, List.not_mem_nil, or_false]
  tauto

end FormulaLayout
