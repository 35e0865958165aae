import FormulaLayout.Formula.Parse
import FormulaLayout.Journal.Record

/-! The records of reading formulas. Only a text that parses is noted, and the absence of a text is
not. -/
namespace FormulaLayout

def Record.parsed (source : String) (tokens : Nat) : Record :=
  ⟨parserSource, .debug, s!"Parsed '{source}' ({tokens} tokens)"⟩

namespace Formula

def parseRecords (text : Option String) (extra : List String) : List Record :=
  match text with
  | none => []
  | some text =>
    match tokenize text extra, parse (some text) extra with
    | .ok tokens, .ok _ => [.parsed (sourceOf text) tokens.length]
    | _, _ => []

def parseRecordsOfAll : List (Option String) → List Record
  | [] => []
  | text :: rest =>
    match parse text [] with
    | .ok _ => parseRecords text [] ++ parseRecordsOfAll rest
    | .error _ => []

end Formula
end FormulaLayout
