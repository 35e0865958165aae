import FormulaLayout.Formula.Syntax
import FormulaLayout.Formula.Fault
import FormulaLayout.Number.Literal
import FormulaLayout.Text.Blank
import FormulaLayout.Text.Letter

/-! Tokens of a formula. Blanks are dropped first, so positions count the characters that are left.
At a letter the longest known word wins; function names and the root operator are words too, and
what they name cannot be a variable. -/
namespace FormulaLayout
open Number Text

inductive TokenKind where
  | number (value : Float)
  | name
  | function (function : UnaryFunction)
  | extremum (function : Extremum)
  | operator (operator : Operator)
  | opening
  | closing
deriving DecidableEq

structure Token where
  kind : TokenKind
  text : String
  position : Nat
deriving DecidableEq

def baseNames : List String := ["centerx", "centery", "width", "height", "pi", "e"]
def extendedNames : List String := ["CENTERX", "CENTERY", "WIDTH", "HEIGHT"]

def reservedWords : List (String × TokenKind) :=
  [("cos", .function .cos), ("sin", .function .sin), ("tan", .function .tan),
   ("log", .function .log), ("ln", .function .ln), ("max", .extremum .max),
   ("min", .extremum .min), ("r", .operator .root)]

def knownWords (extra : List String) : List (List Char) :=
  (baseNames ++ extendedNames ++ extra ++ reservedWords.map Prod.fst).map String.toList

def TokenKind.ofWord (word : String) : TokenKind := (reservedWords.lookup word).getD .name

def TokenKind.ofSymbol? : Char → Option TokenKind
  | '(' => some .opening
  | ')' => some .closing
  | '^' => some (.operator .power)
  | '*' => some (.operator .times)
  | '/' => some (.operator .divide)
  | '+' => some (.operator .plus)
  | '-' => some (.operator .minus)
  | _ => none

def longestWord? (words : List (List Char)) (text : List Char) : Option (List Char) :=
  words.foldl (fun best word =>
    if word.isPrefixOf text ∧ best.all (·.length < word.length) then some word else best) none

def lexeme (words : List (List Char)) (c : Char) (rest : List Char) :
    Except Complaint (TokenKind × List Char) :=
  if startsLiteral c then
    let literal := Literal.scan (c :: rest)
    match literal.value? with
    | some value => .ok (.number value, literal.text)
    | none => .error (.notANumber (String.ofList literal.text))
  else match TokenKind.ofSymbol? c with
    | some kind => .ok (kind, [c])
    | none =>
      if isLetter c then
        match longestWord? words (c :: rest) with
        | none => .error (.unknownName c)
        | some [] => .error (.stalled c)
        | some word => .ok (.ofWord (String.ofList word), word)
      else .error (.unsupportedSymbol c)

/-- The number `skip` counts the characters of the current token still to be passed over. -/
def scanFrom (words : List (List Char)) (source : String) (skip position : Nat) :
    List Char → Except Fault (List Token)
  | [] => .ok []
  | c :: rest =>
    match skip with
    | skip + 1 => scanFrom words source skip (position + 1) rest
    | 0 =>
      match lexeme words c rest with
      | .error complaint => .error ⟨complaint, source, some position⟩
      | .ok (kind, text) => do
        let tokens ← scanFrom words source (text.length - 1) (position + 1) rest
        return ⟨kind, String.ofList text, position⟩ :: tokens

def sourceOf (text : String) : String := String.ofList (squeeze text.toList)

def tokenize (text : String) (extra : List String) : Except Fault (List Token) :=
  scanFrom (knownWords extra) (sourceOf text) 0 0 (squeeze text.toList)

theorem tokenize_congr {text text' : String} (extra : List String)
    (h : squeeze text.toList = squeeze text'.toList) :
    tokenize text extra = tokenize text' extra := by
  simp [tokenize, sourceOf, h]

end FormulaLayout
