import FormulaLayout.Journal.Record
import FormulaLayout.Text.Quoted

/-! Where records go. Sources are dotted names, and a source without a level of its own takes that
of its nearest ancestor. Records of the package are written by its handlers, each of which has a
level too; nothing is written before the first set-up. The sources that note every formula and
every cell stay at the level of information unless they are traced. -/
namespace FormulaLayout

inductive Handler where
  | console (level : Level)
  | file (level : Level)
deriving DecidableEq, Repr

def Handler.level : Handler → Level
  | console level | file level => level

def Handler.render : Handler → String
  | console level => s!"StreamHandler:{level}"
  | file level => s!"FileHandler:{level}"

structure Journal where
  level : Level
  formulaLevel : Level
  propagates : Bool
  handlers : List Handler
  console : List String
  file : List String
deriving DecidableEq, Repr

inductive LevelText where
  | number (level : Level)
  | name (text : String)
deriving DecidableEq, Repr

structure UnknownLevel where
  text : String
deriving DecidableEq, Repr

def UnknownLevel.message (error : UnknownLevel) : String :=
  s!"Unknown logging level: {Text.quoted error.text}"

def LevelText.parse : LevelText → Except UnknownLevel Level
  | number level => .ok level
  | name text =>
    match Level.ofName? text with
    | some level => .ok level
    | none => .error ⟨text⟩

namespace Journal

def initial : Journal := ⟨0, 0, true, [], [], []⟩

def rootLevel : Level := Level.warning

def isWithin (ancestor source : String) : Bool :=
  source = ancestor || (ancestor ++ ".").toList.isPrefixOf source.toList

def effectiveLevel (journal : Journal) (source : String) : Level :=
  let own :=
    if isWithin Record.parserSource source || isWithin Record.gridSource source then
      journal.formulaLevel
    else 0
  if own ≠ 0 then own
  else if isWithin Record.packageSource source ∧ journal.level ≠ 0 then journal.level
  else rootLevel

def isEnabled (journal : Journal) (record : Record) : Bool :=
  0 < record.level && journal.effectiveLevel record.source ≤ record.level

def line (record : Record) : String :=
  s!"{record.source} - {record.level.name} - {record.message}"

def handle (record : Record) (journal : Journal) (handler : Handler) : Journal :=
  if handler.level ≤ record.level then
    match handler with
    | .console _ => { journal with console := journal.console ++ [line record] }
    | .file _ => { journal with file := journal.file ++ [line record] }
  else journal

def write (journal : Journal) (record : Record) : Journal :=
  if journal.isEnabled record ∧ isWithin Record.packageSource record.source then
    journal.handlers.foldl (handle record) journal
  else journal

def writeAll (journal : Journal) (records : List Record) : Journal :=
  records.foldl write journal

/-- The handlers are replaced, a file that is asked for is emptied, and one that was written
before stays as it is. -/
def setUp (journal : Journal) (level : LevelText) (toFile traced : Bool) :
    Except UnknownLevel Journal := do
  let level ← level.parse
  let ready := { journal with
    level
    formulaLevel := if traced then level else max level Level.info
    propagates := false
    handlers := .console level :: if toFile then [.file level] else []
    file := if toFile then [] else journal.file }
  return ready.write
    ⟨Record.packageSource, Level.info, s!"Logging initialized at {level.name}."⟩

end Journal
end FormulaLayout
