/-! Levels of importance. A level is a number; the round ones have names, two of them a second
one. -/
namespace FormulaLayout

abbrev Level := Int

namespace Level

def debug : Level := 10
def info : Level := 20
def warning : Level := 30
def error : Level := 40

private def namedLevels : List (String × Level) :=
  [("CRITICAL", 50), ("FATAL", 50), ("ERROR", 40), ("WARNING", 30), ("WARN", 30), ("INFO", 20),
   ("DEBUG", 10), ("NOTSET", 0)]

/-- Beyond the English letters, only the dotless i and the long s have one of them as capital. -/
private def capital (c : Char) : Char :=
  if c = '\u0131' then 'I' else if c = '\u017f' then 'S' else c.toUpper

def ofName? (name : String) : Option Level :=
  namedLevels.lookup (String.ofList (name.toList.map capital))

def name (level : Level) : String :=
  match namedLevels.find? (·.2 = level) with
  | some (name, _) => name
  | none => s!"Level {level}"

end Level
end FormulaLayout
