import FormulaLayout.Journal.Level

/-! What the library notes down while it works. Each noun has its own records, beside it: formulas
that were read, cells that were taken and given up, components that could not be placed. An
operation and its records are separate functions of the same arguments, so laws about operations
never mention records. -/
namespace FormulaLayout

structure Record where
  source : String
  level : Level
  message : String
deriving DecidableEq, Repr

namespace Record

def packageSource : String := "scalablelayout"
def parserSource : String := "scalablelayout.solver.parser"
def gridSource : String := "scalablelayout.layout.grid"
def panelSource : String := "scalablelayout.layout.panel"

def render (record : Record) : String :=
  s!"{record.source} {record.level.name} {record.message}"

end Record
end FormulaLayout
