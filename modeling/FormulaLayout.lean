import FormulaLayout.Hierarchy.Layout
import FormulaLayout.Hierarchy.Record
import FormulaLayout.Journal.Journal
import FormulaLayout.Proofs.Evaluation
import FormulaLayout.Proofs.Grid.Partition
import FormulaLayout.Proofs.Parsing.Reading
import FormulaLayout.Proofs.Grid.Outline
import FormulaLayout.Proofs.Grid.Bounds
import FormulaLayout.Proofs.Hierarchy.Run
import FormulaLayout.Proofs.Grid.Disjoint
import FormulaLayout.Proofs.Grid.Whole
import FormulaLayout.Proofs.Parsing.Rendering
import FormulaLayout.Proofs.Hierarchy.Edit
import FormulaLayout.Proofs.Hierarchy.Ownership
import FormulaLayout.Proofs.Hierarchy.Forest
import FormulaLayout.Proofs.Hierarchy.Pass
import FormulaLayout.Proofs.Grid.Inside
import FormulaLayout.Proofs.Hierarchy.Containment
import FormulaLayout.Proofs.Hierarchy.Adding
import FormulaLayout.Proofs.Hierarchy.Strict
import FormulaLayout.Proofs.Hierarchy.Isolation
import FormulaLayout.Proofs.Placement.Chain
import FormulaLayout.Proofs.Parsing.Substitution
import FormulaLayout.Proofs.Transposition.Layout
import FormulaLayout.Proofs.Hierarchy.Translation
import FormulaLayout.Proofs.Placement.PixelSpace
import FormulaLayout.Proofs.Placement.Scope
import FormulaLayout.Proofs.Grid.Scope
import FormulaLayout.Proofs.Grid.History
import FormulaLayout.Proofs.Grid.Refusal
import FormulaLayout.Proofs.Scanning.Progress
import FormulaLayout.Proofs.Parsing.Viable
import FormulaLayout.Proofs.Parsing.Closing
import FormulaLayout.Proofs.Parsing.Spelling
import FormulaLayout.Proofs.Scanning.Words
import FormulaLayout.Proofs.Scanning.Numeral
import FormulaLayout.Proofs.Grid.Contents
import FormulaLayout.Proofs.Hierarchy.Moving
import FormulaLayout.Proofs.Dependence
import FormulaLayout.Proofs.Blanks
import FormulaLayout.Proofs.Placement.Alignment
import FormulaLayout.Proofs.Parsing.Limit
import FormulaLayout.Proofs.Grid.Weights
import FormulaLayout.Proofs.Derivation
import FormulaLayout.Proofs.Number.Pixel
