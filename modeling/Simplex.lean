import Simplex.Arithmetic
import Simplex.Assignment
import Simplex.Command.Basic
import Simplex.Command.Help
import Simplex.Command.Item
import Simplex.Command.Outcome
import Simplex.Command.Program
import Simplex.Command.Request
import Simplex.Command.Source
import Simplex.Comparison
import Simplex.Decimal.Basic
import Simplex.Decimal.Binary64
import Simplex.Decimal.Printer
import Simplex.Decimal.Reader
import Simplex.Decimal.Shortest
import Simplex.Draft
import Simplex.Export
import Simplex.Expression
import Simplex.Expression.Printer
import Simplex.Expression.Reader
import Simplex.Json
import Simplex.Listing
import Simplex.Main
import Simplex.Problem
import Simplex.ProblemFile
import Simplex.Proofs.Accesses
import Simplex.Proofs.Basis
import Simplex.Proofs.Calculation
import Simplex.Proofs.Certificate
import Simplex.Proofs.Checks
import Simplex.Proofs.Choice
import Simplex.Proofs.Columns
import Simplex.Proofs.Costs
import Simplex.Proofs.Degeneracy
import Simplex.Proofs.Diagnosis
import Simplex.Proofs.Double
import Simplex.Proofs.Drafts
import Simplex.Proofs.Equations
import Simplex.Proofs.Equivalence
import Simplex.Proofs.Exact
import Simplex.Proofs.Extraction
import Simplex.Proofs.Faithfulness
import Simplex.Proofs.Feasibility
import Simplex.Proofs.Fields
import Simplex.Proofs.Freshness
import Simplex.Proofs.Grammar
import Simplex.Proofs.Grouping
import Simplex.Proofs.Growth
import Simplex.Proofs.Histories
import Simplex.Proofs.InitialBasis
import Simplex.Proofs.Inspection
import Simplex.Proofs.Invariance
import Simplex.Proofs.Legibility
import Simplex.Proofs.Literals
import Simplex.Proofs.Lookup
import Simplex.Proofs.Meaning
import Simplex.Proofs.Merging
import Simplex.Proofs.Nearest
import Simplex.Proofs.Objective
import Simplex.Proofs.Offences
import Simplex.Proofs.Optimum
import Simplex.Proofs.Overflow
import Simplex.Proofs.Places
import Simplex.Proofs.Plain
import Simplex.Proofs.Positions
import Simplex.Proofs.Progress
import Simplex.Proofs.Recasting
import Simplex.Proofs.Records
import Simplex.Proofs.Renormalization
import Simplex.Proofs.Reordering
import Simplex.Proofs.Rereading
import Simplex.Proofs.RoundTrip
import Simplex.Proofs.Runs
import Simplex.Proofs.Scanning
import Simplex.Proofs.Selection
import Simplex.Proofs.Shape
import Simplex.Proofs.Sides
import Simplex.Proofs.Slacks
import Simplex.Proofs.Sources
import Simplex.Proofs.Statements
import Simplex.Proofs.Status
import Simplex.Proofs.Stepping
import Simplex.Proofs.Unbounded
import Simplex.Proofs.Undefined
import Simplex.Proofs.Underflow
import Simplex.Proofs.UnitColumns
import Simplex.Proofs.Units
import Simplex.Proofs.WrittenTerms
import Simplex.Session
import Simplex.Settings
import Simplex.Solution
import Simplex.Solver
import Simplex.StandardForm
import Simplex.Symbols
import Simplex.Tableau.Basic
import Simplex.Tableau.Pivot
import Simplex.Termination
import Simplex.Text.Blank
import Simplex.Text.Name
import Simplex.Text.Order
import Simplex.Toml.ProblemFile
import Simplex.Toml.Reader
import Simplex.Toml.Scalar
import Simplex.Toml.Value
