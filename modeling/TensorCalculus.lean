import TensorCalculus.Bulk.Run
import TensorCalculus.Closure
import TensorCalculus.Face
import TensorCalculus.Grid
import TensorCalculus.HyperTensor.Activation
import TensorCalculus.HyperTensor.Build
import TensorCalculus.HyperTensor.Printer
import TensorCalculus.Literal.Layout
import TensorCalculus.Literal.Place
import TensorCalculus.Literal.Printer
import TensorCalculus.Literal.Reader
import TensorCalculus.Profile
import TensorCalculus.Store
import TensorCalculus.Tensor.Axis
import TensorCalculus.Tensor.Build
import TensorCalculus.Tensor.Cutoff
import TensorCalculus.Tensor.Softmax
import TensorCalculus.Tower.Form
import TensorCalculus.Trace.Report
import TensorCalculus.Proofs.Layout.Coordinates
import TensorCalculus.Proofs.Odometer.Readings
import TensorCalculus.Proofs.Outcome
import TensorCalculus.Proofs.Plan.Resolution
import TensorCalculus.Proofs.Plan.Places
import TensorCalculus.Proofs.Contraction.Cells
import TensorCalculus.Proofs.Contraction.Denotation
import TensorCalculus.Proofs.Contraction.Evaluation
import TensorCalculus.Proofs.Contraction.Staging
import TensorCalculus.Proofs.Subscripts.Grammar
import TensorCalculus.Proofs.Subscripts.Reading
import TensorCalculus.Proofs.Closure.Joins
import TensorCalculus.Proofs.Closure.Walks
import TensorCalculus.Proofs.Fixpoint.Search
import TensorCalculus.Proofs.Closure.Reachability
import TensorCalculus.Proofs.Closure.Rounds
import TensorCalculus.Proofs.Closure.Weights
import TensorCalculus.Proofs.Closure.ShortestWalks
import TensorCalculus.Proofs.Closure.CountedWalks
import TensorCalculus.Proofs.Decimal.Whole
import TensorCalculus.Proofs.Tower.Ring
import TensorCalculus.Proofs.Tower.Norm
import TensorCalculus.Proofs.Trace.Transparency
import TensorCalculus.Proofs.Tower.Composition
import TensorCalculus.Proofs.Tower.Flexibility
import TensorCalculus.Proofs.Tower.Numbers
import TensorCalculus.Proofs.Contraction.Simulation
import TensorCalculus.Proofs.HyperTensor.Building
import TensorCalculus.Proofs.HyperTensor.Embedding
import TensorCalculus.Proofs.HyperTensor.Grouping
import TensorCalculus.Proofs.Closure.Agreement
import TensorCalculus.Proofs.SumProduct.Reals
import TensorCalculus.Proofs.SumProduct.Storage
import TensorCalculus.Proofs.Trace.Reports
import TensorCalculus.Proofs.Trace.Sessions
import TensorCalculus.Proofs.Usage.Histories
import TensorCalculus.Proofs.Tower.Dimensions
import TensorCalculus.Proofs.Plan.Rewording
import TensorCalculus.Proofs.SumProduct.Commutation
import TensorCalculus.Proofs.Tower.ProductLaws
import TensorCalculus.Proofs.Plan.Renaming
import TensorCalculus.Proofs.Contraction.OutputOrder
import TensorCalculus.Proofs.Tower.Division
import TensorCalculus.Proofs.Tower.TraceForm
import TensorCalculus.Proofs.Tower.Basis
import TensorCalculus.Proofs.Tower.Rotations
import TensorCalculus.Proofs.Odometer.Digits
import TensorCalculus.Proofs.Plan.Faults
import TensorCalculus.Proofs.Contraction.Positivity
import TensorCalculus.Proofs.Contraction.Queries
import TensorCalculus.Proofs.SumProduct.Counting
import TensorCalculus.Proofs.Contraction.Linearity
import TensorCalculus.Proofs.Layout.RowMajor
import TensorCalculus.Proofs.Tensor.Writing
import TensorCalculus.Proofs.Contraction.Costs
import TensorCalculus.Proofs.Layout.Limits
import TensorCalculus.Proofs.Tensor.Broadcasting
import TensorCalculus.Proofs.Tensor.Transposition
import TensorCalculus.Proofs.TruthValue.Connectives
import TensorCalculus.Proofs.TruthValue.Revision
import TensorCalculus.Proofs.TruthValue.Deduction
import TensorCalculus.Proofs.Plan.Repetition
import TensorCalculus.Proofs.Tensor.Shares
import TensorCalculus.Proofs.Decimal.Doubles
import TensorCalculus.Proofs.Settings.Drafts
import TensorCalculus.Proofs.Decimal.Bits
import TensorCalculus.Proofs.Closure.Arguments
import TensorCalculus.Proofs.Decimal.Numerals
import TensorCalculus.Proofs.Tower.Names
import TensorCalculus.Proofs.Fixpoint.Iterates
import TensorCalculus.Proofs.Tower.Halves
import TensorCalculus.Proofs.Tower.Inclusion
