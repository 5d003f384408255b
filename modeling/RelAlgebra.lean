import RelAlgebra.Main
import RelAlgebra.Proofs.Store.Hashing
import RelAlgebra.Proofs.Store.Laws
import RelAlgebra.Proofs.Store.RowOrder
import RelAlgebra.Proofs.Store.Transparency
import RelAlgebra.Proofs.Store.WellFormed
import RelAlgebra.Proofs.Query.Failures
import RelAlgebra.Proofs.Store.Cutting
import RelAlgebra.Proofs.Query.Conduct
import RelAlgebra.Proofs.Store.Cells
import RelAlgebra.Proofs.Query.Demand
import RelAlgebra.Proofs.Store.Forcing
import RelAlgebra.Proofs.Query.Once
import RelAlgebra.Proofs.Store.Laziness
import RelAlgebra.Proofs.Heap.Machine
import RelAlgebra.Proofs.Heap.Plans
import RelAlgebra.Proofs.Heap.Refinement
import RelAlgebra.Proofs.Store.Locking
import RelAlgebra.Proofs.Heap.Programs
import RelAlgebra.Proofs.Query.Tolerance
import RelAlgebra.Proofs.Algebra.Schema
import RelAlgebra.Proofs.Store.Schema
import RelAlgebra.Proofs.Algebra.Monotone
import RelAlgebra.Proofs.Store.Monotone
import RelAlgebra.Proofs.Expression.Names
import RelAlgebra.Proofs.Algebra.Binding
import RelAlgebra.Proofs.Store.Binding
import RelAlgebra.Proofs.Expression.Relabelling
import RelAlgebra.Proofs.Header.Relabelling
import RelAlgebra.Proofs.Tuples.Relabelling
import RelAlgebra.Proofs.Algebra.Relabelling
import RelAlgebra.Proofs.Store.Relabelling
import RelAlgebra.Proofs.Tuples.Repetition
import RelAlgebra.Proofs.Tuple.Merging
import RelAlgebra.Proofs.Header.Joining
import RelAlgebra.Proofs.Algebra.NaturalJoin
import RelAlgebra.Proofs.Algebra.SemiJoin
import RelAlgebra.Proofs.Algebra.Division
import RelAlgebra.Proofs.Tuples.Extension
import RelAlgebra.Proofs.Tuples.ComparisonSort
import RelAlgebra.Proofs.Tuples.InsertionSort
import RelAlgebra.Proofs.Tuples.StableOrder
import RelAlgebra.Proofs.Algebra.Ordering
import RelAlgebra.Proofs.Algebra.Arrangement
import RelAlgebra.Proofs.Store.Joins
import RelAlgebra.Proofs.Store.Division
import RelAlgebra.Proofs.Store.Ordering
import RelAlgebra.Proofs.Value.Comparison
import RelAlgebra.Proofs.Algebra.Pairing
import RelAlgebra.Proofs.Algebra.Renaming
import RelAlgebra.Proofs.Algebra.EquiJoin
import RelAlgebra.Proofs.Store.EquiJoin
import RelAlgebra.Proofs.Algebra.PlanFailures
import RelAlgebra.Proofs.Value.Congruence
import RelAlgebra.Proofs.Expression.Congruence
import RelAlgebra.Proofs.Value.BitOrder
import RelAlgebra.Proofs.Store.Equality
import RelAlgebra.Proofs.Algebra.Pushdown
import RelAlgebra.Proofs.Algebra.Projection
import RelAlgebra.Proofs.Tuples.Transforms
import RelAlgebra.Proofs.Tuples.SetAlgebra
import RelAlgebra.Proofs.Tuples.Shelf
import RelAlgebra.Proofs.Tuples.LiteralRows
import RelAlgebra.Proofs.Expression.Leaves
import RelAlgebra.Proofs.Header.Occurrence
import RelAlgebra.Proofs.Tuples.Calls
import RelAlgebra.Proofs.Value.Division
import RelAlgebra.Proofs.Header.Index
