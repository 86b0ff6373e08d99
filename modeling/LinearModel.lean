import LinearModel.Main
import LinearModel.Proofs.Atomicity
import LinearModel.Proofs.Blocks
import LinearModel.Proofs.Coherence
import LinearModel.Proofs.ColumnBounds
import LinearModel.Proofs.DenseArithmetic
import LinearModel.Proofs.DenseRows
import LinearModel.Proofs.Endings
import LinearModel.Proofs.Enumeration
import LinearModel.Proofs.FileProgram
import LinearModel.Proofs.Forgetting
import LinearModel.Proofs.Forming
import LinearModel.Proofs.Handover
import LinearModel.Proofs.Identity
import LinearModel.Proofs.ImpossibleBounds
import LinearModel.Proofs.InStep
import LinearModel.Proofs.IntegerValues
import LinearModel.Proofs.LastOptimum
import LinearModel.Proofs.LastWrite
import LinearModel.Proofs.Layout
import LinearModel.Proofs.MatrixAlgebra
import LinearModel.Proofs.Meaning
import LinearModel.Proofs.MemberOrder
import LinearModel.Proofs.Product
import LinearModel.Proofs.ProductRoutines
import LinearModel.Proofs.Protocol
import LinearModel.Proofs.RoundTrip
import LinearModel.Proofs.Soundness
import LinearModel.Proofs.Transposition
import LinearModel.Proofs.Triples
import LinearModel.Proofs.WriteHistory
