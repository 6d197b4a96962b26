import BoxQP.Call
import BoxQP.Report
import BoxQP.Session
import BoxQP.Trail
import BoxQP.Proofs.BoundedRun
import BoxQP.Proofs.Box
import BoxQP.Proofs.FixedPoint
import BoxQP.Proofs.Descent
import BoxQP.Proofs.Convergence
import BoxQP.Proofs.Positivity
import BoxQP.Proofs.MinimiserLoop
import BoxQP.Proofs.Readings
import BoxQP.Proofs.Answers
import BoxQP.Proofs.Drivers
import BoxQP.Proofs.Cholesky
import BoxQP.Proofs.Duality
import BoxQP.Proofs.Residual
import BoxQP.Proofs.DualErrorBound
import BoxQP.Proofs.SweepDescent
import BoxQP.Proofs.Certificate
import BoxQP.Proofs.ResidualLimit
import BoxQP.Proofs.CallHistory
import BoxQP.Proofs.OuterLoop
import BoxQP.Proofs.ArrayUpdate
import BoxQP.Proofs.Acceptance
import BoxQP.Proofs.Relabelling
import BoxQP.Proofs.ValidSplit
import BoxQP.Proofs.Majorant
import BoxQP.Proofs.Doubles
import BoxQP.Proofs.Undefined
import BoxQP.Proofs.Rounding
import BoxQP.Proofs.EditHistory
import BoxQP.Proofs.RestPoints
import BoxQP.Proofs.StoppingControls
import BoxQP.Proofs.WarmRestart
import BoxQP.Proofs.TriangularSweep
import BoxQP.Proofs.Blocks
import BoxQP.Proofs.Damping
import BoxQP.Proofs.Spellings
import BoxQP.Proofs.BoundShapes
import BoxQP.Proofs.InequalityShapes
import BoxQP.Proofs.DualDiagonal
