import Descent.CentralPath
import Descent.Proofs.Ray.Guarded
import Descent.Proofs.Ray.Samples
import Descent.Proofs.Run.Triple
import Descent.Scalar.Double
import Descent.Text.Lines
import Descent.Proofs.CentralPath.Inside
import Descent.Proofs.Barrier.Family
import Descent.Proofs.CentralPath.Evaluations
import Descent.Proofs.Exact.Euclidean
import Descent.Proofs.Barrier.Logarithmic
import Descent.Proofs.CentralPath.Duality
import Descent.Proofs.LinearSystem.Course
import Descent.Proofs.LinearSystem.Conjugacy
import Descent.Proofs.LinearSystem.Exact
import Descent.Proofs.LinearSystem.Krylov
import Descent.Proofs.LinearSystem.Termination
import Descent.Proofs.LinearSystem.Truncated
import Descent.Proofs.Minimize.Inner
import Descent.Proofs.Minimize.Quadratic
import Descent.Proofs.CentralPath.Bookkeeping
import Descent.Proofs.Ray.Scaling
import Descent.Proofs.Minimize.Course
import Descent.Proofs.CentralPath.Scaling
import Descent.Proofs.Run.Loop
import Descent.Proofs.Run.Count
import Descent.Proofs.Ray.Work
import Descent.Proofs.Minimize.Rounds
import Descent.Proofs.Minimize.Heads
import Descent.Proofs.Minimize.Work
import Descent.Proofs.Minimize.Outer
import Descent.Proofs.Minimize.Budget
import Descent.Proofs.Minimize.Stranded
import Descent.Proofs.Exact.Operator
import Descent.Proofs.Barrier.Derivative
import Descent.Proofs.Barrier.Diagonal
import Descent.Proofs.CentralPath.Derivative
import Descent.Proofs.CentralPath.Jacobi
import Descent.Proofs.LinearSystem.Truncation
import Descent.Proofs.Minimize.Truncation
import Descent.Proofs.Run.Comparison
import Descent.Proofs.Ray.Comparison
import Descent.Proofs.Minimize.Comparison
import Descent.Proofs.Minimize.Likeness
import Descent.Proofs.Minimize.Resume
import Descent.Proofs.CentralPath.Comparison
import Descent.Proofs.CentralPath.Resume
import Descent.Proofs.Minimize.Alarms
import Descent.Proofs.CentralPath.Alarms
import Descent.Proofs.Division.Solvers
import Descent.Proofs.Division.Minimizers
import Descent.Proofs.Division.Barriers
import Descent.Proofs.Division.Paths
import Descent.Proofs.CentralPath.Limits
import Descent.Proofs.CentralPath.Unconstrained
import Descent.Proofs.Run.Outcome
import Descent.Proofs.Barrier.Order
import Descent.Proofs.CentralPath.Order
import Descent.Proofs.Ray.Lockstep
import Descent.Proofs.Minimize.Lockstep
import Descent.Proofs.Run.Watch
import Descent.Proofs.CentralPath.Diagnostic
import Descent.Proofs.Barrier.Curvature
import Descent.Proofs.CentralPath.Curvature
import Descent.Proofs.Logging.Requests
import Descent.Proofs.Ray.Furthest
import Descent.Proofs.Ray.Postcondition
import Descent.Proofs.Minimize.Steps
import Descent.Proofs.Run.Image
import Descent.Proofs.Exact.Frame
import Descent.Proofs.LinearSystem.Frame
import Descent.Proofs.Minimize.Frame
import Descent.Proofs.Minimize.Coordinates
import Descent.Proofs.LinearSystem.Energy
import Descent.Proofs.Scalar.Positive
import Descent.Proofs.Minimize.Start
import Descent.Proofs.Run.Settled
import Descent.Proofs.Run.Asking
import Descent.Proofs.Minimize.Known
import Descent.Proofs.Minimize.Exits
import Descent.Proofs.Minimize.Criteria
import Descent.Proofs.Ray.Quadratic
import Descent.Proofs.LinearSystem.Covariance
import Descent.Proofs.Operator.Entries
import Descent.Proofs.Operator.Sharing
import Descent.Proofs.Operator.Cache
import Descent.Proofs.Operator.Meaning
import Descent.Proofs.Operator.Matrices
import Descent.Proofs.Ray.Rounds
import Descent.Proofs.Ray.Bracket
import Descent.Proofs.Ray.Refinement
