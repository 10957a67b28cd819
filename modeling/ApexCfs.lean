import ApexCfs.Proofs.Priority
import ApexCfs.Proofs.NonInterference
import ApexCfs.Proofs.Mirror
import ApexCfs.Proofs.LoadSum
import ApexCfs.Proofs.LoadError
import ApexCfs.Lib.Hysteresis
import ApexCfs.Proofs.LoadAvg
import ApexCfs.Proofs.Controller
import ApexCfs.Lib.Jain
import ApexCfs.Proofs.JainIndex
import ApexCfs.Proofs.Settling
import ApexCfs.Proofs.Conservation
import ApexCfs.Lib.HalfLife
import ApexCfs.Proofs.Periods
import ApexCfs.Lib.Truncated
import ApexCfs.Proofs.ClosedForm
import ApexCfs.Proofs.Interpolation
import ApexCfs.Proofs.Draining
import ApexCfs.Proofs.LoadCeiling
import ApexCfs.Proofs.Splitting
import ApexCfs.Lib.Newton
import ApexCfs.Lib.While
import ApexCfs.Proofs.NearestPow2
import ApexCfs.Proofs.Reciprocal
import ApexCfs.Proofs.VruntimeScaling
import ApexCfs.Proofs.ClassScaling
import ApexCfs.Proofs.ExactScaling
import ApexCfs.Spec.Kernel
import ApexCfs.Proofs.KernelMirror
import ApexCfs.Proofs.WeightOrder
import ApexCfs.Proofs.Progress
import ApexCfs.Proofs.ApafDecay
import ApexCfs.Proofs.ApafOrder
import ApexCfs.Proofs.Metrics
import ApexCfs.Proofs.Shares
import ApexCfs.Lib.Waiting
import ApexCfs.Lib.Apportion
import ApexCfs.Lib.ChangeLog
import ApexCfs.Lib.Decimal
import ApexCfs.Lib.Csv
import ApexCfs.Lib.Segments
import ApexCfs.Proofs.ShortRuns
import ApexCfs.Proofs.Latency
import ApexCfs.Spec.Experiments
import ApexCfs.Proofs.Unblocked
import ApexCfs.Proofs.IdealShare
import ApexCfs.Proofs.Summary
import ApexCfs.Proofs.EqualWeights
import ApexCfs.Proofs.ErrorBounds
import ApexCfs.Proofs.MixedLoad
import ApexCfs.Proofs.BatchFairness
import ApexCfs.Proofs.Recorded
import ApexCfs.Proofs.SavedOps
import ApexCfs.Proofs.Spike
import ApexCfs.Proofs.CsvFile
import ApexCfs.Proofs.Pelt
