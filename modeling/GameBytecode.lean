import GameBytecode.Assembly.Notation
import GameBytecode.CommandLine.Desk
import GameBytecode.CommandLine.Perform
import GameBytecode.Image
import GameBytecode.Main
import GameBytecode.Proofs.Accounting
import GameBytecode.Proofs.AddressingModes
import GameBytecode.Proofs.Allocation
import GameBytecode.Proofs.ArgumentArrival
import GameBytecode.Proofs.ArgumentWiring
import GameBytecode.Proofs.AssembledOperands
import GameBytecode.Proofs.BoundsChecks
import GameBytecode.Proofs.BuiltinNumbers
import GameBytecode.Proofs.BurstErrors
import GameBytecode.Proofs.ControlRestored
import GameBytecode.Proofs.EntryPaths
import GameBytecode.Proofs.FailedEntry
import GameBytecode.Proofs.FieldAddresses
import GameBytecode.Proofs.HostAccess
import GameBytecode.Proofs.ImageFormat
import GameBytecode.Proofs.ImageRoundTrip
import GameBytecode.Proofs.IntegerDivision
import GameBytecode.Proofs.ListedNumbers
import GameBytecode.Proofs.ListingSections
import GameBytecode.Proofs.LocalsRoundTrip
import GameBytecode.Proofs.NameResolution
import GameBytecode.Proofs.NestedRuns
import GameBytecode.Proofs.NullWord
import GameBytecode.Proofs.NumericOperands
import GameBytecode.Proofs.OperandSpans
import GameBytecode.Proofs.OwnReturn
import GameBytecode.Proofs.RefusedStatement
import GameBytecode.Proofs.RegionIsolation
import GameBytecode.Proofs.SlotReuse
import GameBytecode.Proofs.StackBounds
import GameBytecode.Proofs.StatementLimit
import GameBytecode.Proofs.StatementTable
import GameBytecode.Proofs.StoredNames
import GameBytecode.Proofs.StringObservers
import GameBytecode.Proofs.SubstitutedDivision
import GameBytecode.Proofs.TransientLifetime
import GameBytecode.Proofs.TransitionAgreement
import GameBytecode.Run
import GameBytecode.Settings.Environment
import GameBytecode.Validation
