import MC68000.Machine.Inspect
import MC68000.Machine.Run
import MC68000.Proofs.ExceptionReturn
import MC68000.Proofs.Interrupts
import MC68000.Proofs.TimeSlicing
import MC68000.Proofs.UserMode
import MC68000.Proofs.Costs
import MC68000.Proofs.RunBounds
import MC68000.Proofs.Accounts
import MC68000.Proofs.Isolation
import MC68000.Proofs.Refusal
import MC68000.Proofs.BusTraffic
import MC68000.Proofs.FailedAccess
import MC68000.Proofs.AccessErrors
import MC68000.Proofs.ContextSwitch
import MC68000.Proofs.RamViews
import MC68000.Proofs.InstructionLength
import MC68000.Proofs.CostFactors
import MC68000.Proofs.RunStates
import MC68000.Proofs.LimbChains
import MC68000.Proofs.OpenBus
import MC68000.Proofs.ResetErasure
import MC68000.Proofs.Tracing
import MC68000.Proofs.Comparison
import MC68000.Proofs.DecimalChains
import MC68000.Proofs.HostRequests
import MC68000.Proofs.TickBudgets
import MC68000.Proofs.Shifts
import MC68000.Proofs.Quotients
import MC68000.Proofs.DivisionTiming
import MC68000.Proofs.RegisterLists
import MC68000.Proofs.RegionBounds
import MC68000.Proofs.Legality
import MC68000.Proofs.AutoIncrement
import MC68000.Proofs.RegisterFrame
import MC68000.Proofs.StackPointers
import MC68000.Proofs.Reachability
import MC68000.Proofs.Refunds
import MC68000.Proofs.Conduct
import MC68000.Proofs.Devices
import MC68000.Proofs.Observables
import MC68000.Proofs.RegisterParts
import MC68000.Proofs.AlternateBytes
import MC68000.Proofs.Linkage
import MC68000.Proofs.CountedLoops
