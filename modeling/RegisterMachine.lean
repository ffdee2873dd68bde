import RegisterMachine.Main
import RegisterMachine.Text.Message
import RegisterMachine.Proofs.Effect
import RegisterMachine.Proofs.Tick
import RegisterMachine.Proofs.Atomicity
import RegisterMachine.Proofs.Codec
import RegisterMachine.Proofs.FaultRules
import RegisterMachine.Proofs.CallReturn
import RegisterMachine.Proofs.Simulation
import RegisterMachine.Proofs.WholeRun
import RegisterMachine.Proofs.Interruption
import RegisterMachine.Proofs.StepBudget
import RegisterMachine.Proofs.Resources
import RegisterMachine.Proofs.Signedness
import RegisterMachine.Proofs.RoundTrip
import RegisterMachine.Proofs.Sweep
import RegisterMachine.Proofs.History
import RegisterMachine.Proofs.Cbor
import RegisterMachine.Proofs.WordValue
import RegisterMachine.Proofs.FaultText
import RegisterMachine.Proofs.SnapshotFile
import RegisterMachine.Proofs.Report
import RegisterMachine.Proofs.LongerProgram
import RegisterMachine.Proofs.DamagedFile
import RegisterMachine.Proofs.Careful
import RegisterMachine.Proofs.FreshStart
import RegisterMachine.Proofs.Hazards
import RegisterMachine.Proofs.Arithmetic
import RegisterMachine.Proofs.ForeignRead
import RegisterMachine.Proofs.TomlScalar
import RegisterMachine.Proofs.ConfigFile
import RegisterMachine.Proofs.MemoryHistory
import RegisterMachine.Proofs.Frame
import RegisterMachine.Proofs.FlagHistory
import RegisterMachine.Proofs.Layout
import RegisterMachine.Proofs.FaultCode
import RegisterMachine.Proofs.Trace
import RegisterMachine.Proofs.Buildable
import RegisterMachine.Proofs.Precedence
import RegisterMachine.Proofs.Spelling
import RegisterMachine.Proofs.Disassembly
import RegisterMachine.Proofs.Dump
import RegisterMachine.Proofs.FaultIdentity
import RegisterMachine.Proofs.WordCodec
import RegisterMachine.Machine.Kept
import RegisterMachine.Proofs.Kept
