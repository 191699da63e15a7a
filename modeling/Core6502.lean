import Core6502.Address
import Core6502.Register
import Core6502.Status
import Core6502.AddressingMode
import Core6502.Opcode
import Core6502.Text
import Core6502.Log
import Core6502.Activity
import Core6502.Memory.Basic
import Core6502.Memory.Store
import Core6502.Cpu.State
import Core6502.Cpu.Execution
import Core6502.Cpu.Basic
import Core6502.Cpu.Lemmas
import Core6502.Cpu.Command
import Core6502.Host
import Core6502.Program
import Core6502.Proofs.Arithmetic
import Core6502.Proofs.Span
import Core6502.Proofs.Resolution
import Core6502.Proofs.Turns
import Core6502.Proofs.Sessions
import Core6502.Proofs.Indexing
import Core6502.Proofs.Reference
import Core6502.Proofs.Refinement
import Core6502.Proofs.Loading
import Core6502.Proofs.Listing
import Core6502.Proofs.Dependence
import Core6502.Proofs.Traffic
import Core6502.Proofs.History
import Core6502.Proofs.Cycles
import Core6502.Proofs.Lockstep
import Core6502.Proofs.ByteOrder
import Core6502.Proofs.Undecoded
import Core6502.Proofs.Repetition
import Core6502.Proofs.Relocation
import Core6502.Proofs.Scheduling
import Core6502.Proofs.LastWriter
import Core6502.Proofs.HostSessions
import Core6502.Proofs.Declarations
import Core6502.Proofs.Independence
import Core6502.Proofs.LongLoads
import Core6502.Proofs.Slices
import Core6502.Proofs.Accounts
import Core6502.Proofs.LongForms
