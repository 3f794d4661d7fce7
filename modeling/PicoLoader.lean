import PicoLoader.Attempt
import PicoLoader.Bytes.LittleEndian
import PicoLoader.Chip
import PicoLoader.CommandLine.Exit
import PicoLoader.CommandLine.Grammar
import PicoLoader.CommandLine.LoadCommand
import PicoLoader.CommandLine.RebootCommand
import PicoLoader.Elf.Error
import PicoLoader.Elf.Header
import PicoLoader.Elf.Image
import PicoLoader.Elf.ProgramHeader
import PicoLoader.Fault
import PicoLoader.Files
import PicoLoader.Load.Call
import PicoLoader.Load.OverUsb
import PicoLoader.Load.Recorder
import PicoLoader.Load.Step
import PicoLoader.Load.Steps
import PicoLoader.Log
import PicoLoader.Main
import PicoLoader.Memory.Align
import PicoLoader.Memory.Block
import PicoLoader.Memory.Layout
import PicoLoader.Memory.PageMap
import PicoLoader.Memory.Span
import PicoLoader.Output.Line
import PicoLoader.Output.Sink
import PicoLoader.Picoboot.Command
import PicoLoader.Picoboot.CommandId
import PicoLoader.Picoboot.Endpoints
import PicoLoader.Picoboot.Session
import PicoLoader.Picoboot.Status
import PicoLoader.Picoboot.Transaction
import PicoLoader.Plan.Basic
import PicoLoader.Plan.Entry
import PicoLoader.Plan.Placement
import PicoLoader.Plan.Problem
import PicoLoader.Reboot.Request
import PicoLoader.Reboot.ResetInterface
import PicoLoader.Reboot.Route
import PicoLoader.Reboot.Scan
import PicoLoader.Report
import PicoLoader.Sorting
import PicoLoader.Text.Hex
import PicoLoader.Text.Terminal
import PicoLoader.Usb.Descriptor
import PicoLoader.Usb.Host
import PicoLoader.Usb.TransferError
import PicoLoader.Proofs.Elf.Entries
import PicoLoader.Proofs.Elf.Vetting
import PicoLoader.Proofs.Elf.Writing
import PicoLoader.Proofs.LittleEndian
import PicoLoader.Proofs.Load.Actions
import PicoLoader.Proofs.Load.Chunking
import PicoLoader.Proofs.Load.Device
import PicoLoader.Proofs.Load.DryRun
import PicoLoader.Proofs.Load.FailStop
import PicoLoader.Proofs.Load.FlashLoad
import PicoLoader.Proofs.Load.Messages
import PicoLoader.Proofs.Load.OverUsb
import PicoLoader.Proofs.Load.RamLoad
import PicoLoader.Proofs.Load.Repairing
import PicoLoader.Proofs.Load.Requests
import PicoLoader.Proofs.Load.Runs
import PicoLoader.Proofs.Load.SparingFlash
import PicoLoader.Proofs.Load.StartingMirrored
import PicoLoader.Proofs.Load.StartingSkipped
import PicoLoader.Proofs.Load.Telling
import PicoLoader.Proofs.Load.Wire
import PicoLoader.Proofs.Memory.Bytewise
import PicoLoader.Proofs.Memory.Covering
import PicoLoader.Proofs.Memory.MaximalRuns
import PicoLoader.Proofs.Memory.Merging
import PicoLoader.Proofs.Memory.Multiples
import PicoLoader.Proofs.Memory.Rounding
import PicoLoader.Proofs.Memory.Scattering
import PicoLoader.Proofs.Output.LastLine
import PicoLoader.Proofs.Picoboot.Connecting
import PicoLoader.Proofs.Picoboot.Discovering
import PicoLoader.Proofs.Picoboot.Instructions
import PicoLoader.Proofs.Picoboot.Operations
import PicoLoader.Proofs.Picoboot.Packets
import PicoLoader.Proofs.Picoboot.Signs
import PicoLoader.Proofs.Picoboot.Starting
import PicoLoader.Proofs.Picoboot.Tokens
import PicoLoader.Proofs.Picoboot.Transactions
import PicoLoader.Proofs.Plan.Accounting
import PicoLoader.Proofs.Plan.Belonging
import PicoLoader.Proofs.Plan.Building
import PicoLoader.Proofs.Plan.Coverage
import PicoLoader.Proofs.Plan.ExactErasing
import PicoLoader.Proofs.Plan.Footprint
import PicoLoader.Proofs.Plan.KeepingToFlash
import PicoLoader.Proofs.Plan.MoreSram
import PicoLoader.Proofs.Plan.Paging
import PicoLoader.Proofs.Plan.Refusals
import PicoLoader.Proofs.Plan.Reordering
import PicoLoader.Proofs.Reboot.FirstBoard
import PicoLoader.Proofs.Reboot.Interfaces
import PicoLoader.Proofs.Reboot.OneRequest
import PicoLoader.Proofs.Reboot.Scanning
import PicoLoader.Proofs.Reboot.Sending
import PicoLoader.Proofs.Sorting
import PicoLoader.Proofs.Strict.Arithmetic
import PicoLoader.Proofs.Strict.CarryingOut
import PicoLoader.Proofs.Strict.Planning
import PicoLoader.Proofs.Usb.Conversations
import PicoLoader.Proofs.Usb.Exchanges
