import PicoLoader.CommandLine.Exit
import PicoLoader.Load.OverUsb
import PicoLoader.Report

/-!
# The command that loads a file

It puts an image onto the first board in BOOTSEL mode and starts it, or says what it would do.
-/

namespace PicoLoader.CommandLine

open Usb

/-- The switches of the command. -/
inductive LoadSwitch where
  | flash
  | noExec
  | dryRun
  | verbose
deriving DecidableEq, Repr

/-- What the command is told to do. -/
structure LoadRequest where
  file : String
  allowFlash : Bool
  start : Bool
  dryRun : Bool
  verbose : Bool
deriving DecidableEq, Repr

namespace LoadRequest

/-- What the command takes. -/
def grammar : Grammar LoadSwitch where
  program := "dapico-load"
  release := "0.2.0"
  about := "Load an ELF image into an RP2040/RP2350 in BOOTSEL mode and run it"
  switches := [
    ⟨"flash", none, "Allow writing flash segments instead of mirroring them into SRAM",
      .own .flash⟩,
    ⟨"no-exec", none, "Skip executing the loaded image", .own .noExec⟩,
    ⟨"dryrun", none, "Print what would be written without touching any device", .own .dryRun⟩,
    ⟨"verbose", some 'v', "Enable debug logging", .own .verbose⟩]
  operands := [⟨"FILE", "ELF file to load"⟩]

/-- Reads arguments. -/
def ofArguments (texts : List String) : Except Stop LoadRequest :=
  match grammar.read texts with
  | .error stop => .error stop
  | .ok ⟨switches, operands⟩ =>
    match operands with
    | [file] => .ok {
        file
        allowFlash := LoadSwitch.flash ∈ switches
        start := LoadSwitch.noExec ∉ switches
        dryRun := LoadSwitch.dryRun ∈ switches
        verbose := LoadSwitch.verbose ∈ switches }
    | _ => .error .misuse

/-- The message that names the file and the chip. -/
def greeting (request : LoadRequest) (chip : Chip) : List Log.Entry :=
  [⟨.info, .loadTool, "loading " ++ request.file ++ " for " ++ chip.name⟩]

/-- Does what the command is told. The file is given by what reading it comes to. -/
def perform (request : LoadRequest) (bus : Bus) (file : Except Elf.Error (List UInt8))
    (host : Host) : Except Fault Unit × Host × Sink :=
  if request.dryRun then
    let (result, sink, log) := Report.run file request.allowFlash request.start .unlimited
    (result, { host with log := host.log ++ log }, sink)
  else
    Load.overUsb bus file request.allowFlash request.start request.greeting host .unlimited

end LoadRequest

/-- **The command that loads a file**: how it ends, and the host after it. The reader gives the
bytes that a path leads to, and the word sets the log. -/
def load (texts : List String) (word : Option String)
    (reader : String → Except Elf.Error (List UInt8)) (bus : Bus) (host : Host) : Exit × Host :=
  match LoadRequest.ofArguments texts with
  | .error stop => (.ofStop LoadRequest.grammar stop, host)
  | .ok request =>
    let (result, host, sink) := request.perform bus (reader request.file) host
    let log := Log.printed (threshold word request.verbose) host.log
    match result with
    | .ok () => (.success sink.text log, host)
    | .error fault => (.failure sink.text log fault.message, host)

end PicoLoader.CommandLine
